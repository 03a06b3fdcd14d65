/-
  EventTable — quantities, their units, and the preferred unit of each.

  Measurements are stored in metric units: kilometres, kilometres per hour,
  litres, kilopascals, degrees Celsius, kilometres per litre and metres.  A
  reader of a table may prefer other units, one per quantity.

  * `MeasureUnit` is what a unit contributes: the conversion from the metric
    unit, and its label as a key of the string table with an English default;
  * the seven unit types list the choices, with the names they are configured
    by (`names`);
  * `UnitPreferences` holds one choice per quantity, and
    `UnitPreferences.unit` looks it up, so that a column names a `Quantity`
    and never a unit.
-/
namespace EventTable

/-- A text of the string table: its key, and the text used without an entry. -/
structure Label where
  key : String
  default : String
  deriving DecidableEq, Repr

/-- From the metric unit of a quantity to another unit. -/
inductive Conversion where
  /-- The metric unit itself. -/
  | metric
  /-- So many units to one metric unit. -/
  | factor (perMetric : Float)
  /-- From degrees Celsius to degrees Fahrenheit. -/
  | fahrenheit

/-- Converts a value given in the metric unit. -/
def Conversion.apply : Conversion → Float → Float
  | metric, x => x
  | factor k, x => x * k
  | fahrenheit, x => x * 9.0 / 5.0 + 32.0

/-- A unit as the tables use it. -/
structure MeasureUnit where
  label : Label
  conversion : Conversion

/-! ## The units of each quantity -/

inductive DistanceUnit where
  | kilometers | miles | nauticalMiles
  deriving DecidableEq, Repr

inductive SpeedUnit where
  | kilometersPerHour | milesPerHour | knots
  deriving DecidableEq, Repr

inductive VolumeUnit where
  | liters | usGallons | imperialGallons | cubicFeet
  deriving DecidableEq, Repr

inductive PressureUnit where
  | kilopascals | psi | bar | mmhg
  deriving DecidableEq, Repr

inductive TemperatureUnit where
  | celsius | fahrenheit
  deriving DecidableEq, Repr

inductive EconomyUnit where
  | kilometersPerLiter | milesPerGallon | imperialMilesPerGallon
  deriving DecidableEq, Repr

inductive AltitudeUnit where
  | meters | feet
  deriving DecidableEq, Repr

/-- How coordinates are shown when a column does not say. -/
inductive CoordinateStyle where
  | decimal | degreesMinutes | degreesMinutesSeconds
  deriving DecidableEq, Repr

/-- Miles to a kilometre. -/
def milesPerKilometer : Float := 0.621371192

/-- Nautical miles to a kilometre. -/
def nauticalMilesPerKilometer : Float := 0.539956803

def DistanceUnit.unit : DistanceUnit → MeasureUnit
  | kilometers => ⟨⟨"units.km", "km"⟩, .metric⟩
  | miles => ⟨⟨"units.miles", "Miles"⟩, .factor milesPerKilometer⟩
  | nauticalMiles => ⟨⟨"units.nauticalMiles", "Nm"⟩, .factor nauticalMilesPerKilometer⟩

def SpeedUnit.unit : SpeedUnit → MeasureUnit
  | kilometersPerHour => ⟨⟨"units.kph", "km/h"⟩, .metric⟩
  | milesPerHour => ⟨⟨"units.mph", "mph"⟩, .factor milesPerKilometer⟩
  | knots => ⟨⟨"units.knots", "knots"⟩, .factor nauticalMilesPerKilometer⟩

def VolumeUnit.unit : VolumeUnit → MeasureUnit
  | liters => ⟨⟨"units.liters", "Liters"⟩, .metric⟩
  | usGallons => ⟨⟨"units.gallons", "Gal"⟩, .factor 0.264172052⟩
  | imperialGallons => ⟨⟨"units.imperialGallons", "IG"⟩, .factor 0.219969157⟩
  | cubicFeet => ⟨⟨"units.cubicFeet", "ft^3"⟩, .factor 0.0353146667⟩

def PressureUnit.unit : PressureUnit → MeasureUnit
  | kilopascals => ⟨⟨"units.kpa", "kPa"⟩, .metric⟩
  | psi => ⟨⟨"units.psi", "psi"⟩, .factor 0.145037738⟩
  | bar => ⟨⟨"units.bar", "bar"⟩, .factor 0.01⟩
  | mmhg => ⟨⟨"units.mmhg", "mmHg"⟩, .factor 7.50061683⟩

def TemperatureUnit.unit : TemperatureUnit → MeasureUnit
  | celsius => ⟨⟨"units.celsius", "°C"⟩, .metric⟩
  | fahrenheit => ⟨⟨"units.fahrenheit", "°F"⟩, .fahrenheit⟩

def EconomyUnit.unit : EconomyUnit → MeasureUnit
  | kilometersPerLiter => ⟨⟨"units.kpl", "km/L"⟩, .metric⟩
  | milesPerGallon => ⟨⟨"units.mpg", "mpg"⟩, .factor 2.35214583⟩
  | imperialMilesPerGallon => ⟨⟨"units.mpgImperial", "mpg (Imp)"⟩, .factor 2.82480936⟩

def AltitudeUnit.unit : AltitudeUnit → MeasureUnit
  | meters => ⟨⟨"units.meters", "meters"⟩, .metric⟩
  | feet => ⟨⟨"units.feet", "feet"⟩, .factor 3.2808399⟩

/-! ## The names that units are configured by -/

def DistanceUnit.names : List (String × DistanceUnit) :=
  [("kilometers", kilometers), ("km", kilometers), ("miles", miles), ("mi", miles),
    ("mile", miles), ("nautical_miles", nauticalMiles), ("nm", nauticalMiles),
    ("nautical", nauticalMiles)]

def SpeedUnit.names : List (String × SpeedUnit) :=
  [("kilometers_per_hour", kilometersPerHour), ("kph", kilometersPerHour),
    ("km/h", kilometersPerHour), ("miles_per_hour", milesPerHour), ("mph", milesPerHour),
    ("knots", knots), ("kn", knots), ("knot", knots)]

def VolumeUnit.names : List (String × VolumeUnit) :=
  [("liters", liters), ("l", liters), ("liter", liters), ("us_gallons", usGallons),
    ("gal", usGallons), ("us_gal", usGallons), ("imperial_gallons", imperialGallons),
    ("imp_gal", imperialGallons), ("cubic_feet", cubicFeet), ("ft3", cubicFeet)]

def PressureUnit.names : List (String × PressureUnit) :=
  [("kpa", kilopascals), ("kilopascals", kilopascals), ("psi", psi), ("bar", bar),
    ("mmhg", mmhg), ("mm_hg", mmhg)]

def TemperatureUnit.names : List (String × TemperatureUnit) :=
  [("celsius", celsius), ("c", celsius), ("fahrenheit", fahrenheit), ("f", fahrenheit)]

def EconomyUnit.names : List (String × EconomyUnit) :=
  [("kilometers_per_liter", kilometersPerLiter), ("kpl", kilometersPerLiter),
    ("miles_per_gallon", milesPerGallon), ("mpg", milesPerGallon),
    ("imperial_miles_per_gallon", imperialMilesPerGallon), ("mpg_imp", imperialMilesPerGallon)]

def AltitudeUnit.names : List (String × AltitudeUnit) :=
  [("meters", meters), ("m", meters), ("feet", feet), ("ft", feet)]

def CoordinateStyle.names : List (String × CoordinateStyle) :=
  [("decimal", decimal), ("deg_min", degreesMinutes), ("dm", degreesMinutes),
    ("deg_min_sec", degreesMinutesSeconds), ("dms", degreesMinutesSeconds)]

/-! ## Preferences -/

/-- The quantities that are measured. -/
inductive Quantity where
  | distance | speed | volume | pressure | temperature | economy | altitude
  deriving DecidableEq, Repr

/-- The preferred unit of each quantity, and the preferred style of
    coordinates; metric units and decimal coordinates unless set. -/
structure UnitPreferences where
  distance : DistanceUnit := .kilometers
  speed : SpeedUnit := .kilometersPerHour
  volume : VolumeUnit := .liters
  pressure : PressureUnit := .kilopascals
  temperature : TemperatureUnit := .celsius
  economy : EconomyUnit := .kilometersPerLiter
  altitude : AltitudeUnit := .meters
  coordinates : CoordinateStyle := .decimal
  deriving DecidableEq, Repr

namespace UnitPreferences

/-- The preferred unit of a quantity. -/
def unit (p : UnitPreferences) : Quantity → MeasureUnit
  | .distance => p.distance.unit
  | .speed => p.speed.unit
  | .volume => p.volume.unit
  | .pressure => p.pressure.unit
  | .temperature => p.temperature.unit
  | .economy => p.economy.unit
  | .altitude => p.altitude.unit

/-- Converts a metric value to the preferred unit of its quantity. -/
def convert (p : UnitPreferences) (q : Quantity) (x : Float) : Float :=
  (p.unit q).conversion.apply x

end UnitPreferences

end EventTable
