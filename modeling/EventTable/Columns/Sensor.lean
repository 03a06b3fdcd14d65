/-
  EventTable — columns about what the sensors of a vehicle measure: fuel,
  engine, tires, battery and temperatures.

  * a value that is not positive counts as not reported, and its cell is
    blank; a negative fuel level says that its sensor is not available;
  * several readings are joined by a separator that holds no decimal sign;
  * the barometer is always shown in mmHg.
-/
import EventTable.Columns.Measure

namespace EventTable.Columns

open Text Number

/-! ## Fuel -/

/-- A level as a fraction; above 1 it is a percentage. -/
def fraction (level : Float) : Float := if level ≤ 1.0 then level else level / 100.0

/-- The marker of a sensor that is not available. -/
def notAvailable (ctx : Context) : Cell := .ofText (ctx.text "report.notAvailable" "n/a")

def fuelLevelCell (ctx : Context) (e : Event) : Cell :=
  if e.fuelLevel < 0.0 then notAvailable ctx
  else positiveCell e.fuelLevel
    ((Cell.ofText (percentText e.fuelLevel)).withSortKey (hundredths (fraction e.fuelLevel)))

/-- A volume; blank unless it is positive. -/
def volumeCell (ctx : Context) (argument : String) (liters : Float) : Cell :=
  positiveCell liters (measureCell ctx .volume liters argument "0.0")

/-- The volume that a fuel level means for the tank of the device; the device
    is looked up only if there is a level. -/
def fuelLevelVolume (ctx : Context) (argument : String) (e : Event) : Except ResolveError Cell :=
  if 0.0 < e.fuelLevel then
    (deviceOf ctx e).map fun d =>
      volumeCell ctx argument
        (fraction e.fuelLevel * (d.map (·.fuelCapacityLiters)).getD 0.0)
  else .ok .blank

/-- The pressure of the fuel, which may be negative. -/
def fuelPressureCell (ctx : Context) (argument : String) (e : Event) : Cell :=
  if e.fuelPressureKpa == 0.0 || !e.fuelPressureKpa.isFinite then .blank
  else measureCell ctx .pressure e.fuelPressureKpa argument "0.0"

/-! ## Engine, tires and battery -/

def engineRpmCell (e : Event) : Cell :=
  if e.engineRpm < 0 then .blank
  else (Cell.ofText (intText e.engineRpm)).withSortKey (Float.ofInt e.engineRpm)

/-- Hours of operation; blank unless they are positive. -/
def hoursCell (ctx : Context) (argument : String) (hours : Float) : Cell :=
  positiveCell hours (numberCell ctx hours argument "0.0")

/-- Stands between readings. -/
def readingSeparator (ctx : Context) : String := if ctx.symbols.decimal = ',' then "; " else ","

/-- Several readings; blank if there is none. -/
def readingsCell (ctx : Context) (text : Float → String) (readings : List Float) : Cell :=
  if readings.isEmpty then .blank
  else .ofText ((readingSeparator ctx).intercalate (readings.map text))

/-- A tire's temperature, or the mark of a noisy reading. -/
def tireTempText (ctx : Context) (argument : String) (celsius : Float) : String :=
  if isValidTemperature celsius then temperatureText ctx celsius argument else "?"

def voltsCell (ctx : Context) (argument : String) (volts : Float) : Cell :=
  (Cell.ofText (ctx.formatNumber volts argument "0.0" ++ "v")).withSortKey (hundredths volts)

/-- The level of the battery, or its volts, which some devices report as a
    level above 1. -/
def batteryCell (ctx : Context) (argument : String) (e : Event) : Cell :=
  if 0.0 < e.batteryLevel && e.batteryLevel ≤ 1.0 then percentCell e.batteryLevel
  else if 1.0 < e.batteryLevel then voltsCell ctx argument e.batteryLevel
  else positiveCell e.batteryVolts (voltsCell ctx argument e.batteryVolts)

/-! ## The air -/

/-- The pressure of the air, always in mmHg. -/
def barometerCell (ctx : Context) (argument : String) (e : Event) : Cell :=
  let mmhg := PressureUnit.mmhg.unit.conversion.apply e.barometerKpa
  positiveCell e.barometerKpa ((Cell.ofText (ctx.formatNumber mmhg argument "0.00")).withSortKey
    (hundredths e.barometerKpa))

/-- The column of a temperature sensor, counted from one. -/
def thermoColumn (number : Nat) : Column Event :=
  column (String.ofList ("thermo".toList ++ digits number))
    (linedTitle "col.thermo" "Temp" (String.ofList ('#' :: digits number)))
    fun _ ctx argument e => temperatureCell ctx (e.thermo? (number - 1)) argument

/-! ## The columns -/

def fuelColumns : List (Column Event) :=
  [column "fuelLevel" (fixedTitle "col.fuelLevel" "Fuel%") fun _ ctx _ => fuelLevelCell ctx,
    { key := "fuelLevelVolume"
      title := unitTitle "col.fuelLevelVolume" "Fuel Volume" "volumeUnits"
      value := fun _ => fuelLevelVolume },
    column "fuelTotal" (unitTitle "col.fuelTotal" "Total Fuel" "volumeUnits")
      fun _ ctx argument e => volumeCell ctx argument e.fuelTotalLiters,
    column "fuelRemain" (unitTitle "col.fuelRemain" "Remaining\nFuel" "volumeUnits")
      fun _ ctx argument e => volumeCell ctx argument e.fuelRemainLiters,
    column "fuelEconomy" (unitTitle "col.fuelEconomy" "Fuel Econ" "economyUnits")
      fun _ ctx argument e => positiveCell e.fuelEconomyKpl
        (measureCell ctx .economy e.fuelEconomyKpl argument "0.0"),
    column "fuelPressure" (unitTitle "col.fuelPressure" "Fuel Press." "pressureUnits")
      fun _ => fuelPressureCell]

def engineColumns : List (Column Event) :=
  [column "engineRpm" (fixedTitle "col.engineRpm" "Engine\nRPM") fun _ _ _ => engineRpmCell,
    deviceColumn "engineHours" (fixedTitle "col.engineHours" "Engine\nHours")
      fun ctx argument e d =>
        hoursCell ctx argument (e.engineHours + (d.map (·.engineHoursOffset)).getD 0.0),
    column "idleHours" (fixedTitle "col.idleHours" "Idle\nHours") fun _ ctx argument e =>
      hoursCell ctx argument e.idleHours,
    column "coolantTemp" (unitTitle "col.coolantTemp" "Coolant\nTemp" "temperatureUnits")
      fun _ ctx argument e => temperatureCell ctx e.coolantTempC argument,
    column "oilPressure" (unitTitle "col.oilPressure" "Oil\nPressure" "pressureUnits")
      fun _ ctx argument e => positiveCell e.oilPressureKpa
        (measureCell ctx .pressure e.oilPressureKpa argument "0.0"),
    column "tirePressure" (unitTitle "col.tirePressure" "Tire\nPressure" "pressureUnits")
      fun _ ctx argument e =>
        readingsCell ctx (measureText ctx .pressure · argument "0") e.tirePressuresKpa,
    column "tireTemp" (unitTitle "col.tireTemp" "Tire\nTemp" "temperatureUnits")
      fun _ ctx argument e => readingsCell ctx (tireTempText ctx argument) e.tireTempsC,
    column "battery" (fixedTitle "col.battery" "Battery") fun _ => batteryCell,
    column "batteryVolts" (fixedTitle "col.batteryVolts" "Battery\nVolts")
      fun _ ctx argument e => positiveCell e.batteryVolts
        (numberCell ctx e.batteryVolts argument "0.0"),
    column "batteryPercent" (fixedTitle "col.batteryPercent" "Battery %")
      fun _ _ _ e => percentCell e.batteryLevel]

/-- The number of temperature sensors that have columns. -/
def thermoCount : Nat := 8

def airColumns : List (Column Event) :=
  [column "ambientTemp" (unitTitle "col.ambientTemp" "Ambient\nTemp" "temperatureUnits")
      fun _ ctx argument e => temperatureCell ctx e.ambientTempC argument,
    column "batteryTemp" (unitTitle "col.batteryTemp" "Battery\nTemp" "temperatureUnits")
      fun _ ctx argument e => temperatureCell ctx e.batteryTempC argument,
    column "barometer" (fixedTitle "col.barometer" "Barometer\nmmHg") fun _ => barometerCell] ++
  (List.range thermoCount).map fun sensor => thermoColumn (sensor + 1)

/-- Fuel, engine, tires, battery and temperatures. -/
def sensorColumns : List (Column Event) := fuelColumns ++ engineColumns ++ airColumns

end EventTable.Columns
