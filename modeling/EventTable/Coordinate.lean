/-
  EventTable — coordinates and compass points.

  * `CoordinateFormat.ofArgument` is the format that a column argument asks
    for: one of the words `dms` and `dm`, or an argument for numbers; a blank
    argument leaves it to the preferred style;
  * `formatLatitude`, `formatLongitude` and `formatPoint` show coordinates; in
    degrees and minutes, the total in the smallest unit shown is rounded first
    (`roundedTotal`) and then split, so that minutes and seconds stay below 60;
  * `isValidPoint` leaves out points off the globe and the origin;
  * `CompassPoint.ofHeading` is the nearest of the eight compass points.
-/
import EventTable.Number.Render
import EventTable.Quantity

namespace EventTable

open Text Number

/-- How a coordinate is shown. -/
inductive CoordinateFormat where
  /-- Signed decimal degrees; the text is an argument for numbers. -/
  | decimal (argument : String)
  | degreesMinutes
  | degreesMinutesSeconds
  deriving DecidableEq, Repr

/-- The format that the preferred style asks for. -/
def CoordinateFormat.ofStyle : CoordinateStyle → CoordinateFormat
  | .decimal => .decimal "4"
  | .degreesMinutes => .degreesMinutes
  | .degreesMinutesSeconds => .degreesMinutesSeconds

/-- The format that an argument asks for. -/
def CoordinateFormat.ofArgument (argument : String) (style : CoordinateStyle) :
    CoordinateFormat :=
  let cs := trimChars argument.toList
  if lowerAscii cs = "dms".toList then .degreesMinutesSeconds
  else if lowerAscii cs = "dm".toList then .degreesMinutes
  else if cs.isEmpty then .ofStyle style
  else .decimal (String.ofList cs)

/-- Holds of a point on the globe, the surroundings of the origin excepted. -/
def isValidPoint (latitude longitude : Float) : Bool :=
  latitude.isFinite && longitude.isFinite &&
    (-90.0 ≤ latitude && latitude ≤ 90.0) && (-180.0 ≤ longitude && longitude ≤ 180.0) &&
    !(latitude.abs < 0.0001 && longitude.abs < 0.0001)

/-- The letters of the two hemispheres: for values from zero on, and below. -/
structure Hemispheres where
  positive : Char
  negative : Char

def Hemispheres.latitude : Hemispheres := ⟨'N', 'S'⟩

def Hemispheres.longitude : Hemispheres := ⟨'E', 'W'⟩

/-- The magnitude of a coordinate; zero if it is not finite. -/
def coordinateMagnitude (x : Float) : Float := if x.isFinite then x.abs else 0.0

/-- The magnitude of a coordinate in `perDegree`ths of a degree, rounded. -/
def roundedTotal (perDegree : Float) (x : Float) : Nat :=
  (roundToInt64 (coordinateMagnitude x * perDegree)).toNat

/-- A total in seconds as degrees, minutes and seconds. -/
def writeSeconds (total : Nat) : List Char :=
  digits (total / 3600) ++ '°' :: padded 2 (total % 3600 / 60) ++ '\'' ::
    padded 2 (total % 60) ++ ['"']

/-- A total in hundredths of minutes as degrees, minutes and hundredths. -/
def writeMinutes (decimal : Char) (total : Nat) : List Char :=
  digits (total / 6000) ++ '°' :: padded 2 (total % 6000 / 100) ++ decimal ::
    padded 2 (total % 6000 % 100) ++ ['\'']

/-- A coordinate, in a format and with the letters of its hemispheres. -/
def formatCoordinate (h : Hemispheres) (x : Float) (f : CoordinateFormat) (symbols : Symbols) :
    String :=
  let letter := if x < 0.0 then h.negative else h.positive
  match f with
  | .decimal argument => formatNumberWith x argument "0.0000" symbols
  | .degreesMinutesSeconds => String.ofList (writeSeconds (roundedTotal 3600.0 x) ++ [letter])
  | .degreesMinutes =>
    String.ofList (writeMinutes symbols.decimal (roundedTotal 6000.0 x) ++ [letter])

def formatLatitude : Float → CoordinateFormat → Symbols → String :=
  formatCoordinate .latitude

def formatLongitude : Float → CoordinateFormat → Symbols → String :=
  formatCoordinate .longitude

/-- Stands between the coordinates of a point. -/
def pointSeparator : String := "/"

/-- Latitude and longitude. -/
def formatPoint (latitude longitude : Float) (f : CoordinateFormat) (symbols : Symbols) :
    String :=
  formatLatitude latitude f symbols ++ pointSeparator ++ formatLongitude longitude f symbols

/-! ## Compass points -/

/-- The eight directions of the compass. -/
inductive CompassPoint where
  | n | ne | e | se | s | sw | w | nw
  deriving DecidableEq, Repr

namespace CompassPoint

/-- Clockwise, from north. -/
def all : List CompassPoint := [n, ne, e, se, s, sw, w, nw]

/-- A heading in degrees, brought to the circle from 0 to 360; a heading that
    is not finite counts as 0. -/
def normalizeHeading (degrees : Float) : Float :=
  if degrees.isFinite then
    let r := remainder360 degrees
    if r < 0.0 then r + 360.0 else r
  else 0.0

/-- The direction nearest to a heading in degrees. -/
def ofHeading (degrees : Float) : CompassPoint :=
  all.getD (floorNat ((normalizeHeading degrees + 22.5) / 45.0) % 8) n

/-- The abbreviation of the direction. -/
def label : CompassPoint → Label
  | n => ⟨"compass.n", "N"⟩
  | ne => ⟨"compass.ne", "NE"⟩
  | e => ⟨"compass.e", "E"⟩
  | se => ⟨"compass.se", "SE"⟩
  | s => ⟨"compass.s", "S"⟩
  | sw => ⟨"compass.sw", "SW"⟩
  | w => ⟨"compass.w", "W"⟩
  | nw => ⟨"compass.nw", "NW"⟩

end CompassPoint

end EventTable
