/-
  EventTable — columns about the place of an event: its position, how good
  that is, and its address.

  * coordinates are blank off the globe and at the origin;
  * coordinates and the age of the position are coloured by that age.
-/
import EventTable.Columns.Measure
import EventTable.Coordinate
import EventTable.Elapsed

namespace EventTable.Columns

open Text Number

/-- A cell coloured by the age of the position. -/
def positionColored (ctx : Context) (e : Event) (cell : Cell) : Cell :=
  cell.withAgeBand (bandForAge? e.gpsAge ctx.gpsAgeBands)

/-- A cell of coordinates; blank if the event has no position. -/
def positionCell (ctx : Context) (argument : String) (e : Event)
    (cell : CoordinateFormat → Cell) : Cell :=
  if isValidPoint e.latitude e.longitude then
    positionColored ctx e (cell (.ofArgument argument ctx.units.coordinates))
  else .blank

def latitudeCell (ctx : Context) (argument : String) (e : Event) : Cell :=
  positionCell ctx argument e fun f =>
    (Cell.ofText (formatLatitude e.latitude f ctx.symbols)).withSortKey e.latitude

def longitudeCell (ctx : Context) (argument : String) (e : Event) : Cell :=
  positionCell ctx argument e fun f =>
    (Cell.ofText (formatLongitude e.longitude f ctx.symbols)).withSortKey e.longitude

def geoPointCell (ctx : Context) (argument : String) (e : Event) : Cell :=
  positionCell ctx argument e fun f =>
    Cell.ofText (formatPoint e.latitude e.longitude f ctx.symbols)

/-- The age of the position, in seconds unless the argument asks for a format. -/
def gpsAgeCell (ctx : Context) (argument : String) (e : Event) : Cell :=
  let text := if isBlank argument then intText e.gpsAge
    else (ElapsedFormat.ofArgument argument .seconds).write e.gpsAge
  positionColored ctx e ((Cell.ofText text).withSortKey (Float.ofInt e.gpsAge))

def satellitesCell (e : Event) : Cell :=
  if 0 < e.satelliteCount then
    (Cell.ofText (intText e.satelliteCount)).withSortKey (Float.ofInt e.satelliteCount)
  else .blank

/-- Position and address. -/
def placeColumns : List (Column Event) :=
  [column "latitude" (fixedTitle "col.latitude" "Lat") fun _ => latitudeCell,
    column "longitude" (fixedTitle "col.longitude" "Lon") fun _ => longitudeCell,
    column "geoPoint" (fixedTitle "col.geoPoint" "Lat/Lon") fun _ => geoPointCell,
    column "gpsAge" (fixedTitle "col.gpsAge" "GPS\nAge") fun _ => gpsAgeCell,
    column "altitude" (unitTitle "col.altitude" "Altitude" "altitudeUnits")
      fun _ ctx argument e => measureCell ctx .altitude e.altitudeMeters argument "0",
    column "accuracy" (unitTitle "col.accuracy" "Accuracy" "accuracyUnits")
      fun _ ctx argument e => positiveCell e.accuracyMeters
        (measureCell ctx .altitude e.accuracyMeters argument "0"),
    column "satellites" (fixedTitle "col.satellites" "Sat\nCount") fun _ _ _ => satellitesCell,
    column "address" (fixedTitle "col.address" "Address") fun _ _ _ e => .ofText e.address,
    column "city" (fixedTitle "col.city" "City") fun _ _ _ e => .ofText e.city]

end EventTable.Columns
