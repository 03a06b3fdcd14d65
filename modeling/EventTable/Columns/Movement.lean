/-
  EventTable — columns about the movement of a vehicle: its speed, heading and
  distances.

  * a vehicle that does not move has the speed 0 and no heading;
  * a distance is blank unless it is positive.
-/
import EventTable.Columns.Measure
import EventTable.Coordinate
import EventTable.Text.Upper

namespace EventTable.Columns

open Text Number

/-- The speed in the preferred unit. -/
def speedText (ctx : Context) (kph : Float) (argument : String) : String :=
  measureText ctx .speed kph argument "0"

/-- The abbreviation of the compass point nearest to a heading, in upper case. -/
def compassText (ctx : Context) (heading : Float) : String :=
  upper (ctx.labelText (CompassPoint.ofHeading heading).label)

/-- The speed, followed by more; a vehicle that does not move has the speed 0. -/
def speedCell (ctx : Context) (argument : String) (e : Event) (more : String) : Cell :=
  if 0.0 < e.speedKph then
    (Cell.ofText (speedText ctx e.speedKph argument ++ more)).withSortKey (hundredths e.speedKph)
  else (Cell.ofText "0").withSortKey 0.0

def headingCell (ctx : Context) (argument : String) (e : Event) : Cell :=
  let text := if isBlank argument then compassText ctx e.heading
    else ctx.formatNumber e.heading argument "0"
  positiveCell e.speedKph ((Cell.ofText text).withSortKey e.heading)

/-- A distance; blank unless it is positive. -/
def distanceCell (ctx : Context) (argument : String) (km : Float) : Cell :=
  positiveCell km (measureCell ctx .distance km argument "0")

/-- The odometer, or else the distance, and what the device adds to it. -/
def odometerCell (ctx : Context) (argument : String) (e : Event) (d : Option Device) : Cell :=
  let added := (d.map (·.odometerOffsetKm)).getD 0.0
  distanceCell ctx argument
    (if 0.0 < e.odometerKm then e.odometerKm + added else e.distanceKm + added)

/-- Speed, heading and distances. -/
def movementColumns : List (Column Event) :=
  [column "speed" (unitTitle "col.speed" "Speed" "speedUnits") fun _ ctx argument e =>
      speedCell ctx argument e "",
    column "speedLimit" (unitTitle "col.speedLimit" "Speed Limit" "speedUnits")
      fun _ ctx argument e => positiveCell e.speedLimitKph
        (measureCell ctx .speed e.speedLimitKph argument "0"),
    column "speedH" (unitTitle "col.speed" "Speed" "speedUnits") fun _ ctx argument e =>
      speedCell ctx argument e (" " ++ compassText ctx e.heading),
    column "speedU" (fixedTitle "col.speed" "Speed") fun _ ctx argument e =>
      speedCell ctx argument e (ctx.unitText .speed ++ " " ++ compassText ctx e.heading),
    column "heading" (fixedTitle "col.heading" "Heading") fun _ => headingCell,
    column "distance" (unitTitle "col.distance" "Distance" "distanceUnits")
      fun _ ctx argument e => distanceCell ctx argument e.distanceKm,
    deviceColumn "odometer" (unitTitle "col.odometer" "Odometer" "distanceUnits") odometerCell,
    column "reportDistance" (unitTitle "col.reportDistance" "Report\nDistance" "distanceUnits")
      fun _ ctx argument e => distanceCell ctx argument e.reportDistanceKm]

end EventTable.Columns
