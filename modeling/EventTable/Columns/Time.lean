/-
  EventTable — columns about times: of the event, of its storage, and of the
  last check-in of its device.

  * times up to the epoch count as not set, and their cells are blank;
  * all these cells are sorted by the number they stand for;
  * `checkinTime` is the last connection of the device, or else its newest
    event.
-/
import EventTable.Columns.Vehicle
import EventTable.Elapsed

namespace EventTable.Columns

open Text Number

/-- A text that stands for a time; blank for a time that is not set, and if
    there is no text. -/
def timeCell (time : Int) (text : Option String) : Cell :=
  match text with
  | some text =>
    if 0 < time then (Cell.ofText text).withSortKey (Float.ofInt time) else .blank
  | none => .blank

/-- When the event was stored, coloured by how long that took. -/
def createDateTimeCell (ctx : Context) (e : Event) : Cell :=
  let cell := timeCell e.creationTime (ctx.formatDateTime? e.creationTime)
  if cell.isBlank then cell else cell.withAgeBand (bandForAge? e.creationAge ctx.creationAgeBands)

/-- How long it took until the event was stored. -/
def createAgeCell (ctx : Context) (argument : String) (e : Event) : Cell :=
  if e.creationTime ≤ 0 then .blank
  else
    let format := ElapsedFormat.ofArgument argument .hoursMinutesSeconds
    ((Cell.ofText (format.write e.creationAge)).withSortKey
      (Float.ofInt e.creationAge)).withAgeBand (bandForAge? e.creationAge ctx.creationAgeBands)

/-- When the event was stored, in milliseconds, or one part of that. -/
def createMillisCell (argument : String) (e : Event) : Cell :=
  let millis := e.creationMillis
  let shown :=
    if isOneOf argument ["frac", "fraction"] then millis.tmod 1000
    else if isOneOf argument ["sec", "seconds"] then millis.tdiv 1000
    else millis
  (Cell.ofText (intText shown)).withSortKey (Float.ofInt shown)

/-- The last check-in of the device, if it is known. -/
def checkinTime (ctx : Context) (e : Event) : Except ResolveError (Option Int) := do
  let time ← match (← deviceOf ctx e).filter (·.hasConnectTime) with
    | some d => pure d.lastConnectTime
    | none =>
      let last ← (ctx.lastEvent? e.accountId e.deviceId).mapError ResolveError.directory
      pure (last.getD 0)
  return if Device.earliestConnectTime < time then some time else none

/-- When the device checked in, coloured by how long ago that was. -/
def checkinDateTimeCell (ctx : Context) (time : Int) : Cell :=
  (timeCell time (ctx.formatDateTime? time)).withAgeBand
    (bandForAge? (ctx.ageOf time) ctx.checkinAgeBands)

/-- Seconds as days, hours and minutes. -/
def daysHoursMinutes (n : Nat) : String :=
  String.ofList <| digits (n / 86400) ++ 'd' :: ' ' :: padded 2 (n % 86400 / 3600) ++
    'h' :: ' ' :: padded 2 (n % 3600 / 60) ++ ['m']

/-- How long ago the device checked in; a check-in to come counts as now. -/
def checkinAgeCell (ctx : Context) (time : Int) : Cell :=
  let age := max (ctx.ageOf time) 0
  ((Cell.ofText (daysHoursMinutes age.toNat)).withSortKey (Float.ofInt age)).withAgeBand
    (bandForAge? age ctx.checkinAgeBands)

/-- A column about the last check-in; blank if there is none. -/
def checkinColumn (key : String) (title : Context → String → String)
    (value : Context → Int → Cell) : Column Event where
  key
  title
  value _ ctx _ e := (checkinTime ctx e).map fun time => (time.map (value ctx)).getD .blank

/-- Times of the event, of its storage, and of the last check-in. -/
def timeColumns : List (Column Event) :=
  [column "date" (fixedTitle "col.date" "Date") fun _ ctx _ e =>
      timeCell e.timestamp (ctx.formatDate? e.timestamp),
    column "time" (fixedTitle "col.time" "Time") fun _ ctx _ e =>
      timeCell e.timestamp (ctx.formatTime? e.timestamp),
    column "dateTime" (unitTitle "col.dateTime" "Date/Time" "timezone") fun _ ctx _ e =>
      timeCell e.timestamp (ctx.formatDateTime? e.timestamp),
    column "timestamp" (linedTitle "col.timestamp" "Timestamp" "(Epoch)") fun _ _ _ e =>
      timeCell e.timestamp (some (intText e.timestamp)),
    column "createDateTime" (unitTitle "col.createDateTime" "Insert\nDate/Time" "timezone")
      fun _ ctx _ e => createDateTimeCell ctx e,
    column "createAge" (fixedTitle "col.createAge" "Creation Age") fun _ => createAgeCell,
    column "createMillis" (fixedTitle "col.createMillis" "Creation\nMillisecond")
      fun _ _ => createMillisCell,
    checkinColumn "checkinDateTime" (fixedTitle "col.checkinDateTime" "Last Check-In\nTime")
      checkinDateTimeCell,
    checkinColumn "checkinAge" (fixedTitle "col.checkinAge" "Since Last\nCheck-In")
      checkinAgeCell]

end EventTable.Columns
