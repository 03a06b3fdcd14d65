/-
  EventTable — what the columns over events have in common: titles, measured
  values and links.

  * `fixedTitle`, `unitTitle` and `linedTitle` make titles of the string table;
  * `measureText` converts a metric value to the preferred unit, `measureCell`
    also sorts it, by hundredths of the metric unit (`hundredths`);
  * `temperatureCell`, `percentCell` and `positiveCell` are cells that are
    blank for values that count as not reported;
  * `linkUrl` adds encoded parameters to a link.
-/
import EventTable.Catalog
import EventTable.Text.Percent

namespace EventTable.Columns

open Text Number

/-- A column whose values never fail. -/
def column (key : String) (title : Context → String → String)
    (value : (row : Nat) → Context → (argument : String) → Event → Cell) : Column Event where
  key
  title
  value row ctx argument e := .ok (value row ctx argument e)

/-- The device of an event, if it is known. -/
def deviceOf (ctx : Context) (e : Event) : Except ResolveError (Option Device) :=
  (ctx.device? e.accountId e.deviceId).mapError .directory

/-- A column whose values are made with the device of the event, and fail with
    its look-up. -/
def deviceColumn (key : String) (title : Context → String → String)
    (value : Context → (argument : String) → Event → Option Device → Cell) : Column Event where
  key
  title
  value _ ctx argument e := (deviceOf ctx e).map (value ctx argument e)

/-! ## Titles -/

/-- A text of the string table. -/
def fixedTitle (key default : String) : Context → String → String :=
  fun ctx _ => ctx.text key default

/-- A text of the string table, and a second line. -/
def linedTitle (key default line : String) : Context → String → String :=
  fun ctx _ => ctx.text key default ++ "\n" ++ line

/-- A text of the string table, and a placeholder on a second line. -/
def unitTitle (key default name : String) : Context → String → String :=
  linedTitle key default (String.ofList (placeholder name.toList))

/-! ## Measured values -/

/-- A value in hundredths, cut off: what measurements are sorted by. -/
def hundredths (x : Float) : Float := truncate (x * 100.0)

/-- A metric value in the preferred unit. -/
def measureText (ctx : Context) (q : Quantity) (x : Float) (argument default : String) : String :=
  ctx.formatNumber (ctx.units.convert q x) argument default

/-- A metric value in the preferred unit, sorted by the metric value. -/
def measureCell (ctx : Context) (q : Quantity) (x : Float) (argument default : String) : Cell :=
  (Cell.ofText (measureText ctx q x argument default)).withSortKey (hundredths x)

/-- A number without a unit, sorted by its value. -/
def numberCell (ctx : Context) (x : Float) (argument default : String) : Cell :=
  (Cell.ofText (ctx.formatNumber x argument default)).withSortKey (hundredths x)

/-- The cell if the value is positive, and a blank one if not. -/
def positiveCell (x : Float) (cell : Cell) : Cell := if 0.0 < x then cell else .blank

/-- A temperature with its unit. -/
def temperatureText (ctx : Context) (celsius : Float) (argument : String) : String :=
  measureText ctx .temperature celsius argument "0.0" ++ ctx.unitText .temperature

/-- A temperature with its unit, and a blank cell for a missing or noisy
    reading. -/
def temperatureCell (ctx : Context) (celsius : Option Float) (argument : String) : Cell :=
  match celsius.filter isValidTemperature with
  | some c => (Cell.ofText (temperatureText ctx c argument)).withSortKey (hundredths c)
  | none => .blank

/-- A positive level in percent: up to 1 it is a fraction, above a percentage. -/
def percentage (level : Float) : Float := if level ≤ 1.0 then level * 100.0 else level

/-- A level in whole percent. -/
def percentText (level : Float) : String :=
  String.ofList (signed (roundToInt64 (percentage level)) ++ ['%'])

/-- A level in whole percent, sorted by it. -/
def percentCell (level : Float) : Cell :=
  positiveCell level
    ((Cell.ofText (percentText level)).withSortKey (roundHalfAway (percentage level)))

/-- An integer as a text. -/
def intText (n : Int) : String := String.ofList (signed n)

/-! ## Links -/

/-- A link with encoded parameters: a question mark before the first one,
    unless the link has one already, and ampersands before the others. -/
def linkUrl (base : String) (parameters : List (String × String)) : String :=
  let written := parameters.map fun p => percentEncode p.1 ++ "=" ++ percentEncode p.2
  let first := if base.toList.contains '?' then "&" else "?"
  match written with
  | [] => base
  | p :: ps => base ++ first ++ p ++ String.join (ps.map ("&" ++ ·))

end EventTable.Columns
