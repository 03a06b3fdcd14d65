/-
  EventTable — paths to settings.

  A path leads from a table through fields and elements: `strings.report.title`
  or `units[0]`.

  * `SettingPath.ofText` reads a path; a text that is none is the name of a
    single field;
  * `putAt` puts a value where a path leads, making the tables and lists on the
    way.
-/
import EventTable.Datum.TomlReader

namespace EventTable

open Text Datum Number

/-- A step of a path. -/
inductive PathStep where
  /-- Into the field of a table. -/
  | field (name : String)
  /-- To the element at a position of a list; negative positions count from its
      end. -/
  | element (position : Int)
  deriving DecidableEq, Repr

/-- The steps to a setting. -/
abbrev SettingPath := List PathStep

namespace SettingPath

/-- The position between brackets, from what follows the opening one. -/
def readPosition? (cs : List Char) : Option (Int × List Char) :=
  let (negative, r) := match skipTomlBlanks cs with
    | '-' :: r => (true, r)
    | r => (false, r)
  let ds := r.takeWhile Char.isDigit
  let n : Int := if negative then -(natOfDigits ds : Int) else natOfDigits ds
  match skipTomlBlanks (r.dropWhile Char.isDigit) with
  | ']' :: r => if !ds.isEmpty ∧ minInt64 ≤ n ∧ n ≤ maxInt64 then some (n, r) else none
  | _ => none

/-- The steps after the first one. -/
def readSteps? : (fuel : Nat) → List Char → Option SettingPath
  | 0, _ => none
  | _ + 1, [] => some []
  | fuel + 1, '.' :: r => do
    let (name, r) ← readBareKey? r
    return .field name :: (← readSteps? fuel r)
  | fuel + 1, '[' :: r => do
    let (position, r) ← readPosition? r
    return .element position :: (← readSteps? fuel r)
  | _, _ => none

/-- The path that a text describes: a name, then `.name` and `[position]`. -/
def read? (text : String) : Option SettingPath := do
  let (name, r) ← readBareKey? text.toList
  return .field name :: (← readSteps? (r.length + 1) r)

/-- The path of a text; a text that describes none is a single name. -/
def ofText (text : String) : SettingPath := (read? text).getD [.field text]

end SettingPath

namespace Datum

/-- The fields of a table; anything else has none. -/
def fields : Datum → List (String × Datum)
  | .table fs => fs
  | _ => []

/-- The elements of a list; anything else has none. -/
def elements : Datum → List Datum
  | .list ds => ds
  | _ => []

mutual

/-- A value put over another one: a table is merged into the one below, anything
    else replaces what is there. -/
def layOver : (d : Datum) → (below : Datum) → Datum
  | .table fs, below => .table (layFieldsOver fs below.fields)
  | d, _ => d

/-- Fields put over others, one after the other. -/
def layFieldsOver : (fs : List (String × Datum)) → (below : List (String × Datum)) →
    List (String × Datum)
  | [], below => below
  | (name, d) :: r, below =>
    layFieldsOver r (Dictionary.put name (layOver d ((below.lookup name).getD .null)) below)

end

/-- Changes the element at a position.  A list that is too short grows by
    `null`: at its end, or in front if the position counts from the end. -/
def changeElement (position : Int) (change : Datum → Datum) (ds : List Datum) : List Datum :=
  if 0 ≤ position then
    let i := position.toNat
    (ds ++ List.replicate (i + 1 - ds.length) Datum.null).modify i change
  else
    let back := position.natAbs
    (List.replicate (back - ds.length) Datum.null ++ ds).modify (ds.length - back) change

/-- Puts a value where a path leads; what stands in the way of a step makes
    place for it. -/
def putAt (d : Datum) : (path : SettingPath) → (target : Datum) → Datum
  | [], target => d.layOver target
  | .field name :: path, target =>
    let old := (target.fields.lookup name).getD .null
    .table (Dictionary.put name (putAt d path old) target.fields)
  | .element position :: path, target =>
    .list (changeElement position (putAt d path) target.elements)

end Datum

end EventTable
