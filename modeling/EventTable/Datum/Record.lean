/-
  EventTable — typed values taken from data.

  A typed value is read from a table, by the names of its fields, or from a
  list, by their order.  Fields of other names are ignored, a missing field
  has its default, and a field written twice is refused.

  * `Strictness` says what a format lets pass: texts given as numbers or truth
    values, lists with too many elements, and what may stand beside the name
    of a choice;
  * `record?` picks out the known fields, `Record.get?` reads one that may be
    missing and `Record.require?` one that may not;
  * `text?`, `int?`, `float?`, `option?`, `list?`, `textTable?`, `choice?`
    read the values of fields.
-/
import EventTable.Datum.Json
import EventTable.Dictionary
import EventTable.Number.Exact

namespace EventTable.Datum

open Text Number

/-- What a format lets pass. -/
structure Strictness where
  /-- Numbers and truth values are read as texts. -/
  scalarsAsText : Bool
  /-- A list may have more elements than there are fields. -/
  surplusElements : Bool
  /-- A choice may be a table with its name and this beside it. -/
  choiceValue : Datum → Bool

/-- Whether a table or a list without anything in it. -/
def isEmpty : Datum → Bool
  | .table fs => fs.isEmpty
  | .list xs => xs.isEmpty
  | _ => false

/-- Whether `null`. -/
def isNull : Datum → Bool
  | .null => true
  | _ => false

namespace Strictness

/-- JSON: nothing passes, and `null` stands beside the name of a choice. -/
def json : Strictness := ⟨false, false, isNull⟩

/-- TOML: lists may be too long, and something empty stands beside the name of
    a choice. -/
def toml : Strictness := ⟨false, true, isEmpty⟩

/-- Settings in layers, where environment variables are all texts: numbers are
    read as texts too. -/
def layered : Strictness := ⟨true, true, fun _ => true⟩

end Strictness

/-! ## Fields -/

/-- The fields of a typed value that were given. -/
abbrev Record := List (String × Datum)

/-- The given ones among the fields with these names. -/
def record? (s : Strictness) (names : List String) : Datum → Option Record
  | .table fs =>
    let known := fs.filter fun f => names.contains f.1
    if Dictionary.hasRepeats known then none else some known
  | .list xs =>
    if s.surplusElements || xs.length ≤ names.length then some (names.zip xs) else none
  | _ => none

variable {α : Type}

/-- A field, or its default if it was not given. -/
def Record.get? (r : Record) (name : String) (read : Datum → Option α) (default : α) : Option α :=
  match r.lookup name with
  | some d => read d
  | none => some default

/-- A field that must be given. -/
def Record.require? (r : Record) (name : String) (read : Datum → Option α) : Option α :=
  (r.lookup name).bind read

/-! ## Values -/

/-- A float in plain positional notation. -/
def plainFloat (x : Float) : List Char :=
  match Exact.ofFloat? x with
  | none => (if x.isNaN then "NaN" else if x < 0.0 then "-inf" else "inf").toList
  | some v =>
    (if v.negative then ['-'] else []) ++
      if v.mantissa = 0 then ['0'] else positional 0 (shortest v)

/-- A text. -/
def text? (s : Strictness) : Datum → Option String
  | .text t => some t
  | .bool b => if s.scalarsAsText then some (if b then "true" else "false") else none
  | .int n => if s.scalarsAsText then some (String.ofList (signed n)) else none
  | .float x => if s.scalarsAsText then some (String.ofList (plainFloat x)) else none
  | _ => none

/-- An integer within bounds. -/
def int? (lo hi : Int) : Datum → Option Int
  | .int n => if lo ≤ n ∧ n ≤ hi then some n else none
  | _ => none

/-- A signed 64-bit integer. -/
def int64? : Datum → Option Int := int? minInt64 maxInt64

/-- A double; an integer counts as the nearest one. -/
def float? : Datum → Option Float
  | .float x => some x
  | .int n => some (Float.ofInt n)
  | _ => none

/-- A value that may be `null`. -/
def option? (read : Datum → Option α) : Datum → Option (Option α)
  | .null => some none
  | d => (read d).map some

/-- A list of values. -/
def list? (read : Datum → Option α) : Datum → Option (List α)
  | .list xs => xs.mapM read
  | _ => none

/-- A table of values with free names; of repeated names the last one counts. -/
def dictionary? (read : Datum → Option α) : Datum → Option (List (String × α))
  | .table fs => (fs.mapM fun f => (read f.2).map (f.1, ·)).map Dictionary.ofPairs
  | _ => none

/-- One of some named choices: its name, or a table with the name as its only
    field. -/
def choice? (s : Strictness) (names : List (String × α)) : Datum → Option α
  | .text t => names.lookup t
  | .table [(n, d)] => if s.choiceValue d then names.lookup n else none
  | _ => none

end EventTable.Datum
