/-
  EventTable — values of data formats.

  Settings, report definitions, devices and events come as JSON or TOML texts.
  Both are read into a `Datum`, from which the typed values are taken.

  * fields stand in the order written, also repeated ones: what a repetition
    means is for the typed value to say;
  * `unusable` stands for a well-formed part of a text that has no value, such
    as a number beyond the doubles;
  * `Datum.tidied?` is a free-form value: usable throughout, its fields sorted
    by name and the last of repeated ones kept;
  * `Datum.depth` counts how deep lists and tables are nested.
-/
namespace EventTable

/-- A value of a data format. -/
inductive Datum where
  | null
  | bool (b : Bool)
  | int (n : Int)
  | float (x : Float)
  | text (s : String)
  | list (xs : List Datum)
  | table (fields : List (String × Datum))
  | unusable
  deriving Inhabited

namespace Datum

/-- Puts a field where its name belongs among sorted ones; it replaces a field
    of the same name. -/
def insertField (name : String) (d : Datum) : List (String × Datum) → List (String × Datum)
  | [] => [(name, d)]
  | (n, e) :: r =>
    if name < n then (name, d) :: (n, e) :: r
    else if name = n then (name, d) :: r
    else (n, e) :: insertField name d r

mutual

/-- The value with the fields of all its tables sorted and unique; none if a
    part is unusable. -/
def tidied? : Datum → Option Datum
  | .list xs => (tidiedList? xs).map .list
  | .table fs => (tidiedFields? [] fs).map .table
  | .unusable => none
  | d => some d

def tidiedList? : List Datum → Option (List Datum)
  | [] => some []
  | d :: r => do
    let d ← tidied? d
    let r ← tidiedList? r
    return d :: r

/-- Adds the fields to sorted ones, in order. -/
def tidiedFields? (sorted : List (String × Datum)) :
    List (String × Datum) → Option (List (String × Datum))
  | [] => some sorted
  | (n, d) :: r => do
    let d ← tidied? d
    tidiedFields? (insertField n d sorted) r

end

mutual

/-- How deep lists and tables are nested. -/
def depth : Datum → Nat
  | .list xs => depthList xs + 1
  | .table fs => depthFields fs + 1
  | _ => 0

def depthList : List Datum → Nat
  | [] => 0
  | d :: r => max (depth d) (depthList r)

def depthFields : List (String × Datum) → Nat
  | [] => 0
  | (_, d) :: r => max (depth d) (depthFields r)

end

end Datum

end EventTable
