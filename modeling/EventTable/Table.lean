/-
  EventTable — tables, and sorting them by a column.

  * a table has a title for each column and a list of cells for each row, and
    a row may be shorter than the titles;
  * `SortValue.ofCell` is what a cell is sorted by: its sort key, else its
    text, and nothing (`null`) for a blank or missing cell;
  * `SortSpec.compare` orders two of them: numbers before texts, or the exact
    reverse if descending, and nulls at the chosen end in both directions;
  * `Table.sortByColumn` sorts the rows; rows that compare equal keep their
    order, and a column out of range changes nothing.
-/
import EventTable.Cell

namespace EventTable

open Number

/-- Titles, and rows of cells. -/
structure Table where
  titles : List String
  rows : List (List Cell)
  deriving DecidableEq, Repr

/-- The end at which cells with nothing to sort by are placed. -/
inductive NullsPlacement where
  | first | last
  deriving DecidableEq, Repr

/-- The direction of a sort, and where it places nulls. -/
structure SortSpec where
  descending : Bool := false
  nulls : NullsPlacement := .first
  deriving DecidableEq, Repr

/-- What a cell is sorted by. -/
inductive SortValue where
  | null
  | number (x : Float)
  | text (s : String)
  deriving DecidableEq, Repr

namespace SortValue

/-- What a cell, or a missing one, is sorted by; a key that is no number does
    not count. -/
def ofCell : Option Cell → SortValue
  | none => null
  | some c =>
    match c.sortKey.filter (!·.isNaN) with
    | some key => number key
    | none => if c.isBlank then null else text c.value

def isNull : SortValue → Bool
  | null => true
  | _ => false

/-- Ascending: numbers along the line of doubles, then texts by code points. -/
def compare : SortValue → SortValue → Ordering
  | number x, number y => compareTotal x y
  | text s, text t => Ord.compare s t
  | number _, text _ => .lt
  | text _, number _ => .gt
  | _, _ => .eq

end SortValue

/-- The order of two sort values. -/
def SortSpec.compare (s : SortSpec) (a b : SortValue) : Ordering :=
  match a.isNull, b.isNull with
  | true, true => .eq
  | true, false => if s.nulls = .first then .lt else .gt
  | false, true => if s.nulls = .first then .gt else .lt
  | false, false => if s.descending then b.compare a else a.compare b

/-- The order of two rows by one of their cells. -/
def SortSpec.compareRows (s : SortSpec) (column : Nat) (a b : List Cell) : Ordering :=
  s.compare (.ofCell a[column]?) (.ofCell b[column]?)

namespace Table

/-- The cell of a row and a column. -/
def cell? (t : Table) (row column : Nat) : Option Cell := t.rows[row]?.bind (·[column]?)

def rowCount (t : Table) : Nat := t.rows.length

def columnCount (t : Table) : Nat := t.titles.length

/-- Sorts the rows by a column; rows that compare equal keep their order. -/
def sortByColumn (t : Table) (column : Nat) (s : SortSpec) : Table :=
  if column < t.columnCount then
    { t with rows := t.rows.mergeSort fun a b => (s.compareRows column a b).isLE }
  else t

end Table

end EventTable
