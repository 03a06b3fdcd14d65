/-
  EventTable — requested columns: which column, with which argument, and how
  it is titled and filled.

  * `ColumnRequest.parse` reads the short form, a key and an optional argument
    after a colon;
  * `ColumnRequest.ofDatum?` reads the long form, a table of its fields.
-/
import EventTable.Datum.Record
import EventTable.Text.Blank
import EventTable.Text.Cut

namespace EventTable

open Text

/-- A requested column. -/
structure ColumnRequest where
  key : String
  argument : String := ""
  title : Option String := none
  filler : Option String := none
  deriving DecidableEq, Repr

namespace ColumnRequest

def withArgument (c : ColumnRequest) (argument : String) : ColumnRequest :=
  { c with argument }

def withTitle (c : ColumnRequest) (title : String) : ColumnRequest := { c with title }

def withFiller (c : ColumnRequest) (filler : String) : ColumnRequest := { c with filler }

/-- Reads `key` or `key:argument`, both trimmed. -/
def parse (text : String) : ColumnRequest :=
  let cs := trimChars text.toList
  match cut? ':' cs with
  | some (key, argument) =>
    { key := String.ofList (trimChars key), argument := String.ofList (trimChars argument) }
  | none => { key := String.ofList cs }

/-- The title that stands in for the column's own, if it is not blank. -/
def titleOverride (c : ColumnRequest) : Option String := c.title.bind nonBlank?

/-- Reads the fields of a column. -/
def ofDatum? (s : Datum.Strictness) (d : Datum) : Option ColumnRequest := do
  let r ← d.record? s ["key", "arg", "title", "blank_filler"]
  return {
    key := ← r.require? "key" (Datum.text? s)
    argument := ← r.get? "arg" (Datum.text? s) ""
    title := ← r.get? "title" (Datum.option? (Datum.text? s)) none
    filler := ← r.get? "blank_filler" (Datum.option? (Datum.text? s)) none }

end ColumnRequest

end EventTable
