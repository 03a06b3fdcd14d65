/-
  EventTable — assembling a table from requested columns and records.

  * the title of a column is the requested one if it is not blank, else the
    column's own, with its placeholders filled; an unknown column has none;
  * a value that cannot be resolved, and any value of an unknown column, is a
    blank cell; every other cell of the table is made all the same;
  * every cell gets the filler of its column, or that of the context.
-/
import EventTable.Catalog
import EventTable.ColumnRequest
import EventTable.Table

namespace EventTable

open Text

variable {ρ : Type}

/-- The title of a requested column. -/
def columnTitle (catalog : Catalog ρ) (ctx : Context) (request : ColumnRequest) : String :=
  match catalog.lookup? request.key with
  | none => ""
  | some column =>
    ctx.expandTitle (request.titleOverride.getD (column.title ctx request.argument))

/-- The cell of a record in a requested column, before it is filled; blank if
    it cannot be resolved. -/
def resolveCell (catalog : Catalog ρ) (ctx : Context) (row : Nat) (record : ρ)
    (request : ColumnRequest) : Cell :=
  match catalog.lookup? request.key with
  | none => .blank
  | some column =>
    match column.value row ctx request.argument record with
    | .ok cell => cell
    | .error _ => .blank

/-- What is shown for blank cells of a requested column. -/
def columnFiller (ctx : Context) (request : ColumnRequest) : String :=
  (request.filler.bind nonBlank?).getD ctx.filler

/-- The row of a record: one cell per requested column. -/
def assembleRow (catalog : Catalog ρ) (ctx : Context) (requests : List ColumnRequest)
    (row : Nat) (record : ρ) : List Cell :=
  requests.map fun request =>
    (resolveCell catalog ctx row record request).withFiller (columnFiller ctx request)

/-- The table of requested columns over records. -/
def assemble (catalog : Catalog ρ) (ctx : Context) (requests : List ColumnRequest)
    (records : List ρ) : Table where
  titles := requests.map (columnTitle catalog ctx)
  rows := records.mapIdx (assembleRow catalog ctx requests)

end EventTable
