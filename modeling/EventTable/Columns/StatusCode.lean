/-
  EventTable — columns about the status of an event: its code and its
  description, in the colours of its style.
-/
import EventTable.Columns.Measure

namespace EventTable.Columns

open Text Number

/-- A cell in the colours of the style of a code. -/
def styled (ctx : Context) (code : StatusCode) (cell : Cell) : Cell :=
  match (ctx.statusStyle? code).filter (·.hasColors) with
  | none => cell
  | some style =>
    let cell := match style.foreground.bind nonBlank? with
      | some color => cell.withForeground color
      | none => cell
    match style.background.bind nonBlank? with
    | some color => cell.withBackground color
    | none => cell

/-- A text for a code, sorted by the code, in colours if the argument asks for
    them. -/
def statusCell (ctx : Context) (argument : StatusArgument) (code : StatusCode) (text : String) :
    Cell :=
  let cell := (Cell.ofText text).withSortKey (Float.ofNat code.toNat)
  if argument.colored then styled ctx code cell else cell

/-- The configured description of a code, trimmed, or else the code. -/
def statusDescription (ctx : Context) (code : StatusCode) : String :=
  (((ctx.statusStyle? code).map (trim ·.description)).filter (· ≠ "")).getD (hexCode code)

/-- Code and description. -/
def statusColumns : List (Column Event) :=
  [column "statusCode" (fixedTitle "col.statusCode" "Status#") fun _ ctx argument e =>
      let argument := StatusArgument.parse argument
      statusCell ctx argument e.statusCode (argument.formatCode e.statusCode),
    column "statusDesc" (fixedTitle "col.statusDesc" "Status") fun _ ctx argument e =>
      statusCell ctx (.parse argument) e.statusCode (statusDescription ctx e.statusCode)]

end EventTable.Columns
