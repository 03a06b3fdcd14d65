/-
  EventTable — patterns for numbers, such as `#,##0.00`.

  A pattern has characters `0`, `#` and `,` before an optional point, and `0`
  and `#` after it.  Each `0` asks for a digit even where it would be a
  leading or trailing zero; the number of characters after the point is the
  greatest number of fraction digits; a comma anywhere asks for groups.

  * `Pattern.parse?` reads a pattern, trimmed;
  * `selectPattern` is the pattern text that a column argument selects: none
    of its own for a blank argument, the rest after `#`, or the pattern with
    as many fraction digits as a leading digit says;
  * `Pattern.ofArgument` is the pattern used: the selected one, else the
    default one, else `Pattern.whole`.
-/
import EventTable.Text.Blank
import EventTable.Text.Cut

namespace EventTable.Number

open Text

/-- How many digits of a number are shown, and whether they stand in groups. -/
structure Pattern where
  /-- The least number of digits before the point. -/
  minInteger : Nat
  /-- The least number of digits after the point. -/
  minFraction : Nat
  /-- The greatest number of digits after the point. -/
  maxFraction : Nat
  /-- Whether the digits before the point stand in groups of three. -/
  grouping : Bool
  deriving DecidableEq, Repr

namespace Pattern

/-- More fraction digits than this are not shown, whatever a pattern says. -/
def fractionLimit : Nat := 15

/-- The pattern for whole numbers. -/
def whole : Pattern := ⟨1, 0, 0, false⟩

/-- The two parts of a pattern text: before the first point and after it. -/
def parts (cs : List Char) : List Char × List Char := (cut? '.' cs).getD (cs, [])

/-- The pattern with the given parts. -/
def ofParts (integer fraction : List Char) : Pattern :=
  let maxFraction := min fractionLimit fraction.length
  { minInteger := integer.count '0'
    minFraction := min (fraction.count '0') maxFraction
    maxFraction
    grouping := integer.contains ',' }

/-- Reads a pattern text: one of its parts must hold something, and both only
    pattern characters. -/
def parse? (text : String) : Option Pattern :=
  let (integer, fraction) := parts (trimChars text.toList)
  if integer.all (fun c => c == '0' || c == '#' || c == ',') &&
      fraction.all (fun c => c == '0' || c == '#') &&
      !(integer.isEmpty && fraction.isEmpty) then
    some (ofParts integer fraction)
  else none

end Pattern

/-- The pattern text with exactly `n` fraction digits. -/
def digitPattern (n : Nat) : String :=
  if n = 0 then "0" else String.ofList ('0' :: '.' :: List.replicate n '0')

/-- The pattern text that an argument selects. -/
def selectPattern (argument default : String) : String :=
  match trimChars argument.toList with
  | [] => default
  | '#' :: rest => String.ofList rest
  | c :: _ => if c.isDigit then digitPattern (c.toNat - '0'.toNat) else default

/-- The pattern used for an argument. -/
def Pattern.ofArgument (argument default : String) : Pattern :=
  ((Pattern.parse? (selectPattern argument default)).or (Pattern.parse? default)).getD Pattern.whole

end EventTable.Number
