/-
  EventTable — reading whole numbers and doubles from texts.

  * `int?` reads an optional sign and decimal digits, `nat?` and `hexNat?` an
    optional plus and decimal or hexadecimal digits; `boundedInt?` also checks
    bounds;
  * `float?` reads a decimal number with an optional point and exponent, or
    one of the words `inf`, `infinity` and `nan` in any case; the double is
    the nearest one, ties to even;
  * `ofDecimal` is that rounding, of `m · 10 ^ e`.
-/
import EventTable.Text.Cut
import EventTable.Text.Digits

namespace EventTable.Number

open Text

/-- A sign in front of a numeral, and what follows it. -/
def signAndRest : List Char → Bool × List Char
  | '-' :: r => (true, r)
  | '+' :: r => (false, r)
  | cs => (false, cs)

/-- Decimal digits, at least one and nothing else. -/
def digitsOnly? (cs : List Char) : Option Nat :=
  if cs ≠ [] ∧ cs.all Char.isDigit then some (natOfDigits cs) else none

/-- A whole number: an optional sign and decimal digits. -/
def int? (cs : List Char) : Option Int :=
  let (negative, r) := signAndRest cs
  (digitsOnly? r).map fun n => if negative then -(n : Int) else n

/-- An integer within bounds. -/
def boundedInt? (lo hi : Int) (cs : List Char) : Option Int :=
  (int? cs).filter fun n => lo ≤ n && n ≤ hi

/-- What follows an optional plus. -/
def afterPlus : List Char → List Char
  | '+' :: r => r
  | cs => cs

/-- A number without a sign but an optional plus. -/
def nat? (cs : List Char) : Option Nat := digitsOnly? (afterPlus cs)

/-- The value of a hexadecimal digit. -/
def hexValue? (c : Char) : Option Nat :=
  if c.isDigit then some (c.toNat - '0'.toNat)
  else if 'a' ≤ c ∧ c ≤ 'f' then some (c.toNat - 'a'.toNat + 10)
  else if 'A' ≤ c ∧ c ≤ 'F' then some (c.toNat - 'A'.toNat + 10)
  else none

/-- The number that hexadecimal digits denote, read on from `acc`. -/
def hexDigits? (acc : Nat) : List Char → Option Nat
  | [] => some acc
  | c :: r => (hexValue? c).bind fun d => hexDigits? (16 * acc + d) r

/-- A hexadecimal number: an optional plus and at least one digit. -/
def hexNat? (cs : List Char) : Option Nat :=
  match afterPlus cs with
  | [] => none
  | r => hexDigits? 0 r

/-- The double nearest to `± m · 10 ^ e`. -/
def ofDecimal (negative : Bool) (m : Nat) (e : Int) : Float :=
  let x := Float.ofScientific m (e < 0) e.natAbs
  if negative then -x else x

/-- The exponent part of a decimal number: nothing, or a letter `e` and an
    integer. -/
def exponent? : List Char → Option Int
  | [] => some 0
  | 'e' :: r | 'E' :: r => int? r
  | _ => none

/-- The digits after a point, and what follows them. -/
def fractionAndRest : List Char → List Char × List Char
  | '.' :: r => (r.takeWhile Char.isDigit, r.dropWhile Char.isDigit)
  | cs => ([], cs)

/-- A decimal number without sign: digits with an optional point, at least one
    digit in all, and an optional exponent. -/
def decimal? (negative : Bool) (cs : List Char) : Option Float :=
  let whole := cs.takeWhile Char.isDigit
  let (fraction, rest) := fractionAndRest (cs.dropWhile Char.isDigit)
  if whole.isEmpty && fraction.isEmpty then none
  else (exponent? rest).map fun e =>
    ofDecimal negative (natOfDigits (whole ++ fraction)) (e - fraction.length)

/-- Positive infinity. -/
def infinity : Float := Float.ofBits 0x7FF0000000000000

/-- Not a number. -/
def nan : Float := Float.ofBits 0x7FF8000000000000

/-- One of the words for infinity and NaN. -/
def word? (negative : Bool) (cs : List Char) : Option Float :=
  let w := lowerAscii cs
  if w = "inf".toList ∨ w = "infinity".toList then some (if negative then -infinity else infinity)
  else if w = "nan".toList then some nan
  else none

/-- A double: an optional sign, and a decimal number or a word. -/
def float? (cs : List Char) : Option Float :=
  let (negative, r) := signAndRest cs
  (decimal? negative r).or (word? negative r)

end EventTable.Number
