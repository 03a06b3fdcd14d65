/-
  EventTable — numbers as texts.

  A number is shown in three steps: its magnitude is rounded to the greatest
  number of fraction digits of a pattern (`roundedDigits`), zeros are dropped
  or added as the pattern asks (`Shown.ofFloat`), and the digits are written
  with the separators of a language (`Shown.write`).

  * a half is rounded up, and a value just below a half by a few units of the
    last place of the double counts as one; from `2 ^ 53` units of the last
    shown place on, the exact value is rounded instead;
  * a number whose shown digits are all zero has no minus sign;
  * `formatNumberWith` and `formatNumber` show a number for a column argument,
    and `parseNumber` reads one, taking anything else for zero.
-/
import EventTable.Number.Exact
import EventTable.Number.Numeral
import EventTable.Number.Pattern

namespace EventTable.Number

open Text

/-- The characters between whole digits and fraction digits, and between
    groups of whole digits. -/
structure Symbols where
  decimal : Char := '.'
  grouping : Char := ','
  deriving DecidableEq, Repr

/-- The magnitude of an exact value times `scale`, rounded to the nearest whole
    number, a half to the even one. -/
def Exact.scaledHalfEven (v : Exact) (scale : Nat) : Nat :=
  let n := v.num * scale
  let q := n / v.den
  let r := n % v.den
  if v.den < 2 * r ∨ (2 * r = v.den ∧ q % 2 = 1) then q + 1 else q

/-- The double `2 ^ 53`; doubles from here on are whole numbers. -/
def wholeLimit : Float := Float.ofBits 0x4340000000000000

/-- The distance from one to the next double, `2 ^ -52`. -/
def machineEpsilon : Float := Float.ofBits 0x3CB0000000000000

/-- The double rounded down to a whole number; the double is not negative. -/
def floorNat (x : Float) : Nat := ((Exact.ofFloat? x).map Exact.floorMagnitude).getD 0

/-- The magnitude in units of the last of `places` fraction digits. -/
def roundedUnits (places : Nat) (magnitude : Float) : Nat :=
  let scale := tenPow places
  let scaled := magnitude * Float.ofNat scale
  if wholeLimit ≤ scaled then
    ((Exact.ofFloat? magnitude).map (·.scaledHalfEven scale)).getD 0
  else floorNat (scaled + 0.5 + scaled * 4.0 * machineEpsilon)

/-- The whole part and the fraction digits of a magnitude. -/
def roundedDigits (places : Nat) (magnitude : Float) : Nat × List Char :=
  let units := roundedUnits places magnitude
  (units / tenPow places, if places = 0 then [] else padded places (units % tenPow places))

/-- Drops zeros at the end, but keeps `keep` digits. -/
def stripZeros (keep : Nat) (ds : List Char) : List Char :=
  ds.take keep ++ ((ds.drop keep).reverse.dropWhile (· == '0')).reverse

/-- The digits to be shown. -/
structure Shown where
  negative : Bool
  integer : List Char
  fraction : List Char
  deriving DecidableEq, Repr

/-- The digits that a pattern shows of a double; infinities and NaN are shown
    as zero. -/
def Shown.ofFloat (p : Pattern) (x : Float) : Shown :=
  let x := if x.isFinite then x else 0.0
  let (whole, fraction) := roundedDigits p.maxFraction x.abs
  let isZero := whole == 0 && fraction.all (· == '0')
  let shortened := stripZeros p.minFraction fraction
  let integer :=
    padLeft '0' p.minInteger (if whole = 0 ∧ p.minInteger = 0 then [] else digits whole)
  { negative := x < 0.0 && !isZero
    integer := if integer.isEmpty && shortened.isEmpty then ['0'] else integer
    fraction := shortened }

/-- The digits with a separator before every group of three counted from the
    right, but not in front. -/
def grouped (separator : Char) : List Char → List Char
  | [] => []
  | d :: r =>
    if r.length % 3 = 0 ∧ r ≠ [] then d :: separator :: grouped separator r
    else d :: grouped separator r

/-- Writes the digits with the separators. -/
def Shown.write (s : Shown) (grouping : Bool) (symbols : Symbols) : List Char :=
  (if s.negative then ['-'] else []) ++
    (if grouping then grouped symbols.grouping s.integer else s.integer) ++
    (if s.fraction.isEmpty then [] else symbols.decimal :: s.fraction)

/-- A number, shown as a pattern says. -/
def Pattern.apply (p : Pattern) (symbols : Symbols) (x : Float) : String :=
  String.ofList ((Shown.ofFloat p x).write p.grouping symbols)

/-- A number, shown for a column argument with the separators of a language. -/
def formatNumberWith (x : Float) (argument default : String) (symbols : Symbols) : String :=
  (Pattern.ofArgument argument default).apply symbols x

/-- A number, shown for a column argument with a point and commas. -/
def formatNumber (x : Float) (argument default : String) : String :=
  formatNumberWith x argument default {}

/-- Reads a finite number, trimmed; anything else counts as zero. -/
def parseNumber (text : String) : Float :=
  match float? (trimChars text.toList) with
  | some x => if x.isFinite then x else 0.0
  | none => 0.0

end EventTable.Number
