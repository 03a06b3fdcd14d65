/-
  EventTable — the shortest decimal that reads back as a given double.

  The reals that round to a double form an interval around it, ends included
  iff its mantissa is even.  For one digit, two digits, and so on, the grid of
  decimals with that many digits has one point below the value and one above;
  the first grid with a point of the interval gives the digits, and of two such
  points the nearer one.

  * `Interval` is that interval, scaled to a common denominator;
  * `shortest` are the digits and the exponent of the value `0.d₁d₂… · 10 ^ e`;
  * `positional` and `scientific` are the two ways to write them.
-/
import EventTable.Number.Exact
import EventTable.Text.Digits

namespace EventTable.Number

open Text

/-- A positive value `mid / den` and the reals `lo / den` to `hi / den` that
    round to it; the ends belong to the interval iff `closed`. -/
structure Interval where
  lo : Nat
  mid : Nat
  hi : Nat
  den : Nat
  closed : Bool

namespace Interval

/-- The interval of a positive exact value: half a unit of the last place to
    both sides, but only a quarter below a power of two that is not the least
    normal one. -/
def ofExact (v : Exact) : Interval :=
  let scale := twoPow v.exponent.toNat
  let below := if v.mantissa = twoPow 52 ∧ v.exponent > -1074 then 1 else 2
  { lo := (4 * v.mantissa - below) * scale
    mid := 4 * v.mantissa * scale
    hi := (4 * v.mantissa + 2) * scale
    den := 4 * twoPow (-v.exponent).toNat
    closed := v.mantissa % 2 == 0 }

/-- Whether `n · 10 ^ e` lies in the interval. -/
def covers (i : Interval) (n : Nat) (e : Int) : Bool :=
  let num := n * tenPow e.toNat * i.den
  let den := tenPow (-e).toNat
  if i.closed then i.lo * den ≤ num && num ≤ i.hi * den else i.lo * den < num && num < i.hi * den

/-- The greatest `n` with `n · 10 ^ e` not above the value. -/
def gridBelow (i : Interval) (e : Int) : Nat :=
  i.mid * tenPow (-e).toNat / (i.den * tenPow e.toNat)

/-- Whether `(n + 1) · 10 ^ e` is nearer to the value than `n · 10 ^ e`, or
    equally near with `n` odd. -/
def nearerAbove (i : Interval) (n : Nat) (e : Int) : Bool :=
  let twice := 2 * i.mid * tenPow (-e).toNat
  let unit := i.den * tenPow e.toNat
  twice > (2 * n + 1) * unit || (twice == (2 * n + 1) * unit && n % 2 == 1)

/-- The point of the grid of multiples of `10 ^ e` that is in the interval, the
    nearer one of two. -/
def gridPoint? (i : Interval) (e : Int) : Option Nat :=
  let n := i.gridBelow e
  match i.covers n e, i.covers (n + 1) e with
  | true, true => some (if i.nearerAbove n e then n + 1 else n)
  | true, false => some n
  | false, true => some (n + 1)
  | false, false => none

end Interval

/-- The least `e` with the value below `10 ^ e`, tried upward from `e`. -/
def decimalExponent (i : Interval) : (fuel : Nat) → (e : Int) → Int
  | 0, e => e
  | fuel + 1, e =>
    if i.mid * tenPow (-e).toNat < i.den * tenPow e.toNat then e else decimalExponent i fuel (e + 1)

/-- Digits `d₁d₂…` and an exponent `e`, for the value `0.d₁d₂… · 10 ^ e`. -/
structure Decimal where
  digits : List Char
  exponent : Int
  deriving Repr

/-- The first grid with a point of the interval, from `count` digits on. -/
def firstGrid (i : Interval) (top : Int) : (fuel : Nat) → (count : Nat) → Nat × Int
  | 0, count => (i.gridBelow (top - count), top - count)
  | fuel + 1, count =>
    match i.gridPoint? (top - count) with
    | some n => (n, top - count)
    | none => firstGrid i top fuel (count + 1)

/-- Trailing zeros carry no information. -/
def dropTrailingZeros (cs : List Char) : List Char :=
  (cs.reverse.dropWhile (· == '0')).reverse

/-- The fewest digits that read back as the positive exact value, and the
    nearest such digits. -/
def shortest (v : Exact) : Decimal :=
  let i := Interval.ofExact v
  let top := decimalExponent i 700 (-330)
  let (n, e) := firstGrid i top 17 1
  let ds := digits n
  ⟨dropTrailingZeros ds, ds.length + e⟩

/-- The digits with the point where it belongs, and at least `places` digits
    after it. -/
def positional (places : Nat) (d : Decimal) : List Char :=
  let n := d.digits.length
  if d.exponent ≤ 0 then
    "0.".toList ++ List.replicate (-d.exponent).toNat '0' ++ d.digits
  else
    let whole := d.exponent.toNat
    let fraction := d.digits.drop whole
    let fraction := fraction ++ List.replicate (places - fraction.length) '0'
    d.digits.take whole ++ List.replicate (whole - n) '0' ++
      (if fraction.isEmpty then [] else '.' :: fraction)

/-- One digit before the point, the others after it, and a signed exponent
    (`plus` says whether a positive exponent has its sign). -/
def scientific (plus : Bool) (d : Decimal) : List Char :=
  let e := d.exponent - 1
  let sign := if plus && 0 ≤ e then ['+'] else []
  let point := if d.digits.length > 1 then ['.'] else []
  d.digits.take 1 ++ point ++ d.digits.drop 1 ++ 'e' :: sign ++ signed e

end EventTable.Number
