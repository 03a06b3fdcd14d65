/-
  EventTable — the exact value of a double, and rounding it to whole numbers.

  Arithmetic on measurements is that of binary64 doubles (`Float`).  Wherever
  a digit or a whole number is taken from a double, its value is decoded first
  and the rest is computed on natural numbers.

  * `Exact` is a finite value `± mantissa · 2 ^ exponent`, and `Exact.ofFloat?`
    the value of a double that is neither infinite nor NaN;
  * `floorMagnitude` and `roundMagnitude` (a half goes up) round the magnitude;
  * `clampInt64` keeps an integer within the signed 64-bit ones, and `wrapInt64` is
    what it wraps around to, itself only if it `FitsInt64`; `wrapNat64` is the same
    for unsigned ones;
  * `roundToInt64` and `roundHalfAway`, `truncateToInt64` and `truncate` round a
    double, half away from zero and toward zero, to an integer or a double;
  * `remainder360` is the remainder of an angle by the full circle, with the
    sign of the angle;
  * `orderKey` places the doubles on one line, `-0.0` just below `0.0`.
-/
namespace EventTable.Number

open Float.Model (UnpackedFloat)

/-- A power of two. -/
abbrev twoPow (n : Nat) : Nat := Nat.pow 2 n

/-- A power of ten. -/
abbrev tenPow (n : Nat) : Nat := Nat.pow 10 n

/-- The finite value `± mantissa · 2 ^ exponent`. -/
structure Exact where
  negative : Bool
  mantissa : Nat
  exponent : Int
  deriving DecidableEq, Repr

/-- The value of a double, unless it is infinite or NaN. -/
def Exact.ofFloat? (x : Float) : Option Exact :=
  match x.toModel.unpack with
  | .zero s => some ⟨s == .negative, 0, 0⟩
  | .finite s m e _ => some ⟨s == .negative, m, e⟩
  | .infinity _ => none
  | .notANumber => none

namespace Exact

/-- The numerator of the magnitude, over the denominator `den`. -/
def num (v : Exact) : Nat := v.mantissa * twoPow v.exponent.toNat

/-- The denominator of the magnitude, a power of two. -/
def den (v : Exact) : Nat := twoPow (-v.exponent).toNat

theorem den_pos (v : Exact) : 0 < v.den := Nat.two_pow_pos _

/-- The magnitude, rounded down. -/
def floorMagnitude (v : Exact) : Nat := v.num / v.den

/-- The magnitude, rounded to the nearest whole number, a half upward. -/
def roundMagnitude (v : Exact) : Nat := (2 * v.num + v.den) / (2 * v.den)

/-- The integer with the sign of the value and the magnitude `n`. -/
def signed (v : Exact) (n : Nat) : Int := if v.negative then -n else n

end Exact

/-- The greatest signed 64-bit integer. -/
def maxInt64 : Int := 0x7FFFFFFFFFFFFFFF

/-- The least signed 64-bit integer. -/
def minInt64 : Int := -0x8000000000000000

/-- The greatest unsigned 64-bit integer. -/
def maxNat64 : Nat := 0xFFFFFFFFFFFFFFFF

/-- Keeps an integer within the signed 64-bit integers. -/
def clampInt64 (n : Int) : Int := max minInt64 (min n maxInt64)

/-- The integer is a signed 64-bit one. -/
def FitsInt64 (n : Int) : Prop := minInt64 ≤ n ∧ n ≤ maxInt64

instance (n : Int) : Decidable (FitsInt64 n) := inferInstanceAs (Decidable (_ ∧ _))

/-- The signed 64-bit integer that an integer wraps around to. -/
def wrapInt64 (n : Int) : Int := n.bmod 0x10000000000000000

/-- The unsigned 64-bit integer that a number wraps around to. -/
def wrapNat64 (n : Nat) : Nat := n % (maxNat64 + 1)

section
variable {n : Int}

theorem fitsInt64_wrapInt64 (n : Int) : FitsInt64 (wrapInt64 n) := by
  rw [wrapInt64, Int.bmod_def]
  unfold FitsInt64 minInt64 maxInt64
  omega

theorem wrapInt64_of_fits (h : FitsInt64 n) : wrapInt64 n = n := by
  unfold FitsInt64 minInt64 maxInt64 at h
  rw [wrapInt64, Int.bmod_def]
  omega

theorem wrapInt64_eq_self_iff : wrapInt64 n = n ↔ FitsInt64 n :=
  ⟨fun h => h ▸ fitsInt64_wrapInt64 n, wrapInt64_of_fits⟩

/-- What is too small by less than a turn comes back from above. -/
theorem wrapInt64_of_lt (h : n < minInt64) (hturn : minInt64 ≤ n + 0x10000000000000000) :
    wrapInt64 n = n + 0x10000000000000000 := by
  unfold minInt64 at h hturn
  rw [wrapInt64, Int.bmod_def]
  omega

/-- What is too great by less than a turn comes back from below. -/
theorem wrapInt64_of_gt (h : maxInt64 < n) (hturn : n - 0x10000000000000000 ≤ maxInt64) :
    wrapInt64 n = n - 0x10000000000000000 := by
  unfold maxInt64 at h hturn
  rw [wrapInt64, Int.bmod_def]
  omega

end

/-- The nearest whole number, a half going away from zero, kept within the
    signed 64-bit integers; NaN counts as zero. -/
def roundToInt64 (x : Float) : Int :=
  match Exact.ofFloat? x with
  | some v => clampInt64 (v.signed v.roundMagnitude)
  | none => if x.isNaN then 0 else if x < 0.0 then minInt64 else maxInt64

/-- The whole part, rounded toward zero and kept within the signed 64-bit
    integers; NaN counts as zero. -/
def truncateToInt64 (x : Float) : Int :=
  match Exact.ofFloat? x with
  | some v => clampInt64 (v.signed v.floorMagnitude)
  | none => if x.isNaN then 0 else if x < 0.0 then minInt64 else maxInt64

/-- The double with the digits after the binary point cut off; the sign stays,
    also that of a zero. -/
def truncate (x : Float) : Float :=
  match Exact.ofFloat? x with
  | some v =>
    if 0 ≤ v.exponent then x
    else if v.negative then -(Float.ofNat v.floorMagnitude) else Float.ofNat v.floorMagnitude
  | none => x

/-- The double rounded to the nearest whole number, a half going away from
    zero; the sign stays, also that of a zero. -/
def roundHalfAway (x : Float) : Float :=
  match Exact.ofFloat? x with
  | some v =>
    if 0 ≤ v.exponent then x
    else if v.negative then -(Float.ofNat v.roundMagnitude) else Float.ofNat v.roundMagnitude
  | none => x

/-- The exact remainder of an angle in degrees by 360, with the sign of the
    angle. -/
def remainder360 (x : Float) : Float :=
  match Exact.ofFloat? x with
  | some v =>
    let r := Float.ofNat (v.num % (360 * v.den)) / Float.ofNat v.den
    if v.floorMagnitude < 360 then x else if v.negative then -r else r
  | none => x

/-- The place of a double on the line of all doubles: the order of the bit
    patterns of positive doubles, mirrored for negative ones. -/
def orderKey (x : Float) : Int :=
  let bits := x.toBits.toNat
  if bits < twoPow 63 then bits else -(bits - twoPow 63 : Nat) - 1

/-- Compares doubles by their place on the line of all doubles. -/
def compareTotal (x y : Float) : Ordering := compare (orderKey x) (orderKey y)

end EventTable.Number
