/-
  EventTable — whole numbers as doubles.

  A whole number below `2 ^ 53` is held exactly by a double whose mantissa is
  full, that is, has 53 binary digits (`m.log2 = 52`).

  * `roundWithAccuracy_mul_two_pow`: zeros behind a full mantissa, or one of the
    least exponent, are dropped without rounding;
  * `toNat_pack` and `unpack_pack`: the bit pattern of a positive double with a
    full mantissa, and that it is read back from it;
  * `toModel_ofNat`: the double of a whole number, and `toNat_toBits_ofNat` its
    bit pattern, which grows with the number;
  * `compareTotal_ofNat`: so whole numbers are compared as their doubles are,
    and none of these is NaN (`isNaN_ofNat`).
-/
import EventTable.Number.Exact
import Mathlib

namespace EventTable.Number

open Float.Model (UnpackedFloat Format totalExponent)
open Float.Model.UnpackedFloat

/-! ## Rounding a full mantissa -/

theorem targetExponent_binary64 (t : Int) :
    Format.binary64.targetExponent t = max (t - 53) (-1074) := by
  rw [Format.targetExponent]
  rfl

theorem log2_mul_two_pow {m : Nat} (hm : 0 < m) (k : Nat) : (m * 2 ^ k).log2 = m.log2 + k := by
  have hk : 0 < 2 ^ k := Nat.two_pow_pos k
  have hlow : 2 ^ m.log2 ≤ m := Nat.log2_self_le (Nat.ne_of_gt hm)
  have hhigh : m < 2 ^ (m.log2 + 1) := Nat.lt_log2_self
  rw [Nat.log2_eq_iff (Nat.ne_of_gt (Nat.mul_pos hm hk)), Nat.add_right_comm, Nat.pow_add,
    Nat.pow_add]
  exact ⟨Nat.mul_le_mul_right _ hlow, Nat.mul_lt_mul_of_pos_right hhigh hk⟩

theorem shiftRight_mul_two_pow (m k : Nat) :
    (⟨m * 2 ^ k, false, false⟩ : ExtendedMantissa) >>> k = ⟨m, false, false⟩ := by
  change Nat.repeat ExtendedMantissa.shiftRightOne k _ = _
  induction k generalizing m with
  | zero => simp [Nat.repeat]
  | succ k ih =>
    -- the last shift drops the zero that is nearest to `m`
    have hm : m * 2 ^ (k + 1) = m * 2 * 2 ^ k := by
      rw [Nat.pow_succ, Nat.mul_assoc, Nat.mul_comm 2]
    rw [Nat.repeat, hm, ih (m * 2)]
    simp [ExtendedMantissa.shiftRightOne]

section
variable {m : Nat} {e : Int} (hpos : 0 < m) (he : max ((m.log2 : Int) - 52 + e) (-1074) = e)
include hpos he

theorem shiftToTargetExponent_mul_two_pow (k : Nat) :
    shiftToTargetExponent .binary64 (m * 2 ^ k) (e - k) .exact = (⟨m, false, false⟩, e) := by
  have ht : Format.binary64.targetExponent (totalExponent (m * 2 ^ k) (e - k)) = e := by
    rw [targetExponent_binary64, totalExponent, log2_mul_two_pow hpos]
    omega
  have hs : (e - (e - k)).toNat = k := by omega
  rw [shiftToTargetExponent, ht, shiftToExponent, hs]
  refine Prod.ext (shiftRight_mul_two_pow m k) ?_
  show e - k + k = e
  omega

/-- Zeros behind a mantissa are dropped, and nothing is rounded, if the mantissa is full, or if
    it is shorter and has the least exponent. -/
theorem roundWithAccuracy_mul_two_pow (k : Nat) :
    roundWithAccuracy .binary64 .positive (m * 2 ^ k) (e - k) .exact =
      .finite .positive m e hpos := by
  have hagain := shiftToTargetExponent_mul_two_pow hpos he 0
  rw [Nat.pow_zero, Nat.mul_one, Int.natCast_zero, Int.sub_zero] at hagain
  have hr : (⟨m, false, false⟩ : ExtendedMantissa).roundedMantissa = m := rfl
  simp only [roundWithAccuracy, shiftToTargetExponent_mul_two_pow hpos he k, hr, hagain]
  exact dif_neg (Nat.ne_of_gt hpos)

end

/-! ## Bit patterns -/

theorem toNat_packComponents (e : BitVec 11) (m : BitVec 52) :
    (packComponents .binary64 .positive e m).toNat = e.toNat * 2 ^ 52 + m.toNat := by
  have hsign : ((Sign.positive.toBitVec ++ e : BitVec 12)).toNat = e.toNat := by
    rw [BitVec.toNat_append, ← Nat.shiftLeft_add_eq_or_of_lt e.isLt]
    simp [Sign.toBitVec]
  rw [packComponents, BitVec.toNat_append, ← Nat.shiftLeft_add_eq_or_of_lt m.isLt,
    Nat.shiftLeft_eq]
  exact congrArg (· * 2 ^ 52 + m.toNat) hsign

theorem unpackSign_packComponents (e : BitVec 11) (m : BitVec 52) :
    Sign.ofBitVec (unpackSign (packComponents .binary64 .positive e m)) = .positive := by
  simp only [unpackSign, packComponents, BitVec.extractLsb]
  rw [BitVec.extractLsb'_append_eq_of_le (by decide),
    BitVec.extractLsb'_append_eq_of_le (by decide)]
  rfl

section
variable {m : Nat} {e : Int} (hm : m.log2 = 52) (hpos : 0 < m) (he : -1074 ≤ e) (he' : e ≤ 971)
include hm he he'

/-- A full mantissa is packed without its first digit. -/
theorem pack_eq_packComponents : UnpackedFloat.pack .binary64 (.finite .positive m e hpos) =
    packComponents .binary64 .positive (BitVec.ofNat 11 (e + 1075).toNat) (BitVec.ofNat 52 m) := by
  have hbiased : (e + Format.binary64.exponentBias +
      Format.binary64.mantissaBitsWithoutImplicit).toNat = (e + 1075).toNat := by
    show (e + (1023 : Nat) + (52 : Nat)).toNat = (e + 1075).toNat
    omega
  have hlimit : 2 ^ Format.binary64.exponentBits = 2048 := rfl
  rw [UnpackedFloat.pack]
  simp only [hbiased, hm, hlimit]
  rw [if_neg (by omega)]
  exact if_pos rfl

/-- The bit pattern of a positive double with a full mantissa. -/
theorem toNat_pack : (UnpackedFloat.pack .binary64 (.finite .positive m e hpos)).toNat =
    (e + 1074).toNat * 2 ^ 52 + m := by
  have hbounds := (Nat.log2_eq_iff (Nat.ne_of_gt hpos)).1 hm
  rw [pack_eq_packComponents hm hpos he he', toNat_packComponents, BitVec.toNat_ofNat,
    BitVec.toNat_ofNat]
  omega

theorem unpack_pack :
    UnpackedFloat.unpack .binary64 (UnpackedFloat.pack .binary64 (.finite .positive m e hpos)) =
      .finite .positive m e hpos := by
  have hbounds := (Nat.log2_eq_iff (Nat.ne_of_gt hpos)).1 hm
  have hexponent : (BitVec.ofNat 11 (e + 1075).toNat).toNat = (e + 1075).toNat := by
    rw [BitVec.toNat_ofNat]
    omega
  have hmantissa : (1#1 ++ BitVec.ofNat 52 m).toNat = m := by
    rw [BitVec.toNat_append, ← Nat.shiftLeft_add_eq_or_of_lt (BitVec.ofNat 52 m).isLt,
      BitVec.toNat_ofNat, Nat.shiftLeft_eq, BitVec.toNat_ofNat]
    omega
  -- the exponent is neither that of the infinities nor that of the small doubles
  have hfinite : BitVec.ofNat 11 (e + 1075).toNat ≠ -1#11 := by
    rw [Ne, ← BitVec.toNat_inj, hexponent, show (-1#11).toNat = 2047 from rfl]
    omega
  have hnormal : BitVec.ofNat 11 (e + 1075).toNat ≠ 0#11 := by
    rw [Ne, ← BitVec.toNat_inj, hexponent, show (0#11).toNat = 0 from rfl]
    omega
  rw [pack_eq_packComponents hm hpos he he', UnpackedFloat.unpack]
  simp only [unpackMantissa_packComponents, unpackExponent_packComponents,
    unpackSign_packComponents, hexponent, hmantissa]
  rw [if_neg hfinite, if_neg hnormal]
  congr 1
  show ((e + 1075).toNat : Int) - ((1023 : Nat) + (52 : Nat)) = e
  omega

end

/-! ## The double of a whole number -/

/-- The double of a whole number is made of that of a word, times one. -/
theorem ofNat_eq_mul {n : Nat} (h : n < 2 ^ 53) :
    Float.ofNat n = n.toUInt64.toFloat * Float.ofBits 0x3FF0000000000000 := by
  show Float.ofScientific n false 0 = _
  rw [Float.ofScientific, dif_pos ⟨h, by decide⟩]
  rfl

theorem unpack_ofBits_one : (Float.Model.ofBits 0x3FF0000000000000).unpack =
    .finite .positive (2 ^ 52) (-52) (by decide) := rfl

section
variable {n : Nat} (hpos : 0 < n) (h : n < 2 ^ 53)
include hpos

/-- The mantissa of a whole number, filled up with zeros, is full. -/
theorem log2_fill (hl : n.log2 < 53) : (n * 2 ^ (52 - n.log2)).log2 = 52 := by
  rw [log2_mul_two_pow hpos]
  omega

theorem fill_pos : 0 < n * 2 ^ (52 - n.log2) := Nat.mul_pos hpos (Nat.two_pow_pos _)

include h

theorem log2_lt : n.log2 < 53 := (Nat.log2_lt (Nat.ne_of_gt hpos)).2 h

theorem unpackedOfNat_eq : UnpackedFloat.ofNat .binary64 n =
    .finite .positive (n * 2 ^ (52 - n.log2)) (n.log2 - 52) (fill_pos hpos) := by
  have hl := log2_lt hpos h
  have htarget : Format.binary64.targetExponent (totalExponent n 0) = n.log2 - 52 := by
    rw [targetExponent_binary64, totalExponent]
    omega
  have hshift : (0 - ((n.log2 : Int) - 52)).toNat = 52 - n.log2 := by omega
  have hexponent : (0 : Int) - (52 - n.log2 : Nat) = n.log2 - 52 := by omega
  have hround := roundWithAccuracy_mul_two_pow (fill_pos hpos) (e := n.log2 - 52)
    (by rw [log2_fill hpos hl]; omega) 0
  rw [Nat.pow_zero, Nat.mul_one, Int.natCast_zero, Int.sub_zero] at hround
  rw [UnpackedFloat.ofNat, UnpackedFloat.ofInt, UnpackedFloat.normalize,
    Int.compare_eq_gt.2 (by omega)]
  simp only [UnpackedFloat.round, Int.toNat_natCast, htarget, decreaseExponent, hshift, hexponent,
    Nat.shiftLeft_eq, hround]

/-- A word is made a double exactly. -/
theorem unpack_ofUInt64 : (Float.Model.ofUInt64 n.toUInt64).unpack =
    .finite .positive (n * 2 ^ (52 - n.log2)) (n.log2 - 52) (fill_pos hpos) := by
  have hl := log2_lt hpos h
  have hword : n.toUInt64.toNat = n := by
    rw [Nat.toUInt64, UInt64.toNat_ofNat']
    omega
  show UnpackedFloat.unpack .binary64 (UnpackedFloat.pack .binary64
    (UnpackedFloat.ofNat .binary64 n.toUInt64.toNat)) = _
  rw [hword, unpackedOfNat_eq hpos h, unpack_pack (log2_fill hpos hl) _ (by omega) (by omega)]

/-- **The double of a whole number** holds it exactly. -/
theorem toModel_ofNat : (Float.ofNat n).toModel =
    .pack (.finite .positive (n * 2 ^ (52 - n.log2)) (n.log2 - 52) (fill_pos hpos)) := by
  have hl := log2_lt hpos h
  have hm := log2_fill hpos hl
  rw [ofNat_eq_mul h]
  show Float.Model.pack (UnpackedFloat.mul .binary64 (Float.Model.ofUInt64 n.toUInt64).unpack
    (Float.Model.ofBits 0x3FF0000000000000).unpack) = _
  rw [unpack_ofUInt64 hpos h, unpack_ofBits_one, UnpackedFloat.mul]
  exact congrArg Float.Model.pack (roundWithAccuracy_mul_two_pow _ (by omega) 52)

theorem toNat_toBits_ofNat :
    (Float.ofNat n).toBits.toNat = (n.log2 + 1022) * 2 ^ 52 + n * 2 ^ (52 - n.log2) := by
  have hl := log2_lt hpos h
  have hexponent : ((n.log2 : Int) - 52 + 1074).toNat = n.log2 + 1022 := by omega
  rw [Float.toBits, toModel_ofNat hpos h]
  show (UnpackedFloat.pack .binary64 _).toNat = _
  rw [toNat_pack (log2_fill hpos hl) _ (by omega) (by omega), hexponent]

end

theorem toBits_ofNat_zero : (Float.ofNat 0).toBits.toNat = 0 := by decide +kernel

theorem isNaN_ofNat {n : Nat} (h : n < 2 ^ 53) : (Float.ofNat n).isNaN = false := by
  by_cases hpos : 0 < n
  · have hl := log2_lt hpos h
    show (Float.ofNat n).toModel.unpack.isNaN = false
    rw [toModel_ofNat hpos h]
    show (UnpackedFloat.unpack .binary64 (UnpackedFloat.pack .binary64 _)).isNaN = false
    rw [unpack_pack (log2_fill hpos hl) _ (by omega) (by omega)]
    rfl
  · rw [Nat.eq_zero_of_not_pos hpos]
    decide +kernel

/-! ## The order of whole numbers -/

variable {i j : Nat}

theorem toNat_toBits_ofNat_lt (hij : i < j) (hj : j < 2 ^ 53) :
    (Float.ofNat i).toBits.toNat < (Float.ofNat j).toBits.toNat := by
  have hjpos : 0 < j := Nat.zero_lt_of_lt hij
  have hfull {n : Nat} (hpos : 0 < n) (h : n < 2 ^ 53) :
      2 ^ 52 ≤ n * 2 ^ (52 - n.log2) ∧ n * 2 ^ (52 - n.log2) < 2 ^ 53 :=
    (Nat.log2_eq_iff (Nat.ne_of_gt (fill_pos hpos))).1 (log2_fill hpos (log2_lt hpos h))
  have hfj := hfull hjpos hj
  rw [toNat_toBits_ofNat hjpos hj]
  by_cases hpos : 0 < i
  · have hi : i < 2 ^ 53 := Nat.lt_trans hij hj
    have hfi := hfull hpos hi
    rw [toNat_toBits_ofNat hpos hi]
    have hle : i.log2 ≤ j.log2 := (Nat.le_log2 (Nat.ne_of_gt hjpos)).2 <|
      Nat.le_trans (Nat.log2_self_le (Nat.ne_of_gt hpos)) (Nat.le_of_lt hij)
    rcases Nat.eq_or_lt_of_le hle with heq | hlt
    · -- of equal exponents the mantissas decide
      have hmul := Nat.mul_lt_mul_of_pos_right hij (Nat.two_pow_pos (52 - j.log2))
      rw [heq]
      omega
    · omega
  · rw [Nat.eq_zero_of_not_pos hpos, toBits_ofNat_zero]
    omega

theorem orderKey_ofNat_lt (hij : i < j) (hj : j < 2 ^ 53) :
    orderKey (Float.ofNat i) < orderKey (Float.ofNat j) := by
  have hlt := toNat_toBits_ofNat_lt hij hj
  -- the greatest of these doubles is still a positive one
  have hpositive : (Float.ofNat j).toBits.toNat < twoPow 63 := by
    have hjpos : 0 < j := Nat.zero_lt_of_lt hij
    have hl := log2_lt hjpos hj
    have hfull := (Nat.log2_eq_iff (Nat.ne_of_gt (fill_pos hjpos))).1 (log2_fill hjpos hl)
    rw [toNat_toBits_ofNat hjpos hj, twoPow, show Nat.pow 2 63 = 9223372036854775808 from rfl]
    omega
  rw [orderKey, orderKey, if_pos hpositive, if_pos (Nat.lt_trans hlt hpositive)]
  exact Int.ofNat_lt.2 hlt

/-- **Whole numbers are compared as their doubles are.** -/
theorem compareTotal_ofNat (hi : i < 2 ^ 53) (hj : j < 2 ^ 53) :
    compareTotal (Float.ofNat i) (Float.ofNat j) = compare i j := by
  rw [compareTotal]
  rcases Nat.lt_trichotomy i j with h | rfl | h
  · rw [Int.compare_eq_lt.2 (orderKey_ofNat_lt h hj), Nat.compare_eq_lt.2 h]
  · simp
  · rw [Int.compare_eq_gt.2 (orderKey_ofNat_lt h hi), Nat.compare_eq_gt.2 h]

end EventTable.Number
