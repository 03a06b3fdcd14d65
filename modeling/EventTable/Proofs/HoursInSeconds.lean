/-
  EventTable — doubles with a sign, and hours in seconds.

  * `unpack_neg` and `withSign_mul`: the sign of a double is a part of its own, and so the product
    of a negative double is that of its magnitude, with the sign;
  * `MadeBy.exists_small`: what is made of a small number is small;
  * `roundToInt64_mul_hour_of_lt` and `exists_roundToInt64_mul_hour`: hours, rounded to seconds,
    are none, or much more than the number of hours, with the same sign;
  * `Near x q`: the double is about the number, and `Near.roundToInt64_mul_hour_eq_iff`: a whole
    number of hours has another number of seconds.
-/
import EventTable.Proofs.WrittenDoubles

namespace EventTable.Number

open Float.Model (UnpackedFloat Format totalExponent)
open Float.Model.UnpackedFloat

/-! ## Signs -/

theorem ofBitVec_unpackSign_packComponents (s : Sign) (e : BitVec 11) (m : BitVec 52) :
    Sign.ofBitVec (unpackSign (packComponents .binary64 s e m)) = s := by
  simp only [unpackSign, packComponents, BitVec.extractLsb]
  rw [BitVec.extractLsb'_append_eq_of_le (by decide),
    BitVec.extractLsb'_append_eq_of_le (by decide)]
  cases s <;> rfl

theorem unpack_packComponents_neg (s : Sign) (e : BitVec 11) (m : BitVec 52) :
    UnpackedFloat.unpack .binary64 (packComponents .binary64 (-s) e m) =
      (UnpackedFloat.unpack .binary64 (packComponents .binary64 s e m)).neg := by
  simp only [UnpackedFloat.unpack, unpackMantissa_packComponents, unpackExponent_packComponents,
    ofBitVec_unpackSign_packComponents]
  split
  · split <;> rfl
  · split
    · split <;> rfl
    · rfl

/-- The sign is packed by itself. -/
theorem unpack_pack_neg (u : UnpackedFloat) :
    UnpackedFloat.unpack .binary64 (UnpackedFloat.pack .binary64 u.neg) =
      (UnpackedFloat.unpack .binary64 (UnpackedFloat.pack .binary64 u)).neg := by
  cases u with
  | notANumber => rfl
  | infinity s => exact unpack_packComponents_neg s _ _
  | zero s => exact unpack_packComponents_neg s _ _
  | finite s m e hm =>
    simp only [UnpackedFloat.neg, UnpackedFloat.pack]
    split
    · exact unpack_packComponents_neg s _ _
    · split <;> exact unpack_packComponents_neg s _ _

theorem roundWithAccuracy_neg (s : Sign) (m : ℕ) (e : ℤ) (accuracy : Accuracy) :
    roundWithAccuracy .binary64 (-s) m e accuracy =
      (roundWithAccuracy .binary64 s m e accuracy).neg := by
  simp only [roundWithAccuracy]
  split <;> rfl

variable {x y z : Float} {q b : ℚ} {v : Exact}

/-- **A negated double** has the other sign. -/
theorem unpack_neg (x : Float) : (-x).toModel.unpack = x.toModel.unpack.neg := by
  have hpack := unpack_pack_neg x.toModel.unpack
  have hbits : UnpackedFloat.pack .binary64 x.toModel.unpack = x.toBits.toBitVec :=
    UnpackedFloat.pack_unpack_of_valid x.toModel.valid
  rw [hbits] at hpack
  exact hpack

theorem ofFloat?_neg (hv : Exact.ofFloat? x = some v) :
    Exact.ofFloat? (-x) = some { v with negative := !v.negative } := by
  rw [Exact.ofFloat?, unpack_neg]
  rcases unpack_of_ofFloat? hv with ⟨s, hu, rfl⟩ | ⟨s, m, e, hpos, hu, rfl⟩ <;> rw [hu] <;>
    cases s <;> rfl

/-- The double with a sign. -/
def withSign (negative : Bool) (x : Float) : Float := if negative then -x else x

theorem ofFloat?_withSign (negative : Bool) (hv : Exact.ofFloat? x = some v)
    (hsign : v.negative = false) :
    Exact.ofFloat? (withSign negative x) = some { v with negative } := by
  obtain ⟨sign, m, e⟩ := v
  obtain rfl : sign = false := hsign
  cases negative with
  | false => exact hv
  | true => exact ofFloat?_neg hv

/-- A double that is not zero is its magnitude, with a sign. -/
theorem eq_withSign_abs (hv : Exact.ofFloat? x = some v) (hm : v.mantissa ≠ 0) :
    x = withSign v.negative x.abs ∧ PositiveValue x.abs v.magnitude := by
  rcases unpack_of_ofFloat? hv with ⟨s, -, rfl⟩ | ⟨s, m, e, hpos, hu, rfl⟩
  · exact absurd rfl hm
  obtain ⟨hcanonical, he⟩ := canonical_of_unpack hu
  have habs : x.abs = ⟨.pack (.finite .positive m e hpos)⟩ := by
    have hpack : x.abs = .ofModel (.pack x.toModel.unpack.abs) := rfl
    rw [hpack, hu]
    rfl
  have hunpack : x.abs.toModel.unpack = .finite .positive m e hpos := by
    rw [habs]
    exact unpack_pack_of_canonical hcanonical he
  refine ⟨?_, m, e, hpos, hunpack, Exact.magnitude_eq _⟩
  have hx := eq_pack_unpack x
  rw [hu] at hx
  cases s with
  | positive => exact hx.trans habs.symm
  | negative =>
    have hneg := eq_pack_unpack (-x.abs)
    rw [unpack_neg, hunpack] at hneg
    exact hx.trans hneg.symm

/-- **The sign of a product.** -/
theorem neg_mul_eq (hx : PositiveValue x q) (hy : PositiveValue y b) : -x * y = -(x * y) := by
  obtain ⟨m, e, hpos, hux, -⟩ := hx
  obtain ⟨m', e', hpos', huy, -⟩ := hy
  have hneg : -x * y = ⟨.pack (roundWithAccuracy .binary64 .negative (m * m') (e + e') .exact)⟩ := by
    show Float.ofModel
      (.pack (UnpackedFloat.mul .binary64 (-x).toModel.unpack y.toModel.unpack)) = _
    rw [unpack_neg, hux, huy]
    rfl
  have hmul : x * y = ⟨.pack (roundWithAccuracy .binary64 .positive (m * m') (e + e') .exact)⟩ := by
    show Float.ofModel (.pack (UnpackedFloat.mul .binary64 x.toModel.unpack y.toModel.unpack)) = _
    rw [hux, huy]
    rfl
  have hunpack : (-x * y).toModel.unpack = (-(x * y)).toModel.unpack := by
    rw [unpack_neg, hneg, hmul]
    exact (congrArg (fun u => UnpackedFloat.unpack .binary64 (UnpackedFloat.pack .binary64 u))
      (roundWithAccuracy_neg .positive _ _ _)).trans (unpack_pack_neg _)
  rw [eq_pack_unpack (-x * y), hunpack, ← eq_pack_unpack]

theorem withSign_mul {negative : Bool} (hx : PositiveValue x q) (hy : PositiveValue y b) :
    withSign negative x * y = withSign negative (x * y) := by
  cases negative with
  | false => rfl
  | true => exact neg_mul_eq hx hy

/-! ## Small numbers -/

/-- A mantissa of the least exponent that is rounded to zero gives the double zero. -/
theorem roundWithAccuracy_eq_zero {m : ℕ} {e : ℤ} {accuracy : Accuracy} {em : ExtendedMantissa}
    (hshift : shiftToTargetExponent .binary64 m e accuracy = (em, -1074))
    (hrounded : em.roundedMantissa = 0) :
    roundWithAccuracy .binary64 .positive m e accuracy = .zero .positive := by
  have hagain : (shiftToTargetExponent .binary64 0 (-1074) .exact).1.mantissa = 0 := by decide
  simp only [roundWithAccuracy, hshift, hrounded]
  exact dif_pos hagain

/-- A number below the doubles with full mantissas is rounded to a multiple of the least one. -/
theorem MadeBy.exists_of_lt (h : MadeBy x q) (hq : q < 2 ^ 52 * 2 ^ (-1074 : ℤ)) :
    ∃ v, Exact.ofFloat? x = some v ∧ v.negative = false ∧
      v.magnitude ≤ 2 ^ 52 * 2 ^ (-1074 : ℤ) := by
  obtain ⟨m, e, accuracy, r, hfits, hrep, rfl, rfl⟩ := h
  have hunit := two_zpow_pos (-1074)
  obtain ⟨em, hshift, hem⟩ := exists_shiftToTargetExponent_eq hfits hrep le_rfl (.inr rfl)
    (hq.trans (mul_lt_mul_of_pos_right (by norm_num) hunit))
  have hle : em.roundedMantissa ≤ 2 ^ 52 :=
    hem.nearestEven.ge (by rw [div_le_iff₀ hunit, Nat.cast_pow, Nat.cast_two]; exact hq.le)
  by_cases hzero : em.roundedMantissa = 0
  · rw [roundWithAccuracy_eq_zero hshift hzero]
    refine ⟨⟨false, 0, 0⟩, by decide +kernel, rfl, ?_⟩
    rw [Exact.magnitude_eq, Nat.cast_zero, zero_mul]
    exact (mul_pos (by norm_num) hunit).le
  · have hcanonical : Canonical em.roundedMantissa (-1074) := by
      refine ⟨Nat.pos_of_ne_zero hzero, le_rfl, ?_⟩
      rcases Nat.lt_or_eq_of_le hle with hlt | heq
      · exact .inr ⟨hlt, rfl⟩
      · rw [heq]
        exact .inl Nat.log2_two_pow
    have hunpack : Float.Model.unpack (Float.toModel
        ⟨.pack (.finite .positive em.roundedMantissa (-1074) hcanonical.pos)⟩) = _ :=
      unpack_pack_of_canonical hcanonical (by decide)
    rw [roundWithAccuracy_eq_of_shift (k := 0) hcanonical .positive hshift
      (by rw [pow_zero, mul_one]) (by rw [Nat.cast_zero, sub_zero])]
    refine ⟨⟨false, em.roundedMantissa, -1074⟩, ?_, rfl, ?_⟩
    · rw [Exact.ofFloat?, hunpack]
      rfl
    · rw [Exact.magnitude_eq]
      exact mul_le_mul_of_nonneg_right (by exact_mod_cast hle) hunit.le

/-- **What is made of a small number is small.** -/
theorem MadeBy.exists_small (h : MadeBy x q) (hq : q ≤ 1 / 4) :
    ∃ v, Exact.ofFloat? x = some v ∧ v.negative = false ∧ v.magnitude ≤ 1 / 4 := by
  have hbinade : (2 : ℚ) ^ 52 * 2 ^ (-1074 : ℤ) = 2 ^ (-1022 : ℤ) := by
    rw [← zpow_natCast, ← zpow_add₀ two_ne_zero]
    rfl
  rcases le_or_gt ((2 : ℚ) ^ (-1022 : ℤ)) q with hlow | hlow
  · obtain ⟨r, hr, hround⟩ := h.exists_hasValue hlow (lt_two_zpow_of_lt (by linarith))
    obtain ⟨v, hv, hsign, rfl⟩ := ofFloat?_of_hasValue hr
    have hshort : Short (1 / 4) := by exact_mod_cast short_div_two_pow (n := 1) (by decide) 2
    exact ⟨v, hv, hsign, hround.ge hshort hq⟩
  · have hquarter : (2 : ℚ) ^ (-1022 : ℤ) ≤ 1 / 4 :=
      calc (2 : ℚ) ^ (-1022 : ℤ) ≤ 2 ^ (-2 : ℤ) := zpow_le_zpow_right₀ one_le_two (by decide)
        _ = 1 / 4 := by norm_num
    rw [← hbinade] at hlow hquarter
    obtain ⟨v, hv, hsign, hle⟩ := h.exists_of_lt hlow
    exact ⟨v, hv, hsign, hle.trans hquarter⟩

/-! ## Hours -/

theorem hasValue_hour : HasValue 3600.0 3600 :=
  ⟨225 * 2 ^ 45, -41, by decide, rfl, (Nat.log2_eq_iff (by decide)).2 (by decide), by decide,
    by decide, by norm_num⟩

theorem roundToInt64_of_ofFloat? (hv : Exact.ofFloat? x = some v) :
    roundToInt64 x = clampInt64 (v.signed ⌊v.magnitude + 1 / 2⌋₊) := by
  simp only [roundToInt64, hv, v.roundMagnitude_eq]

section
variable (hv : Exact.ofFloat? x = some v)
include hv

/-- The product has the sign of the number of hours. -/
theorem exists_mul_hour (hm : v.mantissa ≠ 0) : ∃ z, MadeBy z (v.magnitude * 3600) ∧
    ∀ w, Exact.ofFloat? z = some w → w.negative = false →
      roundToInt64 (x * 3600.0) = clampInt64 (v.signed ⌊w.magnitude + 1 / 2⌋₊) := by
  obtain ⟨hx, habs⟩ := eq_withSign_abs hv hm
  refine ⟨x.abs * 3600.0, .mul habs hasValue_hour, fun w hw hsign => ?_⟩
  have hproduct : x * 3600.0 = withSign v.negative (x.abs * 3600.0) := by
    conv_lhs => rw [hx]
    exact withSign_mul habs hasValue_hour.positiveValue
  rw [hproduct, roundToInt64_of_ofFloat? (ofFloat?_withSign v.negative hw hsign)]
  rfl

/-- **Less than a second** is rounded to none. -/
theorem roundToInt64_mul_hour_of_lt (hsmall : v.magnitude < 1 / 2 ^ 14) :
    roundToInt64 (x * 3600.0) = 0 := by
  by_cases hm : v.mantissa = 0
  · rcases unpack_of_ofFloat? hv with ⟨s, hu, -⟩ | ⟨s, m, e, hpos, -, rfl⟩
    · rw [eq_pack_unpack x, hu]
      cases s <;> decide +kernel
    · exact absurd hm hpos.ne'
  · obtain ⟨z, hz, hround⟩ := exists_mul_hour hv hm
    obtain ⟨w, hw, hsign, hle⟩ := hz.exists_small (by linarith)
    have hfloor : ⌊w.magnitude + 1 / 2⌋₊ = 0 := Nat.floor_eq_zero.2 (by linarith)
    rw [hround w hw hsign, hfloor]
    cases hnegative : v.negative <;> simp only [Exact.signed, hnegative] <;> decide

/-- **Hours in seconds are much more than the hours**, with the same sign. -/
theorem exists_roundToInt64_mul_hour (hlow : 1 / 2 ≤ v.magnitude) (hhigh : v.magnitude ≤ 2 ^ 64) :
    ∃ p : ℕ, roundToInt64 (x * 3600.0) = clampInt64 (v.signed p) ∧ 4 * v.magnitude ≤ p := by
  have hm : v.mantissa ≠ 0 := by
    intro hzero
    rw [Exact.magnitude_eq, hzero, Nat.cast_zero, zero_mul] at hlow
    norm_num at hlow
  obtain ⟨z, hz, hround⟩ := exists_mul_hour hv hm
  obtain ⟨r, hr, hnear⟩ := hz.exists_hasValue (two_zpow_le_of_le (by linarith))
    (lt_two_zpow_of_lt (by linarith))
  obtain ⟨w, hw, hsign, rfl⟩ := ofFloat?_of_hasValue hr
  refine ⟨_, hround w hw hsign, ?_⟩
  have hclose := (abs_le.1 hnear.abs_sub_le_div).2
  have hfloor := Nat.lt_floor_add_one (w.magnitude + 1 / 2)
  linarith

end

/-! ## Doubles near a number -/

/-- **The double is near the number**: it has the same sign, and neither is more than twice as
    great as the other. -/
def Near (x : Float) (q : ℚ) : Prop :=
  ∃ v a, Exact.ofFloat? x = some v ∧ 0 ≤ a ∧ q = signFactor v.negative * a ∧
    a ≤ 2 * v.magnitude ∧ v.magnitude ≤ 2 * a

theorem Exact.cast_signed (v : Exact) (p : ℕ) :
    ((v.signed p : ℤ) : ℚ) = signFactor v.negative * p := by
  rw [signed, signFactor]
  split <;> simp

theorem near_value (hv : Exact.ofFloat? x = some v) : Near x v.value := by
  have hnonneg := v.magnitude_nonneg
  exact ⟨v, v.magnitude, hv, hnonneg, rfl, by linarith, by linarith⟩

/-- A numeral is read as a double near its number, unless that is very small or great. -/
theorem Numeral.near_value (N : Numeral)
    (h : N.magnitude = 0 ∨ 1 ≤ N.magnitude ∧ N.magnitude ≤ 2 ^ 64) :
    Near (ofDecimal N.negative N.mantissa N.scale) N.value := by
  have hten := ten_zpow_pos N.scale
  rcases h with hzero | ⟨hlow, hhigh⟩
  · have hmantissa : N.mantissa = 0 := by
      rw [magnitude, mul_eq_zero, or_iff_left hten.ne'] at hzero
      exact_mod_cast hzero
    have hv : Exact.ofFloat? (ofDecimal N.negative N.mantissa N.scale) =
        some ⟨N.negative, 0, 0⟩ := by
      rw [hmantissa, ofDecimal_zero]
      cases N.negative <;> rfl
    refine ⟨_, 0, hv, le_rfl, ?_, ?_, ?_⟩
    · rw [value, hzero]
    · rw [Exact.magnitude_eq, Nat.cast_zero, zero_mul, mul_zero]
    · rw [Exact.magnitude_eq, Nat.cast_zero, zero_mul, mul_zero]
  · have hmantissa : 0 < N.mantissa := by
      by_contra hzero
      rw [magnitude, Nat.eq_zero_of_not_pos hzero, Nat.cast_zero, zero_mul] at hlow
      linarith
    have hleast : (2 : ℚ) ^ (-1075 : ℤ) ≤ 1 := zpow_le_one_of_nonpos₀ one_le_two (by decide)
    have hgreatest : N.magnitude < 2 ^ (1023 : ℤ) := lt_two_zpow_of_lt (by linarith)
    have hmade : MadeBy (ofDecimal false N.mantissa N.scale) N.magnitude :=
      madeBy_ofDecimal hmantissa (hleast.trans hlow)
        (hgreatest.trans (zpow_lt_zpow_right₀ one_lt_two (by decide)))
    obtain ⟨r, hr, hnear⟩ := hmade.exists_hasValue (two_zpow_le_of_le (by linarith)) hgreatest
    obtain ⟨w, hw, hsign, rfl⟩ := ofFloat?_of_hasValue hr
    have hclose := abs_le.1 hnear.abs_sub_le_div
    refine ⟨_, N.magnitude, ofFloat?_withSign N.negative hw hsign, by linarith, rfl,
      ?_, ?_⟩
    · show N.magnitude ≤ 2 * w.magnitude
      linarith
    · show w.magnitude ≤ 2 * N.magnitude
      linarith

/-- **A whole number of hours** does not have that number of seconds, unless it is zero or the
    seconds are too many for 64 bits. -/
theorem Near.roundToInt64_mul_hour_eq_iff {n : ℤ} (h : Near x n) (hlow : minInt64 ≤ n)
    (hhigh : n ≤ maxInt64) :
    roundToInt64 (x * 3600.0) = n ↔ n = 0 ∨ n = minInt64 ∨ n = maxInt64 := by
  obtain ⟨v, a, hv, ha, hq, hle, hge⟩ := h
  have habs : a = n.natAbs := by
    rw [Nat.cast_natAbs, Int.cast_abs, hq, abs_signFactor_mul _ ha]
  unfold minInt64 at hlow
  unfold maxInt64 at hhigh
  by_cases hzero : n = 0
  · rw [hzero, Int.natAbs_zero, Nat.cast_zero] at habs
    rw [roundToInt64_mul_hour_of_lt hv (by linarith), hzero]
    exact iff_of_true rfl (.inl rfl)
  · have hone : (1 : ℚ) ≤ n.natAbs := by exact_mod_cast Int.natAbs_pos.2 hzero
    have hlimit : (n.natAbs : ℚ) ≤ 2 ^ 63 := by exact_mod_cast (by omega : n.natAbs ≤ 2 ^ 63)
    obtain ⟨p, hround, hp⟩ := exists_roundToInt64_mul_hour hv (by linarith) (by linarith)
    have htwice : 2 * n.natAbs ≤ p := by exact_mod_cast (by linarith : (2 : ℚ) * n.natAbs ≤ p)
    have hsign : n = v.signed n.natAbs := by
      rw [habs, ← Exact.cast_signed] at hq
      exact Int.cast_injective hq
    rw [hround, clampInt64]
    unfold minInt64 maxInt64
    cases hnegative : v.negative with
    | false =>
      simp only [Exact.signed, hnegative, Bool.false_eq_true, if_false] at hsign ⊢
      omega
    | true =>
      simp only [Exact.signed, hnegative, if_true] at hsign ⊢
      omega

end EventTable.Number
