/-
  EventTable — quotients of doubles, and products that may be too great for one.

  * `RoundsTo.mono`: rounding to the nearest double keeps the order, and
    `RoundsTo.abs_sub_le_half` and `RoundsTo.abs_sub_le_div` bound its error;
  * `Short.exists_multiple`: great doubles are whole multiples of a unit;
  * `represents_div`: the whole part of a quotient of mantissas, with what is known of the
    remainder, stands for the quotient, and `exists_hasValue_div`: so quotients of doubles
    are rounded to the nearest one;
  * `Rounded` ties a value that may be too great to its double or to infinity, and
    `exists_rounded_mul`: so products are rounded.
-/
import EventTable.Proofs.RoundedUnits

namespace EventTable.Number

open Float.Model (UnpackedFloat Format totalExponent)
open Float.Model.UnpackedFloat

variable {q q' r r' : ℚ}

/-! ## Rounding keeps the order -/

theorem NearestEven.le_of_le {n n' : ℕ} (h : NearestEven q n) (h' : NearestEven q n') :
    n ≤ n' := by
  by_contra hlt
  have hstep : (n' : ℚ) + 1 ≤ n := by exact_mod_cast not_le.1 hlt
  have hnear := (abs_le.1 h.near).1
  have hnear' := (abs_le.1 h'.near).2
  -- `q` lies in the middle between the two, and only one of them is even
  have hnext : n = n' + 1 := by exact_mod_cast (by linarith : (n : ℚ) = n' + 1)
  have heven : Even n := h.even (le_antisymm h.near (le_abs.2 (.inr (by linarith))))
  have heven' : Even n' := h'.even (le_antisymm h'.near (le_abs.2 (.inl (by linarith))))
  rw [hnext, Nat.even_add_one] at heven
  exact heven heven'

/-- There is one nearest double. -/
theorem RoundsTo.unique (h : RoundsTo q r) (h' : RoundsTo q r') : r = r' := by
  obtain ⟨n, t, hlow, hhigh, hn, rfl⟩ := h
  obtain ⟨n', t', hlow', hhigh', hn', rfl⟩ := h'
  obtain rfl := le_antisymm (le_of_binades hlow hhigh') (le_of_binades hlow' hhigh)
  rw [le_antisymm (hn.le_of_le hn') (hn'.le_of_le hn)]

/-- **Rounding keeps the order.**  Were the order of the results another one, both values
    would lie in the middle between them, and so be equal. -/
theorem RoundsTo.mono (h : RoundsTo q r) (h' : RoundsTo q' r') (hle : q ≤ q') : r ≤ r' := by
  by_contra hlt
  rw [not_le] at hlt
  have hmiddle : r + r' ≤ 2 * q := by
    have hnear := h.abs_sub_le h'.short
    by_contra hq
    rw [abs_of_nonpos (by linarith), le_abs] at hnear
    rcases hnear with hnear | hnear <;> linarith
  have hmiddle' : 2 * q' ≤ r + r' := by
    have hnear := h'.abs_sub_le h.short
    by_contra hq
    rw [abs_of_nonneg (by linarith), le_abs] at hnear
    rcases hnear with hnear | hnear <;> linarith
  obtain rfl : q = q' := by linarith
  exact hlt.ne (h'.unique h)

/-- The error is at most half a unit of the binade, or of a higher one. -/
theorem RoundsTo.abs_sub_le_half (h : RoundsTo q r) {t : ℤ} (ht : q < 2 ^ 53 * 2 ^ t) :
    |q - r| ≤ 2 ^ t / 2 := by
  obtain ⟨n, s, hlow, -, hn, rfl⟩ := h
  have hunit := two_zpow_pos s
  calc |q - n * 2 ^ s| = |q / 2 ^ s - n| * 2 ^ s := by
        rw [← abs_of_pos hunit, ← abs_mul, sub_mul, abs_of_pos hunit, div_mul_cancel₀ _ hunit.ne']
    _ ≤ 1 / 2 * 2 ^ s := mul_le_mul_of_nonneg_right hn.near hunit.le
    _ ≤ 1 / 2 * 2 ^ t := mul_le_mul_of_nonneg_left
        (zpow_le_zpow_right₀ one_le_two (le_of_binades hlow ht)) (by norm_num)
    _ = 2 ^ t / 2 := by ring

/-- **The relative error** is at most half a unit of the last of 53 digits. -/
theorem RoundsTo.abs_sub_le_div (h : RoundsTo q r) : |q - r| ≤ q / 2 ^ 53 := by
  have hhalf := h
  obtain ⟨n, t, hlow, hhigh, -, -⟩ := h
  linarith [hhalf.abs_sub_le_half hhigh]

/-- From `2 ^ 52` units on, the values of doubles are whole multiples of the unit. -/
theorem Short.exists_multiple {c : ℚ} (h : Short c) {t : ℤ} (ht : 2 ^ 52 * 2 ^ t ≤ c) :
    ∃ n : ℕ, c = n * 2 ^ t := by
  obtain ⟨n, s, hn, rfl⟩ := h
  rcases lt_or_ge s t with hst | hts
  · -- then the mantissa is `2 ^ 53`, and the unit is the next greater one
    have hnext : (2 : ℚ) ^ s * 2 ≤ 2 ^ t := by
      rw [← zpow_add_one₀ two_ne_zero]
      exact zpow_le_zpow_right₀ one_le_two hst
    have hnq : (n : ℚ) * 2 ^ s ≤ 2 ^ 53 * 2 ^ s :=
      mul_le_mul_of_nonneg_right (by exact_mod_cast hn) (two_zpow_pos s).le
    exact ⟨2 ^ 52, by push_cast; linarith⟩
  · refine ⟨n * 2 ^ (s - t).toNat, ?_⟩
    rw [Nat.cast_mul, Nat.cast_pow, Nat.cast_two, mul_assoc, ← zpow_natCast,
      ← zpow_add₀ two_ne_zero]
    congr 2
    omega

/-! ## Quotients -/

/-- The whole part of a quotient stands for it, with what is known of the remainder. -/
theorem represents_div {n d : ℕ} (hd : 0 < d) :
    Represents (.ofMantissaAndAccuracy (n / d) (accuracyOfFraction (n % d) d)) (n / d : ℚ) := by
  have hdq : (0 : ℚ) < d := by exact_mod_cast hd
  have hn : (n : ℚ) / d = (n / d : ℕ) + (n % d : ℕ) / d := by
    rw [div_eq_iff hdq.ne', add_mul, div_mul_cancel₀ _ hdq.ne', mul_comm]
    exact_mod_cast (Nat.div_add_mod n d).symm
  have hmod : ((n % d : ℕ) : ℚ) / d < 1 := by
    rw [div_lt_one hdq]
    exact_mod_cast Nat.mod_lt n hd
  have hhalf : ∀ c : ℚ, c / d < 1 / 2 ↔ 2 * c < d := by
    intro c
    rw [div_lt_iff₀ hdq]
    constructor <;> intro h <;> linarith
  rw [hn, accuracyOfFraction]
  split
  · rename_i hzero
    rw [hzero, Nat.cast_zero, zero_div, add_zero]
    exact represents_exact _
  · rename_i hne
    have hpos : (0 : ℚ) < (n % d : ℕ) / d := div_pos (by exact_mod_cast Nat.pos_of_ne_zero hne) hdq
    rcases lt_trichotomy (2 * (n % d)) d with hcmp | hcmp | hcmp
    · have hlt : ((n % d : ℕ) : ℚ) / d < 1 / 2 := (hhalf _).2 (by exact_mod_cast hcmp)
      rw [Nat.compare_eq_lt.2 hcmp]
      simp only [Represents, ExtendedMantissa.ofMantissaAndAccuracy]
      constructor <;> linarith
    · have heq : ((n % d : ℕ) : ℚ) / d = 1 / 2 := by
        rw [div_eq_iff hdq.ne']
        have hcast : 2 * ((n % d : ℕ) : ℚ) = d := by exact_mod_cast hcmp
        linarith
      rw [Nat.compare_eq_eq.2 hcmp, heq]
      rfl
    · have hlt : 1 / 2 < ((n % d : ℕ) : ℚ) / d := by
        rw [lt_div_iff₀ hdq]
        have hcast : (d : ℚ) < 2 * (n % d : ℕ) := by exact_mod_cast hcmp
        linarith
      rw [Nat.compare_eq_gt.2 hcmp]
      simp only [Represents, ExtendedMantissa.ofMantissaAndAccuracy]
      constructor <;> linarith

/-- A full mantissa is divided by another one with 53 binary digits behind the point. -/
theorem divCore_eq {m m' : ℕ} {e e' : ℤ} (hm : m.log2 = 52) (hm' : m'.log2 = 52)
    (he : -1021 ≤ e - e') : divCore .binary64 m e m' e' =
      (m * 2 ^ 53 / m', e - e' - 53, accuracyOfFraction (m * 2 ^ 53 % m') m') := by
  have htarget : min (e - e') (Format.binary64.targetExponent
      (totalExponent m e - totalExponent m' e')) = e - e' - 53 := by
    rw [targetExponent_binary64, totalExponent, totalExponent, hm, hm']
    omega
  have hshift : (e - e' - (e - e' - 53)).toNat = 53 := by omega
  simp only [divCore, htarget, hshift, Nat.shiftLeft_eq]

section
variable {m m' : ℕ} (hm : m.log2 = 52) (hm' : m'.log2 = 52) (hpos : 0 < m) (hpos' : 0 < m')
include hm hm' hpos hpos'

/-- So the whole part of the quotient has 53 digits or more. -/
theorem log2_div_ge : 52 ≤ (m * 2 ^ 53 / m').log2 := by
  have hfull := (Nat.log2_eq_iff hpos.ne').1 hm
  have hfull' := (Nat.log2_eq_iff hpos'.ne').1 hm'
  have hle : 2 ^ 52 ≤ m * 2 ^ 53 / m' := by
    rw [Nat.le_div_iff_mul_le hpos']
    exact Nat.mul_le_mul hfull.1 hfull'.2.le
  exact (Nat.le_log2 (by omega)).2 hle

theorem mul_zpow_div_lt (e e' : ℤ) : (m : ℚ) * 2 ^ e / (m' * 2 ^ e') < 2 ^ (e - e' + 1) := by
  have hfull := (Nat.log2_eq_iff hpos.ne').1 hm
  have hfull' := (Nat.log2_eq_iff hpos'.ne').1 hm'
  have hpos'q : (0 : ℚ) < m' := by exact_mod_cast hpos'
  have hlt : (m : ℚ) < 2 * m' := by exact_mod_cast (by omega : m < 2 * m')
  have hmul := mul_lt_mul_of_pos_right hlt (two_zpow_pos e)
  have hunit : (2 : ℚ) ^ (e - e' + 1) * (m' * 2 ^ e') = 2 * m' * 2 ^ e := by
    rw [zpow_add_one₀ two_ne_zero, zpow_sub₀ two_ne_zero]
    have hne := (two_zpow_pos e').ne'
    field_simp
  rw [div_lt_iff₀ (mul_pos hpos'q (two_zpow_pos e')), hunit]
  exact hmul

end

variable {x y : Float} {a b : ℚ}

/-- **A quotient** is rounded to the nearest double. -/
theorem exists_hasValue_div (hx : HasValue x a) (hy : HasValue y b)
    (hlow : (2 : ℚ) ^ (-1021 : ℤ) ≤ a / b) (hhigh : a / b < 2 ^ (1023 : ℤ)) :
    ∃ r, HasValue (x / y) r ∧ RoundsTo (a / b) r := by
  obtain ⟨m, e, hpos, hux, hm, -, -, rfl⟩ := hx
  obtain ⟨m', e', hpos', huy, hm', -, -, rfl⟩ := hy
  have hunit : -1021 ≤ e - e' := by
    have hlt := hlow.trans_lt (mul_zpow_div_lt hm hm' hpos hpos' e e')
    rw [zpow_lt_zpow_iff_right₀ one_lt_two] at hlt
    omega
  have hq : (m : ℚ) * (2 : ℚ) ^ e / (m' * (2 : ℚ) ^ e') =
      (m * 2 ^ 53 : ℕ) / m' * (2 : ℚ) ^ (e - e' - 53) := by
    have hne := (two_zpow_pos e').ne'
    have hne' : (m' : ℚ) ≠ 0 := by exact_mod_cast hpos'.ne'
    rw [zpow_sub₀ two_ne_zero, zpow_sub₀ two_ne_zero]
    push_cast
    field_simp
  have hdiv : x / y = ⟨.pack (roundWithAccuracy .binary64 .positive (m * 2 ^ 53 / m')
      (e - e' - 53) (accuracyOfFraction (m * 2 ^ 53 % m') m'))⟩ := by
    have hunpacked : x / y =
        .ofModel (.pack (UnpackedFloat.div .binary64 x.toModel.unpack y.toModel.unpack)) := rfl
    rw [hunpacked, hux, huy, UnpackedFloat.div]
    simp only [divCore_eq hm hm' hunit]
    rfl
  have hlow' : (2 : ℚ) ^ (-1022 : ℤ) ≤ m * 2 ^ e / (m' * 2 ^ e') :=
    (zpow_le_zpow_right₀ one_le_two (by decide)).trans hlow
  rw [hq] at hlow' hhigh ⊢
  rw [hdiv]
  exact exists_hasValue_of_bounds (log2_div_ge hm hm' hpos hpos') (represents_div hpos') hlow' hhigh

/-! ## Products that may be too great -/

/-- The double for a value of a full mantissa, or infinity if that is too great. -/
inductive Rounded (x : Float) (q : ℚ) : Prop
  | value : HasValue x q → Rounded x q
  | overflow : x = infinity → 2 ^ 1024 ≤ q → Rounded x q

theorem pack_eq_infinity {m : ℕ} {e : ℤ} (hpos : 0 < m) (he : 971 < e) :
    (⟨.pack (.finite .positive m e hpos)⟩ : Float) = infinity := by
  have hbiased : 2 ^ Format.binary64.exponentBits ≤ (e + Format.binary64.exponentBias +
      Format.binary64.mantissaBitsWithoutImplicit).toNat + 1 := by
    show 2048 ≤ (e + (1023 : Nat) + (52 : Nat)).toNat + 1
    omega
  have hpack : UnpackedFloat.pack .binary64 (.finite .positive m e hpos) =
      packedInfinity .binary64 .positive := by
    rw [UnpackedFloat.pack]
    exact if_pos hbiased
  have hmodel : Float.Model.pack (.finite .positive m e hpos) =
      Float.Model.pack (.infinity .positive) := by
    simp only [Float.Model.pack, hpack]
    rfl
  rw [hmodel]
  rfl

/-- **A product** is rounded to the nearest double, or to infinity if it is too great. -/
theorem exists_rounded_mul (hx : HasValue x a) (hy : HasValue y b)
    (hlow : (2 : ℚ) ^ (-1022 : ℤ) ≤ a * b) : ∃ r, Rounded (x * y) r ∧ RoundsTo (a * b) r := by
  obtain ⟨m, e, hm, hq, hmul⟩ := exists_mul_eq hx hy
  rw [hq] at hlow ⊢
  rw [hmul]
  obtain ⟨m', e', hpos, hround, hm', he', -, hr⟩ := exists_finite_roundWithAccuracy hm
    (represents_exact m) (le_unit_of_le hm (lt_add_one _) hlow)
  refine ⟨_, ?_, hr⟩
  rw [hround]
  rcases le_or_gt e' 971 with hle | hgt
  · exact .value ⟨m', e', hpos, unpack_pack hm' hpos he' hle, hm', he', hle, rfl⟩
  · refine .overflow (pack_eq_infinity hpos hgt) ?_
    have hfull : ((2 ^ 52 : ℕ) : ℚ) ≤ m' := by
      exact_mod_cast ((Nat.log2_eq_iff hpos.ne').1 hm').1
    calc (2 : ℚ) ^ 1024 = (2 ^ 52 : ℕ) * 2 ^ (972 : ℤ) := by
          rw [Nat.cast_pow, Nat.cast_two, ← zpow_natCast, ← zpow_natCast, ← zpow_add₀ two_ne_zero]
          rfl
      _ ≤ m' * 2 ^ e' := mul_le_mul hfull (zpow_le_zpow_right₀ one_le_two hgt)
        (two_zpow_pos _).le (Nat.cast_nonneg _)

end EventTable.Number
