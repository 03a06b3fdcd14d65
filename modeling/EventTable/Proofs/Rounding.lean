/-
  EventTable — sums and products of doubles, rounded to the nearest double.

  Values of doubles are rational numbers here.  Only positive doubles with a full
  mantissa occur: the ones that numbers to be shown are made of.

  * `HasValue` ties such a double to its value, and `NearestEven` says which whole number
    a mantissa is rounded to;
  * `RoundsTo q r` holds if `r` is the value of the double for `q`, and
    `exists_hasValue_mul` and `exists_hasValue_add`: products and sums are rounded so;
  * `RoundsTo.abs_sub_le`: no value of a double is nearer, so that rounding keeps the
    order (`RoundsTo.le`, `RoundsTo.ge`) and values that need none (`RoundsTo.eq`), and
    goes to the nearer of two neighbours (`RoundsTo.lt`, `RoundsTo.succ_le`);
  * `le_iff_of_hasValue` and `floorNat_of_hasValue`: doubles are compared and rounded
    down by their values.
-/
import EventTable.Number.Render
import EventTable.Proofs.WholeDoubles

namespace EventTable.Number

open Float.Model (UnpackedFloat Format totalExponent)
open Float.Model.UnpackedFloat

/-! ## Rounding a mantissa -/

/-- The whole number nearest to `q`; of two, the even one. -/
structure NearestEven (q : ℚ) (n : ℕ) : Prop where
  near : |q - n| ≤ 1 / 2
  even : |q - n| = 1 / 2 → Even n

/-- The number that a mantissa stands for with its round bit and its sticky bit. -/
def Represents (em : ExtendedMantissa) (q : ℚ) : Prop :=
  match em.roundBit, em.stickyBit with
  | false, false => q = em.mantissa
  | false, true => em.mantissa < q ∧ q < em.mantissa + 1 / 2
  | true, false => q = em.mantissa + 1 / 2
  | true, true => em.mantissa + 1 / 2 < q ∧ q < em.mantissa + 1

variable {em : ExtendedMantissa} {q r : ℚ}

theorem Represents.shiftRightOne (h : Represents em q) : Represents em.shiftRightOne (q / 2) := by
  obtain ⟨m, round, sticky⟩ := em
  have hm : (m : ℚ) = 2 * (m / 2 : ℕ) + (m % 2 : ℕ) := by exact_mod_cast (Nat.div_add_mod m 2).symm
  rcases Nat.mod_two_eq_zero_or_one m with hpar | hpar <;> cases round <;> cases sticky <;>
    simp only [Represents, ExtendedMantissa.shiftRightOne, hpar, Nat.cast_zero,
      Nat.cast_one] at * <;>
    grind

theorem Represents.bounds (h : Represents em q) : em.mantissa ≤ q ∧ q < em.mantissa + 1 := by
  obtain ⟨m, round, sticky⟩ := em
  cases round <;> cases sticky <;> simp only [Represents] at h ⊢ <;> constructor <;> linarith

/-- A shift to the right divides by a power of two. -/
theorem Represents.shiftRight (h : Represents em q) (k : ℕ) :
    Represents (em >>> k) (q / 2 ^ k) := by
  change Represents (Nat.repeat ExtendedMantissa.shiftRightOne k em) _
  induction k with
  | zero => simpa [Nat.repeat] using h
  | succ k ih =>
    rw [Nat.repeat, pow_succ, ← div_div]
    exact ih.shiftRightOne

theorem nearestEven_of_lt {n : ℕ} (h : |q - n| < 1 / 2) : NearestEven q n :=
  ⟨h.le, fun h' => absurd h' h.ne⟩

theorem nearestEven_of_lt_half {n : ℕ} (hlow : n ≤ q) (hhigh : q < n + 1 / 2) : NearestEven q n :=
  nearestEven_of_lt (by rw [abs_lt]; constructor <;> linarith)

theorem nearestEven_of_half_lt {n : ℕ} (hlow : n + 1 / 2 < q) (hhigh : q ≤ n + 1) :
    NearestEven q (n + 1) := by
  apply nearestEven_of_lt
  rw [Nat.cast_add, Nat.cast_one, abs_lt]
  constructor <;> linarith

/-- A half is rounded down to an even number, and up from an odd one. -/
theorem nearestEven_half (m : ℕ) : NearestEven (m + 1 / 2) (m + m % 2) := by
  rcases Nat.mod_two_eq_zero_or_one m with hm | hm
  · rw [hm, Nat.add_zero]
    exact ⟨by simp, fun _ => Nat.even_iff.2 hm⟩
  · rw [hm]
    refine ⟨?_, fun _ => Nat.even_iff.2 (by omega)⟩
    rw [Nat.cast_add, Nat.cast_one, abs_le]
    constructor <;> linarith

/-- A mantissa is rounded to the nearest whole number, a tie to the even one. -/
theorem Represents.nearestEven (h : Represents em q) : NearestEven q em.roundedMantissa := by
  obtain ⟨m, round, sticky⟩ := em
  cases round <;> cases sticky <;>
    simp only [Represents, ExtendedMantissa.roundedMantissa, ExtendedMantissa.accuracy,
      Accuracy.roundToNearestEven] at h ⊢
  · exact nearestEven_of_lt_half h.ge (by linarith)
  · exact nearestEven_of_lt_half h.1.le h.2
  · rw [h]
    exact nearestEven_half m
  · exact nearestEven_of_half_lt h.1 h.2.le

theorem NearestEven.le {j n : ℕ} (h : NearestEven q n) (hj : (j : ℚ) ≤ q) : j ≤ n := by
  by_contra hn
  have hn' : (n : ℚ) + 1 ≤ j := by exact_mod_cast Nat.lt_of_not_le hn
  have := (abs_le.1 h.near).2
  linarith

theorem NearestEven.ge {j n : ℕ} (h : NearestEven q n) (hj : q ≤ j) : n ≤ j := by
  by_contra hn
  have hn' : (j : ℚ) + 1 ≤ n := by exact_mod_cast Nat.lt_of_not_le hn
  have := (abs_le.1 h.near).1
  linarith

theorem NearestEven.eq_of_half {m n : ℕ} (h : NearestEven (m + 1 / 2) n) : n = m + m % 2 := by
  have hlow : m ≤ n := h.le (by linarith)
  have hhigh : n ≤ m + 1 := h.ge (by push_cast; linarith)
  have heven : Even n := by
    apply h.even
    rcases Nat.le_and_le_add_one_iff.1 ⟨hlow, hhigh⟩ with rfl | rfl
    · norm_num
    · push_cast
      norm_num
  have := Nat.even_iff.1 heven
  omega

/-- From half a unit above an odd number on, rounding is upward. -/
theorem NearestEven.succ_le {m n : ℕ} (h : NearestEven q n) (hm : Odd m) (hq : m + 1 / 2 ≤ q) :
    m + 1 ≤ n := by
  by_contra hn
  have hle : (n : ℚ) ≤ m := by exact_mod_cast Nat.le_of_lt_succ (Nat.lt_of_not_le hn)
  have hnear := (abs_le.1 h.near).2
  have heq : n = m := by exact_mod_cast (by linarith : (n : ℚ) = m)
  have htie : |q - n| = 1 / 2 := le_antisymm h.near (le_abs.2 (.inl (by linarith)))
  exact Nat.not_even_iff_odd.2 hm (heq ▸ h.even htie)

/-! ## Values of doubles -/

/-- The double is positive, its mantissa is full, and its value is `q`. -/
def HasValue (x : Float) (q : ℚ) : Prop :=
  ∃ m e h, x.toModel.unpack = .finite .positive m e h ∧ m.log2 = 52 ∧ -1074 ≤ e ∧ e ≤ 971 ∧
    q = m * 2 ^ e

/-- The value `q` lies in the binade of the unit `2 ^ t`, and `r` is the nearest multiple
    of the unit. -/
def RoundsTo (q r : ℚ) : Prop :=
  ∃ (n : ℕ) (t : ℤ), 2 ^ 52 * 2 ^ t ≤ q ∧ q < 2 ^ 53 * 2 ^ t ∧ NearestEven (q / 2 ^ t) n ∧
    r = n * 2 ^ t

theorem mantissa_ofMantissaAndAccuracy (m : ℕ) (accuracy : Accuracy) :
    (ExtendedMantissa.ofMantissaAndAccuracy m accuracy).mantissa = m := by
  rcases accuracy with _ | ⟨_ | _ | _⟩ <;> rfl

theorem represents_exact (m : ℕ) : Represents (.ofMantissaAndAccuracy m .exact) m := rfl

theorem two_zpow_pos (t : ℤ) : (0 : ℚ) < 2 ^ t := zpow_pos two_pos t

section
variable {m : ℕ} {e : ℤ} (hm : 52 ≤ m.log2)
include hm

theorem log2_bounds : 2 ^ 52 * 2 ^ (m.log2 - 52) ≤ m ∧ m < 2 ^ 53 * 2 ^ (m.log2 - 52) := by
  have hne : m ≠ 0 := by
    rintro rfl
    exact absurd hm (by decide)
  have hlow := Nat.log2_self_le hne
  have hhigh := Nat.lt_log2_self (n := m)
  rw [← pow_add, ← pow_add]
  rw [show 52 + (m.log2 - 52) = m.log2 by omega, show 53 + (m.log2 - 52) = m.log2 + 1 by omega]
  exact ⟨hlow, hhigh⟩

/-- The first rounding is to the unit of the binade. -/
theorem exists_shiftToTargetExponent {accuracy : Accuracy}
    (hq : Represents (.ofMantissaAndAccuracy m accuracy) q) (he : -1074 ≤ e + (m.log2 - 52 : ℕ)) :
    ∃ em, shiftToTargetExponent .binary64 m e accuracy = (em, e + (m.log2 - 52 : ℕ)) ∧
      Represents em (q / 2 ^ (m.log2 - 52)) := by
  have ht : Format.binary64.targetExponent (totalExponent m e) = e + (m.log2 - 52 : ℕ) := by
    rw [targetExponent_binary64, totalExponent]
    omega
  have hk : (e + (m.log2 - 52 : ℕ) - e).toNat = m.log2 - 52 := by omega
  refine ⟨ExtendedMantissa.ofMantissaAndAccuracy m accuracy >>> (m.log2 - 52), ?_,
    hq.shiftRight _⟩
  rw [shiftToTargetExponent, ht, shiftToExponent, hk]

end

/-- The second rounding only brings a mantissa of 54 digits, a power of two, down to 53. -/
theorem exists_shift_of_le {n : ℕ} {t : ℤ} (hlow : 2 ^ 52 ≤ n) (hhigh : n ≤ 2 ^ 53)
    (ht : -1074 ≤ t) : ∃ (m : ℕ) (e : ℤ), m.log2 = 52 ∧ 0 < m ∧ t ≤ e ∧ e ≤ t + 1 ∧
      (n : ℚ) * 2 ^ t = m * 2 ^ e ∧
      shiftToTargetExponent .binary64 n t .exact = (⟨m, false, false⟩, e) := by
  rcases Nat.lt_or_eq_of_le hhigh with hlt | rfl
  · have hpos : 0 < n := by omega
    have hm : n.log2 = 52 := (Nat.log2_eq_iff hpos.ne').2 ⟨hlow, hlt⟩
    have hshift := shiftToTargetExponent_mul_two_pow (e := t) hpos (by omega) 0
    rw [pow_zero, mul_one, Nat.cast_zero, sub_zero] at hshift
    exact ⟨n, t, hm, hpos, le_rfl, by omega, rfl, hshift⟩
  · have hm : (2 ^ 52).log2 = 52 := Nat.log2_two_pow
    have hshift := shiftToTargetExponent_mul_two_pow (e := t + 1) (Nat.two_pow_pos 52)
      (by rw [hm]; omega) 1
    rw [← pow_add, Nat.cast_one, add_sub_cancel_right] at hshift
    refine ⟨2 ^ 52, t + 1, hm, by decide, by omega, le_rfl, ?_, hshift⟩
    rw [zpow_add_one₀ two_ne_zero]
    push_cast
    ring

/-- **A mantissa of 53 digits or more** is rounded to the nearest one of 53 digits. -/
theorem exists_finite_roundWithAccuracy {m : ℕ} {e : ℤ} {accuracy : Accuracy} (hm : 52 ≤ m.log2)
    (hq : Represents (.ofMantissaAndAccuracy m accuracy) q) (he : -1074 ≤ e + (m.log2 - 52 : ℕ)) :
    ∃ (m' : ℕ) (e' : ℤ) (hpos : 0 < m'),
      roundWithAccuracy .binary64 .positive m e accuracy = .finite .positive m' e' hpos ∧
      m'.log2 = 52 ∧ -1074 ≤ e' ∧ e' ≤ e + (m.log2 - 52 : ℕ) + 1 ∧
      RoundsTo (q * 2 ^ e) (m' * 2 ^ e') := by
  obtain ⟨em, hem, hrep⟩ := exists_shiftToTargetExponent hm hq he
  obtain ⟨hqlow, hqhigh⟩ := hq.bounds
  rw [mantissa_ofMantissaAndAccuracy] at hqlow hqhigh
  obtain ⟨hlow, hhigh⟩ := log2_bounds hm
  generalize m.log2 - 52 = k at *
  have hk : (0 : ℚ) < 2 ^ k := pow_pos two_pos k
  have hn : NearestEven (q / 2 ^ k) em.roundedMantissa := hrep.nearestEven
  have hvalue : q * 2 ^ e = q / 2 ^ k * 2 ^ (e + k) := by
    rw [zpow_add₀ two_ne_zero, zpow_natCast]
    field_simp
  have hlow' : (2 : ℚ) ^ 52 ≤ q / 2 ^ k := by
    rw [le_div_iff₀ hk]
    exact le_trans (by exact_mod_cast hlow) hqlow
  have hhigh' : q / 2 ^ k < 2 ^ 53 := by
    rw [div_lt_iff₀ hk]
    exact hqhigh.trans_le (by exact_mod_cast hhigh)
  obtain ⟨m', e', hm', hpos, hte, hte', hmantissa, hshift⟩ := exists_shift_of_le (t := e + k)
    (hn.le (by exact_mod_cast hlow')) (hn.ge (by exact_mod_cast hhigh'.le)) he
  refine ⟨m', e', hpos, ?_, hm', he.trans hte, hte', em.roundedMantissa, e + k, ?_, ?_, ?_,
    hmantissa.symm⟩
  · simp only [roundWithAccuracy, hem, hshift]
    exact dif_neg hpos.ne'
  · rw [hvalue]
    exact mul_le_mul_of_nonneg_right hlow' (two_zpow_pos _).le
  · rw [hvalue]
    exact mul_lt_mul_of_pos_right hhigh' (two_zpow_pos _)
  · rw [hvalue, mul_div_cancel_right₀ _ (two_zpow_pos _).ne']
    exact hn

/-- From `2 ^ -1022` on the unit of the binade is not too small. -/
theorem le_unit_of_le {m : ℕ} {e : ℤ} (hm : 52 ≤ m.log2) (hq : q < m + 1)
    (hlow : (2 : ℚ) ^ (-1022 : ℤ) ≤ q * 2 ^ e) : -1074 ≤ e + (m.log2 - 52 : ℕ) := by
  have hhigh : (m : ℚ) + 1 ≤ 2 ^ 53 * 2 ^ (m.log2 - 52) := by exact_mod_cast (log2_bounds hm).2
  have hlt : (2 : ℚ) ^ (-1022 : ℤ) < 2 ^ (((53 : ℕ) : ℤ) + ((m.log2 - 52 : ℕ) + e)) := by
    rw [zpow_add₀ two_ne_zero, zpow_add₀ two_ne_zero, zpow_natCast, zpow_natCast, ← mul_assoc]
    exact hlow.trans_lt (mul_lt_mul_of_pos_right (hq.trans_le hhigh) (two_zpow_pos e))
  rw [zpow_lt_zpow_iff_right₀ one_lt_two] at hlt
  omega

/-- The binades from `2 ^ -1022` to `2 ^ 1023` are those of doubles with a full mantissa. -/
theorem exists_hasValue_of_bounds {m : ℕ} {e : ℤ} {accuracy : Accuracy} (hm : 52 ≤ m.log2)
    (hq : Represents (.ofMantissaAndAccuracy m accuracy) q)
    (hlow : (2 : ℚ) ^ (-1022 : ℤ) ≤ q * 2 ^ e) (hhigh : q * 2 ^ e < 2 ^ (1023 : ℤ)) :
    ∃ r, HasValue ⟨.pack (roundWithAccuracy .binary64 .positive m e accuracy)⟩ r ∧
      RoundsTo (q * 2 ^ e) r := by
  obtain ⟨hqlow, hqhigh⟩ := hq.bounds
  rw [mantissa_ofMantissaAndAccuracy] at hqlow hqhigh
  have hunit : e + (m.log2 - 52 : ℕ) ≤ 970 := by
    have hfull : (2 : ℚ) ^ 52 * 2 ^ (m.log2 - 52) ≤ m := by exact_mod_cast (log2_bounds hm).1
    have hlt : (2 : ℚ) ^ (((52 : ℕ) : ℤ) + ((m.log2 - 52 : ℕ) + e)) < 2 ^ (1023 : ℤ) := by
      rw [zpow_add₀ two_ne_zero, zpow_add₀ two_ne_zero, zpow_natCast, zpow_natCast, ← mul_assoc]
      exact (mul_le_mul_of_nonneg_right (hfull.trans hqlow) (two_zpow_pos e).le).trans_lt hhigh
    rw [zpow_lt_zpow_iff_right₀ one_lt_two] at hlt
    omega
  obtain ⟨m', e', hpos, hround, hm', he', hle, hr⟩ :=
    exists_finite_roundWithAccuracy hm hq (le_unit_of_le hm hqhigh hlow)
  refine ⟨m' * 2 ^ e', ⟨m', e', hpos, ?_, hm', he', by omega, rfl⟩, hr⟩
  rw [hround]
  exact unpack_pack hm' hpos he' (by omega)

/-! ## Products and sums -/

variable {x y : Float} {a b : ℚ}

/-- A product is that of the mantissas, rounded. -/
theorem exists_mul_eq (hx : HasValue x a) (hy : HasValue y b) :
    ∃ (m : ℕ) (e : ℤ), 52 ≤ m.log2 ∧ a * b = m * 2 ^ e ∧
      x * y = ⟨.pack (roundWithAccuracy .binary64 .positive m e .exact)⟩ := by
  obtain ⟨m, e, hpos, hux, hm, -, -, rfl⟩ := hx
  obtain ⟨m', e', hpos', huy, -, -, -, rfl⟩ := hy
  refine ⟨m * m', e + e', ?_, ?_, ?_⟩
  · rw [Nat.le_log2 (Nat.mul_pos hpos hpos').ne']
    exact ((Nat.log2_eq_iff hpos.ne').1 hm).1.trans (Nat.le_mul_of_pos_right m hpos')
  · rw [zpow_add₀ two_ne_zero]
    push_cast
    ring
  · show Float.ofModel (.pack (UnpackedFloat.mul .binary64 x.toModel.unpack y.toModel.unpack)) = _
    rw [hux, huy]
    rfl

/-- **A product** is rounded to the nearest double. -/
theorem exists_hasValue_mul (hx : HasValue x a) (hy : HasValue y b)
    (hlow : (2 : ℚ) ^ (-1022 : ℤ) ≤ a * b) (hhigh : a * b < 2 ^ (1023 : ℤ)) :
    ∃ r, HasValue (x * y) r ∧ RoundsTo (a * b) r := by
  obtain ⟨m, e, hm, hq, hmul⟩ := exists_mul_eq hx hy
  rw [hq] at hlow hhigh ⊢
  rw [hmul]
  exact exists_hasValue_of_bounds hm (represents_exact m) hlow hhigh

/-- A mantissa of 53 digits or more is not filled up before it is rounded. -/
theorem normalize_natCast {m : ℕ} (hm : 52 ≤ m.log2) (e : ℤ) :
    UnpackedFloat.normalize .binary64 m e .positive =
      roundWithAccuracy .binary64 .positive m e .exact := by
  have hpos : 0 < m := by
    rcases Nat.eq_zero_or_pos m with rfl | h
    · exact absurd hm (by decide)
    · exact h
  have hshift : (e - Format.binary64.targetExponent (totalExponent m e)).toNat = 0 := by
    rw [targetExponent_binary64, totalExponent]
    omega
  rw [UnpackedFloat.normalize, Int.compare_eq_gt.2 (by omega)]
  simp only [UnpackedFloat.round, Int.toNat_natCast, decreaseExponent, hshift, Nat.shiftLeft_zero,
    Nat.cast_zero, sub_zero]

theorem shiftLeft_mul_zpow (m : ℕ) {s e : ℤ} (hs : s ≤ e) :
    ((m <<< (e - s).toNat : ℕ) : ℚ) * 2 ^ s = m * 2 ^ e := by
  rw [Nat.shiftLeft_eq, Nat.cast_mul, Nat.cast_pow, Nat.cast_two, mul_assoc, ← zpow_natCast,
    ← zpow_add₀ two_ne_zero]
  congr 2
  omega

/-- **A sum** is rounded to the nearest double. -/
theorem exists_hasValue_add (hx : HasValue x a) (hy : HasValue y b)
    (hlow : (2 : ℚ) ^ (-1022 : ℤ) ≤ a + b) (hhigh : a + b < 2 ^ (1023 : ℤ)) :
    ∃ r, HasValue (x + y) r ∧ RoundsTo (a + b) r := by
  obtain ⟨m, e, hpos, hux, hm, -, -, rfl⟩ := hx
  obtain ⟨m', e', hpos', huy, hm', -, -, rfl⟩ := hy
  -- both mantissas are brought to the smaller exponent, and grow by that
  have hsum : (m : ℚ) * 2 ^ e + m' * 2 ^ e' = (m <<< (e - min e e').toNat +
      m' <<< (e' - min e e').toNat : ℕ) * 2 ^ min e e' := by
    rw [Nat.cast_add, add_mul, shiftLeft_mul_zpow m (min_le_left e e'),
      shiftLeft_mul_zpow m' (min_le_right e e')]
  have hlog : 52 ≤ (m <<< (e - min e e').toNat + m' <<< (e' - min e e').toNat).log2 := by
    have hfull := ((Nat.log2_eq_iff hpos.ne').1 hm).1
    have hgrow : m ≤ m <<< (e - min e e').toNat := by
      rw [Nat.shiftLeft_eq]
      exact Nat.le_mul_of_pos_right m (Nat.two_pow_pos _)
    have hle := hgrow.trans (Nat.le_add_right _ (m' <<< (e' - min e e').toNat))
    exact (Nat.le_log2 (hpos.trans_le hle).ne').2 (hfull.trans hle)
  have hadd : (x + y).toModel = .pack (roundWithAccuracy .binary64 .positive
      (m <<< (e - min e e').toNat + m' <<< (e' - min e e').toNat) (min e e') .exact) := by
    rw [← normalize_natCast hlog]
    show Float.Model.pack (UnpackedFloat.add .binary64 x.toModel.unpack y.toModel.unpack) = _
    rw [hux, huy]
    rfl
  rw [hsum] at hlow hhigh ⊢
  have h := exists_hasValue_of_bounds hlog (represents_exact _) hlow hhigh
  rw [← hadd] at h
  exact h

/-! ## Order and whole part -/

/-- A double of a greater exponent is greater. -/
theorem mul_zpow_lt_of_lt {m m' : ℕ} {e e' : ℤ} (hm : m < 2 ^ 53) (hm' : 2 ^ 52 ≤ m')
    (he : e < e') : (m : ℚ) * 2 ^ e < m' * 2 ^ e' := by
  have hmq : (m : ℚ) < 2 ^ 53 := by exact_mod_cast hm
  have hmq' : (2 : ℚ) ^ 52 ≤ m' := by exact_mod_cast hm'
  calc (m : ℚ) * 2 ^ e < 2 ^ 53 * 2 ^ e := mul_lt_mul_of_pos_right hmq (two_zpow_pos e)
    _ = 2 ^ 52 * 2 ^ (e + 1) := by
      rw [zpow_add_one₀ two_ne_zero]
      ring
    _ ≤ 2 ^ 52 * 2 ^ e' := by gcongr <;> [norm_num; omega]
    _ ≤ m' * 2 ^ e' := by gcongr

/-- **Doubles are compared by their values.** -/
theorem le_iff_of_hasValue (hx : HasValue x a) (hy : HasValue y b) : x ≤ y ↔ a ≤ b := by
  obtain ⟨m, e, hpos, hux, hm, -, -, rfl⟩ := hx
  obtain ⟨m', e', hpos', huy, hm', -, -, rfl⟩ := hy
  have hfull := (Nat.log2_eq_iff hpos.ne').1 hm
  have hfull' := (Nat.log2_eq_iff hpos'.ne').1 hm'
  have hcompare : x ≤ y ↔ ((compare e e').then (compare m m')).isLE = true := by
    show decide (UnpackedFloat.le x.toModel.unpack y.toModel.unpack = true) = true ↔ _
    rw [decide_eq_true_iff, hux, huy]
    rfl
  rw [hcompare]
  rcases lt_trichotomy e e' with he | rfl | he
  · rw [Int.compare_eq_lt.2 he]
    exact iff_of_true rfl (mul_zpow_lt_of_lt hfull.2 hfull'.1 he).le
  · rw [Int.compare_eq_eq.2 rfl, Ordering.eq_then, Nat.isLE_compare,
      mul_le_mul_iff_left₀ (two_zpow_pos e), Nat.cast_le]
  · rw [Int.compare_eq_gt.2 he]
    exact iff_of_false Bool.false_ne_true (mul_zpow_lt_of_lt hfull'.2 hfull.1 he).not_ge

/-- The magnitude of an exact value. -/
def Exact.magnitude (v : Exact) : ℚ := v.num / v.den

theorem Exact.magnitude_eq (v : Exact) : v.magnitude = v.mantissa * 2 ^ v.exponent := by
  obtain ⟨negative, m, e⟩ := v
  simp only [magnitude, num, den, twoPow, Nat.pow_eq]
  push_cast
  rcases le_total 0 e with he | he
  · rw [show (-e).toNat = 0 by omega, pow_zero, div_one, ← zpow_natCast, Int.toNat_of_nonneg he]
  · rw [show e.toNat = 0 by omega, pow_zero, mul_one, ← zpow_natCast,
      Int.toNat_of_nonneg (by omega), zpow_neg, div_inv_eq_mul]

theorem ofFloat?_of_hasValue (hx : HasValue x a) :
    ∃ v, Exact.ofFloat? x = some v ∧ v.negative = false ∧ v.magnitude = a := by
  obtain ⟨m, e, hpos, hux, -, -, -, rfl⟩ := hx
  refine ⟨⟨false, m, e⟩, ?_, rfl, Exact.magnitude_eq _⟩
  rw [Exact.ofFloat?, hux]
  rfl

/-- **A double is rounded down** to the whole part of its value. -/
theorem floorNat_of_hasValue (hx : HasValue x a) : floorNat x = ⌊a⌋₊ := by
  obtain ⟨v, hv, -, rfl⟩ := ofFloat?_of_hasValue hx
  rw [floorNat, hv, Option.map_some, Option.getD_some, Exact.magnitude, Nat.floor_div_eq_div]
  rfl

/-! ## Nearest doubles -/

/-- The rational numbers that a mantissa of 53 digits can hold. -/
def Short (c : ℚ) : Prop := ∃ (n : ℕ) (t : ℤ), n ≤ 2 ^ 53 ∧ c = n * 2 ^ t

theorem NearestEven.abs_sub_le_natCast {n : ℕ} (h : NearestEven q n) (j : ℕ) :
    |q - n| ≤ |q - j| := by
  rcases eq_or_ne n j with rfl | hne
  · exact le_rfl
  · have hint : (1 : ℤ) ≤ |(n : ℤ) - j| := Int.one_le_abs (by omega)
    have hfar : (1 : ℚ) ≤ |(n : ℚ) - j| := by exact_mod_cast hint
    have htri : |(n : ℚ) - j| ≤ |q - n| + |q - j| := by
      rw [abs_sub_comm q n]
      exact abs_sub_le (n : ℚ) q j
    have := h.near
    linarith

/-- **No value of a double is nearer** than the rounded one. -/
theorem RoundsTo.abs_sub_le {c : ℚ} (h : RoundsTo q r) (hc : Short c) : |q - r| ≤ |q - c| := by
  obtain ⟨n, t, hlow, -, hn, rfl⟩ := h
  obtain ⟨j, s, hj, rfl⟩ := hc
  have hunit := two_zpow_pos t
  have hmultiple : ∀ i : ℕ, |q - n * 2 ^ t| ≤ |q - i * 2 ^ t| := by
    intro i
    have hscale : ∀ k : ℕ, |q - k * 2 ^ t| = |q / 2 ^ t - k| * 2 ^ t := by
      intro k
      rw [← abs_of_pos hunit, ← abs_mul, sub_mul, abs_of_pos hunit, div_mul_cancel₀ _ hunit.ne']
    rw [hscale, hscale]
    exact mul_le_mul_of_nonneg_right (hn.abs_sub_le_natCast i) hunit.le
  rcases le_or_gt t s with hts | hst
  · have hj' : (j : ℚ) * 2 ^ s = (j * 2 ^ (s - t).toNat : ℕ) * 2 ^ t := by
      rw [Nat.cast_mul, Nat.cast_pow, Nat.cast_two, mul_assoc, ← zpow_natCast,
        ← zpow_add₀ two_ne_zero]
      congr 2
      omega
    rw [hj']
    exact hmultiple _
  · -- what has a smaller unit lies below the binade, and so further off than its first value
    have hjq : (j : ℚ) ≤ 2 ^ 53 := by exact_mod_cast hj
    have hbelow : (j : ℚ) * 2 ^ s ≤ 2 ^ 52 * 2 ^ t :=
      calc (j : ℚ) * 2 ^ s ≤ 2 ^ 53 * 2 ^ s := mul_le_mul_of_nonneg_right hjq (two_zpow_pos s).le
        _ = 2 ^ 52 * 2 ^ (s + 1) := by
          rw [zpow_add_one₀ two_ne_zero]
          ring
        _ ≤ 2 ^ 52 * 2 ^ t := by
          have := zpow_le_zpow_right₀ (one_le_two (α := ℚ)) (by omega : s + 1 ≤ t)
          linarith
    have hfirst := hmultiple (2 ^ 52)
    rw [Nat.cast_pow, Nat.cast_two] at hfirst
    rw [abs_of_nonneg (by linarith : 0 ≤ q - 2 ^ 52 * 2 ^ t)] at hfirst
    rw [abs_of_nonneg (by linarith : 0 ≤ q - j * 2 ^ s)]
    linarith

section
variable {c : ℚ} (h : RoundsTo q r) (hc : Short c)
include h hc

/-- Rounding does not pass a value of a double on its way down. -/
theorem RoundsTo.le (hcq : c ≤ q) : c ≤ r := by
  by_contra hr
  have hnear := h.abs_sub_le hc
  rw [abs_of_nonneg (by linarith), abs_of_nonneg (by linarith)] at hnear
  linarith

/-- Nor on its way up. -/
theorem RoundsTo.ge (hqc : q ≤ c) : r ≤ c := by
  by_contra hr
  have hnear := h.abs_sub_le hc
  rw [abs_of_nonpos (by linarith), abs_of_nonpos (by linarith)] at hnear
  linarith

end

/-- What a mantissa can hold is not rounded. -/
theorem RoundsTo.eq (h : RoundsTo q r) (hq : Short q) : r = q :=
  le_antisymm (h.ge hq le_rfl) (h.le hq le_rfl)

theorem RoundsTo.short (h : RoundsTo q r) : Short r := by
  obtain ⟨n, t, -, hhigh, hn, rfl⟩ := h
  have hle : q / 2 ^ t ≤ (2 ^ 53 : ℕ) := by
    rw [div_le_iff₀ (two_zpow_pos t)]
    exact_mod_cast hhigh.le
  exact ⟨n, t, hn.ge hle, rfl⟩

/-- Below the middle between two values, the greater one is not reached. -/
theorem RoundsTo.lt {c c' : ℚ} (h : RoundsTo q r) (hc : Short c) (hcc : c < c')
    (hq : q < (c + c') / 2) : r < c' := by
  by_contra hr
  have hnear := h.abs_sub_le hc
  rw [abs_of_nonpos (by linarith), le_abs] at hnear
  rcases hnear with hnear | hnear <;> linarith

theorem le_of_binades {s t : ℤ} (hlow : 2 ^ 52 * 2 ^ t ≤ q) (hhigh : q < 2 ^ 53 * 2 ^ s) :
    t ≤ s := by
  have hlt : (2 : ℚ) ^ (52 + t) < 2 ^ (53 + s) := by
    rw [zpow_add₀ two_ne_zero, zpow_add₀ two_ne_zero]
    exact_mod_cast hlow.trans_lt hhigh
  rw [zpow_lt_zpow_iff_right₀ one_lt_two] at hlt
  omega

/-- From `2 ^ 52` units on, rounding is to whole multiples of the unit. -/
theorem RoundsTo.exists_multiple (h : RoundsTo q r) {t : ℤ} (ht : 2 ^ 52 * 2 ^ t ≤ q) :
    ∃ n : ℕ, r = n * 2 ^ t := by
  obtain ⟨n, s, -, hhigh, -, rfl⟩ := h
  have hts := le_of_binades ht hhigh
  refine ⟨n * 2 ^ (s - t).toNat, ?_⟩
  rw [Nat.cast_mul, Nat.cast_pow, Nat.cast_two, mul_assoc, ← zpow_natCast, ← zpow_add₀ two_ne_zero]
  congr 2
  omega

/-- From half a unit above an odd multiple on, rounding is upward. -/
theorem RoundsTo.succ_le {m : ℕ} {t : ℤ} (h : RoundsTo q r) (ht : 2 ^ 52 * 2 ^ t ≤ q)
    (hm : Odd m) (hshort : Short ((m + 1) * 2 ^ t)) (hq : (m + 1 / 2) * 2 ^ t ≤ q) :
    (m + 1) * 2 ^ t ≤ r := by
  have hunit := two_zpow_pos t
  rcases le_or_gt (((m : ℚ) + 1) * 2 ^ t) q with hle | hlt
  · exact h.le hshort hle
  rcases le_or_gt (2 ^ 52 * 2 ^ (t + 1)) q with hnext | hnext
  · -- in a higher binade the multiples are even, and the next lower one is further off
    obtain ⟨n, rfl⟩ := h.exists_multiple hnext
    obtain ⟨j, rfl⟩ := hm
    have hnear := h.abs_sub_le hshort
    rw [zpow_add_one₀ two_ne_zero] at hnear ⊢
    by_contra hr
    have hn : (n : ℚ) ≤ j := by
      have hlt : (n : ℚ) < j + 1 := by
        push_cast at hr
        nlinarith
      exact_mod_cast Nat.le_of_lt_succ (by exact_mod_cast hlt)
    have hn' := mul_le_mul_of_nonneg_right hn hunit.le
    push_cast at hnear hq hlt
    rw [abs_of_nonneg (by linarith), abs_of_nonpos (by linarith)] at hnear
    linarith
  · obtain ⟨n, s, hlow, hhigh, hn, rfl⟩ := h
    have hs : s = t := by
      have hst := le_of_binades ht hhigh
      have hts : s ≤ t := le_of_binades hlow (by
        rw [zpow_add_one₀ two_ne_zero] at hnext
        linarith)
      omega
    subst hs
    have hsucc := hn.succ_le hm ((le_div_iff₀ hunit).2 hq)
    exact mul_le_mul_of_nonneg_right (by exact_mod_cast hsucc) hunit.le

end EventTable.Number
