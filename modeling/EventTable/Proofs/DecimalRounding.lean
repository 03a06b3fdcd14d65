/-
  EventTable — decimals as doubles.

  * `MadeBy x q` says that the double `x` is what the positive rational number `q` is rounded
    to, and `MadeBy.mul` and `MadeBy.div`: products and quotients are made so;
  * `divCore_eq_of_pos`: the whole part of any quotient has digits enough;
  * `MadeBy.eq_of_readsAs`: it is the one whose interval holds the number, and
    `MadeBy.exists_hasValue`: the nearest one;
  * `madeBy_ofDecimal`: so are decimals in the range of the doubles, whichever way they are
    computed, and `ofDecimal_eq_of_readsAs`: one in the interval of a double is read as that.
-/
import EventTable.Number.Numeral
import EventTable.Proofs.RoundingIntervals

namespace EventTable.Number

open Float.Model (UnpackedFloat Format totalExponent)
open Float.Model.UnpackedFloat

variable {x y : Float} {a b q : ℚ}

/-- **The double is made of the number** by rounding a mantissa that stands for it. -/
def MadeBy (x : Float) (q : ℚ) : Prop :=
  ∃ (m : ℕ) (e : ℤ) (accuracy : Accuracy) (r : ℚ), Fits m e ∧
    Represents (.ofMantissaAndAccuracy m accuracy) r ∧ q = r * 2 ^ e ∧
    x = ⟨.pack (roundWithAccuracy .binary64 .positive m e accuracy)⟩

/-- It is the one whose interval holds the number. -/
theorem MadeBy.eq_of_readsAs {m : ℕ} {e : ℤ} (h : MadeBy x q) (hm : Canonical m e)
    (hq : ReadsAs m e q) : x = ⟨.pack (.finite .positive m e hm.pos)⟩ := by
  obtain ⟨M, E, accuracy, r, hfits, hrep, rfl, rfl⟩ := h
  rw [roundWithAccuracy_of_readsAs hm hfits hrep hq]

/-- **It is the nearest one**, if the number is not too small or too great. -/
theorem MadeBy.exists_hasValue (h : MadeBy x q) (hlow : (2 : ℚ) ^ (-1022 : ℤ) ≤ q)
    (hhigh : q < 2 ^ (1023 : ℤ)) : ∃ r, HasValue x r ∧ RoundsTo q r := by
  obtain ⟨m, e, accuracy, r, hfits, hrep, rfl, rfl⟩ := h
  refine exists_hasValue_of_bounds ?_ hrep hlow hhigh
  rcases hfits with hm | he
  · exact hm
  · have hr : r < m + 1 := by
      have hbounds := hrep.bounds
      rw [mantissa_ofMantissaAndAccuracy] at hbounds
      exact hbounds.2
    have hle : (2 : ℚ) ^ (52 : ℤ) ≤ r := by
      have hunit : (2 : ℚ) ^ e ≤ 2 ^ (-1074 : ℤ) := zpow_le_zpow_right₀ one_le_two he
      rw [← mul_le_mul_iff_left₀ (two_zpow_pos (-1074)), ← zpow_add₀ two_ne_zero]
      have hrpos : 0 ≤ r := by
        have hprod : 0 < r * 2 ^ e := (two_zpow_pos _).trans_le hlow
        exact (pos_of_mul_pos_left hprod (two_zpow_pos e).le).le
      exact hlow.trans (mul_le_mul_of_nonneg_left hunit hrpos)
    have hm : 2 ^ 52 < m + 1 := by exact_mod_cast hle.trans_lt hr
    exact (Nat.le_log2 (by omega)).2 (by omega)

/-! ## Products and quotients -/

/-- The mantissa of one factor is full, and so the product has digits enough. -/
theorem MadeBy.mul (hx : PositiveValue x a) (hy : HasValue y b) : MadeBy (x * y) (a * b) := by
  obtain ⟨m, e, hpos, hux, rfl⟩ := hx
  obtain ⟨m', e', hpos', huy, hfull, -, -, rfl⟩ := hy
  refine ⟨m * m', e + e', .exact, _, .inl ?_, represents_exact _, ?_, ?_⟩
  · rw [Nat.le_log2 (Nat.mul_pos hpos hpos').ne']
    exact ((Nat.log2_eq_iff hpos'.ne').1 hfull).1.trans (Nat.le_mul_of_pos_left m' hpos)
  · rw [zpow_add₀ two_ne_zero]
    push_cast
    ring
  · show Float.ofModel (.pack (UnpackedFloat.mul .binary64 x.toModel.unpack y.toModel.unpack)) = _
    rw [hux, huy]
    rfl

/-- The whole part of a quotient of mantissas has digits enough, or the least exponent. -/
theorem divCore_eq_of_pos {m m' : ℕ} (hpos : 0 < m) (hpos' : 0 < m') (e e' : ℤ) :
    ∃ (n : ℕ) (t : ℤ) (accuracy : Accuracy) (r : ℚ), divCore .binary64 m e m' e' = (n, t, accuracy) ∧
      Fits n t ∧ Represents (.ofMantissaAndAccuracy n accuracy) r ∧
      m * 2 ^ e / (m' * 2 ^ e') = r * 2 ^ t := by
  have htarget : Format.binary64.targetExponent (totalExponent m e - totalExponent m' e') =
      max ((m.log2 : ℤ) + e - (m'.log2 + e') - 53) (-1074) := by
    rw [targetExponent_binary64, totalExponent, totalExponent]
    omega
  obtain ⟨t, ht⟩ : ∃ t, min (e - e') (max ((m.log2 : ℤ) + e - (m'.log2 + e') - 53) (-1074)) = t :=
    ⟨_, rfl⟩
  obtain ⟨k, hk⟩ : ∃ k : ℕ, (e - e' - t).toNat = k := ⟨_, rfl⟩
  have hdiv : divCore .binary64 m e m' e' =
      (m * 2 ^ k / m', t, accuracyOfFraction (m * 2 ^ k % m') m') := by
    simp only [divCore, htarget, ht, hk, Nat.shiftLeft_eq]
  refine ⟨_, _, _, _, hdiv, ?_, represents_div hpos', ?_⟩
  · rcases le_or_gt t (-1074) with hleast | hgreater
    · exact .inr hleast
    · left
      have hlog : m'.log2 + 53 ≤ m.log2 + k := by omega
      have hlow : 2 ^ 52 * m' ≤ m * 2 ^ k :=
        calc 2 ^ 52 * m' ≤ 2 ^ 52 * 2 ^ (m'.log2 + 1) := by
              exact Nat.mul_le_mul_left _ (Nat.le_of_lt Nat.lt_log2_self)
          _ = 2 ^ (m'.log2 + 53) := by rw [← pow_add]; congr 1; omega
          _ ≤ 2 ^ (m.log2 + k) := Nat.pow_le_pow_right (by decide) hlog
          _ = 2 ^ m.log2 * 2 ^ k := pow_add ..
          _ ≤ m * 2 ^ k := Nat.mul_le_mul_right _ (Nat.log2_self_le hpos.ne')
      have hle : 2 ^ 52 ≤ m * 2 ^ k / m' := (Nat.le_div_iff_mul_le hpos').2 hlow
      exact (Nat.le_log2 (by omega)).2 hle
  · have hkt : e = (k : ℤ) + t + e' := by omega
    have hne : (m' : ℚ) ≠ 0 := by exact_mod_cast hpos'.ne'
    have hne' := (two_zpow_pos e').ne'
    rw [hkt, zpow_add₀ two_ne_zero, zpow_add₀ two_ne_zero, zpow_natCast]
    push_cast
    field_simp

/-- A quotient of mantissas is rounded. -/
theorem madeBy_pack_div {m m' : ℕ} (hpos : 0 < m) (hpos' : 0 < m') (e e' : ℤ) :
    MadeBy ⟨.pack (UnpackedFloat.div .binary64 (.finite .positive m e hpos)
      (.finite .positive m' e' hpos'))⟩ (m * 2 ^ e / (m' * 2 ^ e')) := by
  obtain ⟨n, t, accuracy, r, hdiv, hfits, hrep, hvalue⟩ := divCore_eq_of_pos hpos hpos' e e'
  refine ⟨n, t, accuracy, r, hfits, hrep, hvalue, ?_⟩
  rw [UnpackedFloat.div]
  simp only [hdiv]
  rfl

theorem MadeBy.div (hx : HasValue x a) (hy : HasValue y b) : MadeBy (x / y) (a / b) := by
  obtain ⟨m, e, hpos, hux, -, -, -, rfl⟩ := hx
  obtain ⟨m', e', hpos', huy, -, -, -, rfl⟩ := hy
  have hdiv : x / y =
      .ofModel (.pack (UnpackedFloat.div .binary64 x.toModel.unpack y.toModel.unpack)) := rfl
  rw [hdiv, hux, huy]
  exact madeBy_pack_div hpos hpos' e e'

/-! ## Decimals -/

theorem toBits_powersOfTen : ∀ j : Fin 23,
    (Float.exactlyRepresentablePowersOfTen[j]).toBits.toBitVec =
      UnpackedFloat.pack .binary64 (.finite .positive (5 ^ j.val * 2 ^ (52 - (5 ^ j.val).log2))
        ((5 ^ j.val).log2 - 52 + j.val) (fill_pos (Nat.pow_pos (by decide)))) := by
  decide +kernel

/-- The table of powers of ten. -/
theorem hasValue_powersOfTen (j : Fin 23) :
    HasValue Float.exactlyRepresentablePowersOfTen[j] (10 ^ j.val) := by
  have hfive : 0 < 5 ^ j.val := Nat.pow_pos (by decide)
  have hlt : 5 ^ j.val < 2 ^ 53 :=
    (Nat.pow_le_pow_right (by decide) (Nat.le_of_lt_succ j.isLt)).trans_lt (by decide)
  have hl := log2_lt hfive hlt
  have hvalue := hasValue_of_unpack (x := Float.exactlyRepresentablePowersOfTen[j]) (j := j.val)
    hfive hlt (by omega) <| by
      show UnpackedFloat.unpack .binary64
        (Float.exactlyRepresentablePowersOfTen[j]).toBits.toBitVec = _
      rw [toBits_powersOfTen]
      exact unpack_pack (log2_fill hfive hl) _ (by omega) (by omega)
  rwa [Nat.cast_pow, Nat.cast_ofNat, ← mul_pow, show (5 : ℚ) * 2 = 10 by norm_num] at hvalue

theorem hasValue_toFloat {n : ℕ} (hpos : 0 < n) (h : n < 2 ^ 53) :
    HasValue n.toUInt64.toFloat n := by
  have hvalue := hasValue_of_unpack (x := n.toUInt64.toFloat) (j := 0) hpos h (by decide) <| by
    rw [Nat.cast_zero, add_zero]
    exact unpack_ofUInt64 hpos h
  rwa [pow_zero, mul_one] at hvalue

/-- A decimal without a digit but zeros is a zero, whatever its exponent. -/
theorem ofDecimal_zero (negative : Bool) (k : ℤ) :
    ofDecimal negative 0 k = if negative then -0.0 else 0.0 := by
  have hzero : Float.ofScientific 0 (k < 0) k.natAbs = 0.0 := by
    rw [Float.ofScientific]
    split
    · rename_i h
      obtain ⟨m, e, hpos, hten, -⟩ := hasValue_powersOfTen ⟨k.natAbs, Nat.lt_succ_of_le h.2⟩
      rw [Fin.getElem_fin] at hten
      split
      · show Float.ofModel (.pack (UnpackedFloat.div .binary64 _ _)) = _
        rw [hten]
        rfl
      · show Float.ofModel (.pack (UnpackedFloat.mul .binary64 _ _)) = _
        rw [hten]
        rfl
    · rfl
  rw [ofDecimal, hzero]

section
variable {n : ℕ} (hpos : 0 < n)
include hpos

/-- Great decimals are products of their digits, which are filled up, and a power of ten. -/
theorem unpackedOfScientific_of_nonneg {k : ℤ} (hk : 0 ≤ k) (hhigh : k ≤ 2048) :
    UnpackedFloat.ofScientific .binary64 n k =
      roundWithAccuracy .binary64 .positive (n * 2 ^ 53 * 10 ^ k.toNat) (-53) .exact := by
  have hlimit : (2 : ℤ) ^ Format.binary64.exponentBits = 2048 := rfl
  rw [UnpackedFloat.ofScientific, dif_neg hpos.ne', hlimit, if_neg (by omega), if_neg (by omega),
    if_pos hk, ← Nat.shiftLeft_eq]
  rfl

/-- Small ones are quotients of their digits and a power of ten. -/
theorem unpackedOfScientific_of_neg {k : ℤ} (hk : k < 0) (hlow : -(2048 + (n.log2 : ℤ)) ≤ k) :
    UnpackedFloat.ofScientific .binary64 n k = UnpackedFloat.div .binary64
      (.finite .positive n 0 hpos) (.finite .positive (10 ^ (-k).toNat) 0 (Nat.pow_pos (by decide))) := by
  have hlimit : (2 : ℤ) ^ Format.binary64.exponentBits = 2048 := rfl
  rw [UnpackedFloat.ofScientific, dif_neg hpos.ne', hlimit, if_neg (by omega), if_neg (by omega),
    if_neg (by omega)]

/-- A short decimal with a small exponent is a product or a quotient of exact doubles. -/
theorem madeBy_ofDecimal_of_short {k : ℤ} (h : n < 2 ^ 53 ∧ k.natAbs ≤ 22) :
    MadeBy (ofDecimal false n k) (n * 10 ^ k) := by
  have hn := hasValue_toFloat hpos h.1
  have hten := hasValue_powersOfTen ⟨k.natAbs, Nat.lt_succ_of_le h.2⟩
  show MadeBy (Float.ofScientific n (k < 0) k.natAbs) _
  rw [Float.ofScientific, dif_pos h]
  rcases lt_or_ge k 0 with hneg | hnonneg
  · have hvalue : (n : ℚ) * 10 ^ k = n / 10 ^ k.natAbs := by
      rw [div_eq_mul_inv, ← zpow_natCast, ← zpow_neg]
      congr 2
      omega
    rw [hvalue]
    simp only [hneg, decide_true, if_true]
    exact .div hn hten
  · have hvalue : (n : ℚ) * 10 ^ k = n * 10 ^ k.natAbs := by
      rw [← zpow_natCast]
      congr 2
      omega
    rw [hvalue]
    simp only [hnonneg.not_gt, decide_false, Bool.false_eq_true, if_false]
    exact .mul hn.positiveValue hten

/-- A decimal is rounded to a double if its exponent is not too great and not too small. -/
theorem madeBy_ofDecimal_of_exponent {k : ℤ} (hhigh : k ≤ 2048) (hlow : -(2048 + (n.log2 : ℤ)) ≤ k) :
    MadeBy (ofDecimal false n k) (n * 10 ^ k) := by
  by_cases h : n < 2 ^ 53 ∧ k.natAbs ≤ 22
  · exact madeBy_ofDecimal_of_short hpos h
  have hexponent : (if decide (k < 0) then Int.negOfNat k.natAbs else Int.ofNat k.natAbs) = k := by
    rw [Int.negOfNat_eq, Int.ofNat_eq_natCast]
    simp only [decide_eq_true_eq]
    split <;> omega
  have hread : ofDecimal false n k =
      .ofModel (.pack (UnpackedFloat.ofScientific .binary64 n k)) := by
    show Float.ofScientific n (k < 0) k.natAbs = _
    rw [Float.ofScientific, dif_neg h]
    exact congrArg (fun e => Float.ofModel (.ofScientific n e)) hexponent
  rw [hread]
  rcases lt_or_ge k 0 with hneg | hnonneg
  · have hvalue : (n : ℚ) * 10 ^ k = n * 2 ^ (0 : ℤ) / ((10 ^ (-k).toNat : ℕ) * 2 ^ (0 : ℤ)) := by
      rw [zpow_zero, mul_one, mul_one, Nat.cast_pow, Nat.cast_ofNat, div_eq_mul_inv,
        ← zpow_natCast, ← zpow_neg]
      congr 2
      omega
    rw [hvalue, unpackedOfScientific_of_neg hpos hneg hlow]
    exact madeBy_pack_div hpos _ 0 0
  · have hlog : 52 ≤ (n * 2 ^ 53 * 10 ^ k.toNat).log2 := by
      have hten : 0 < 10 ^ k.toNat := Nat.pow_pos (by decide)
      have hle : 2 ^ 52 ≤ n * 2 ^ 53 * 10 ^ k.toNat :=
        calc 2 ^ 52 ≤ 1 * 2 ^ 53 * 1 := by decide
          _ ≤ n * 2 ^ 53 * 10 ^ k.toNat := Nat.mul_le_mul (Nat.mul_le_mul_right _ hpos) hten
      exact (Nat.le_log2 (by omega)).2 hle
    rw [unpackedOfScientific_of_nonneg hpos hnonneg hhigh]
    refine ⟨_, _, _, _, .inl hlog, represents_exact _, ?_, rfl⟩
    have hten : (10 : ℚ) ^ k = 10 ^ k.toNat := by
      rw [← zpow_natCast, Int.toNat_of_nonneg hnonneg]
    rw [hten]
    push_cast
    norm_num
    ring

/-- The exponent of a number between two powers of two. -/
theorem exponent_bounds {k low high : ℤ} (hlow : (2 : ℚ) ^ low ≤ n * 10 ^ k)
    (hhigh : (n : ℚ) * 10 ^ k < 2 ^ high) :
    (0 ≤ k → k < high) ∧ (k ≤ 0 → low < (n.log2 : ℤ) + 1 + k) := by
  have hnq : (1 : ℚ) ≤ n := by exact_mod_cast hpos
  have hten := zpow_pos (by norm_num : (0 : ℚ) < 10) k
  constructor
  · intro hk
    have hpower : (2 : ℚ) ^ k ≤ 10 ^ k := zpow_le_zpow_left₀ hk (by norm_num) (by norm_num)
    rw [← zpow_lt_zpow_iff_right₀ (one_lt_two (α := ℚ))]
    calc (2 : ℚ) ^ k ≤ 1 * 10 ^ k := by rwa [one_mul]
      _ ≤ n * 10 ^ k := mul_le_mul_of_nonneg_right hnq hten.le
      _ < 2 ^ high := hhigh
  · intro hk
    have hpower : (10 : ℚ) ^ k ≤ 2 ^ k := by
      have hinv : (2 : ℚ) ^ (-k) ≤ 10 ^ (-k) :=
        zpow_le_zpow_left₀ (by omega) (by norm_num) (by norm_num)
      rwa [zpow_neg, zpow_neg, inv_le_inv₀ (two_zpow_pos k) hten] at hinv
    have hlog : (n : ℚ) < 2 ^ ((n.log2 : ℤ) + 1) := by exact_mod_cast Nat.lt_log2_self (n := n)
    rw [← zpow_lt_zpow_iff_right₀ (one_lt_two (α := ℚ))]
    calc (2 : ℚ) ^ low ≤ n * 10 ^ k := hlow
      _ < 2 ^ ((n.log2 : ℤ) + 1) * 10 ^ k := mul_lt_mul_of_pos_right hlog hten
      _ ≤ 2 ^ ((n.log2 : ℤ) + 1) * 2 ^ k := mul_le_mul_of_nonneg_left hpower (two_zpow_pos _).le
      _ = 2 ^ ((n.log2 : ℤ) + 1 + k) := (zpow_add₀ two_ne_zero _ _).symm

/-- **A decimal in the range of the doubles** is rounded to one. -/
theorem madeBy_ofDecimal {k : ℤ} (hlow : (2 : ℚ) ^ (-1075 : ℤ) ≤ n * 10 ^ k)
    (hhigh : (n : ℚ) * 10 ^ k < 2 ^ (1024 : ℤ)) : MadeBy (ofDecimal false n k) (n * 10 ^ k) := by
  have hexponent := exponent_bounds hpos hlow hhigh
  rcases le_total 0 k with hk | hk
  · have hlt := hexponent.1 hk
    exact madeBy_ofDecimal_of_exponent hpos (by omega) (by omega)
  · have hlt := hexponent.2 hk
    exact madeBy_ofDecimal_of_exponent hpos (by omega) (by omega)

end

/-! ## Decimals in the interval of a double -/

section
variable {m : ℕ} {e : ℤ} (hm : Canonical m e) (hq : ReadsAs m e q)
include hm hq

theorem lt_two_pow_of_readsAs : q < 2 ^ (53 + e) := by
  have hlt : (m : ℚ) + 1 ≤ 2 ^ (53 : ℤ) := by exact_mod_cast hm.lt
  rw [zpow_add₀ two_ne_zero, ← div_lt_iff₀ (two_zpow_pos e)]
  linarith [hq.high]

theorem two_pow_le_of_readsAs : (2 : ℚ) ^ (e - 1) ≤ q := by
  have hge : (1 : ℚ) ≤ m := by exact_mod_cast hm.pos
  have hbelow := quartersBelow_le m e
  rw [zpow_sub_one₀ two_ne_zero, mul_comm, ← le_div_iff₀ (two_zpow_pos e)]
  linarith [hq.low]

end

theorem unpack_pack_of_canonical {m : ℕ} {e : ℤ} (hm : Canonical m e) (he : e ≤ 971) :
    UnpackedFloat.unpack .binary64
        (UnpackedFloat.pack .binary64 (.finite .positive m e hm.pos)) =
      .finite .positive m e hm.pos := by
  rcases hm.full with hfull | ⟨hshort, rfl⟩
  · exact unpack_pack hfull hm.pos hm.le_exponent he
  · exact unpack_pack_of_lt hm.pos hshort

theorem canonical_of_unpack {s : Sign} {m : ℕ} {e : ℤ} {hpos : 0 < m}
    (hx : x.toModel.unpack = .finite s m e hpos) : Canonical m e ∧ e ≤ 971 := by
  obtain ⟨hlow, hhigh, hfull⟩ := bounds_of_unpack hx
  exact ⟨⟨hpos, hlow, hfull⟩, hhigh⟩

/-- A double is packed from what it is unpacked to. -/
theorem eq_pack_unpack (x : Float) : x = ⟨.pack x.toModel.unpack⟩ := by
  have hbits : UnpackedFloat.pack .binary64 x.toModel.unpack = x.toBits.toBitVec :=
    UnpackedFloat.pack_unpack_of_valid x.toModel.valid
  obtain ⟨⟨bits, hvalid⟩⟩ := x
  simp only [Float.Model.pack, hbits]
  rfl

/-- **A decimal in the interval of a double is read as that.** -/
theorem ofDecimal_eq_of_readsAs {v : Exact} (hv : Exact.ofFloat? x = some v) {n : ℕ} {k : ℤ}
    (hm : 0 < v.mantissa) (hn : 0 < n) (hq : ReadsAs v.mantissa v.exponent (n * 10 ^ k)) :
    ofDecimal v.negative n k = x := by
  rcases unpack_of_ofFloat? hv with ⟨s, -, rfl⟩ | ⟨s, m, e, hpos, hu, rfl⟩
  · exact absurd hm (lt_irrefl 0)
  obtain ⟨hcanonical, he⟩ := canonical_of_unpack hu
  have hleast := hcanonical.le_exponent
  have hlow : (2 : ℚ) ^ (-1075 : ℤ) ≤ n * 10 ^ k :=
    (zpow_le_zpow_right₀ one_le_two (by omega)).trans (two_pow_le_of_readsAs hcanonical hq)
  have hhigh : (n : ℚ) * 10 ^ k < 2 ^ (1024 : ℤ) :=
    (lt_two_pow_of_readsAs hcanonical hq).trans_le (zpow_le_zpow_right₀ one_le_two (by omega))
  have hpositive : ofDecimal false n k = ⟨.pack (.finite .positive m e hpos)⟩ :=
    (madeBy_ofDecimal hn hlow hhigh).eq_of_readsAs hcanonical hq
  rw [eq_pack_unpack x, hu]
  cases s with
  | positive => exact hpositive
  | negative =>
    show -(ofDecimal false n k) = _
    rw [hpositive]
    show Float.ofModel (.pack (UnpackedFloat.unpack .binary64 (UnpackedFloat.pack .binary64
      (.finite .positive m e hpos))).neg) = _
    rw [unpack_pack_of_canonical hcanonical he]
    rfl

end EventTable.Number
