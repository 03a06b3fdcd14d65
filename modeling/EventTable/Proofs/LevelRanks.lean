/-
  EventTable — levels in percent, and what fuel levels are sorted by.

  * `exists_positiveValue_mul_hundred`: a level up to 1 in percent is at most 100;
  * `FuelRank P g`: a level of `P` percent is sorted by the whole part of `g`, in the column
    of fuel levels; a level above 1 is divided by 100, and multiplied again;
  * `FuelRank.mono`: greater levels have no smaller ranks, `FuelRank.le_of_half` and
    `FuelRank.lt_of_half`: nor are they brought over the next whole percentage;
  * `FuelRank.exists_between`: two whole percentages that are not next to each other have
    ranks with different whole parts, up to `2 ^ 53` percent.
-/
import EventTable.Proofs.WholeParts

namespace EventTable.Number

open Float.Model (UnpackedFloat)
open Float.Model.UnpackedFloat

variable {x : Float} {l P P' f g g' : ℚ}

/-! ## Levels in percent -/

theorem hasValue_one : HasValue 1.0 1 :=
  ⟨2 ^ 52, -52, by decide, rfl, Nat.log2_two_pow, by decide, by decide, by norm_num⟩

theorem hasValue_hundred : HasValue 100.0 100 :=
  ⟨25 * 2 ^ 48, -46, by decide, rfl, (Nat.log2_eq_iff (by decide)).2 (by decide), by decide,
    by decide, by norm_num⟩

theorem HasValue.two_zpow_le (h : HasValue x l) : (2 : ℚ) ^ (-1022 : ℤ) ≤ l := by
  obtain ⟨m, e, hfull, -, he, -, rfl, -⟩ := exists_orderKey_eq h
  have hfullq : (2 : ℚ) ^ (52 : ℤ) ≤ m := by exact_mod_cast hfull
  calc (2 : ℚ) ^ (-1022 : ℤ) = 2 ^ (52 : ℤ) * 2 ^ (-1074 : ℤ) := by
        rw [← zpow_add₀ two_ne_zero]
        rfl
    _ ≤ m * 2 ^ e := mul_le_mul hfullq (zpow_le_zpow_right₀ one_le_two he) (two_zpow_pos _).le
        (Nat.cast_nonneg m)

theorem two_zpow_le_one : (2 : ℚ) ^ (-1022 : ℤ) ≤ 1 := zpow_le_one_of_nonpos₀ one_le_two (by decide)

/-- A mantissa that is not full has the least exponent. -/
theorem mul_two_zpow_lt {m : ℕ} (hm : m < 2 ^ 52) :
    (m : ℚ) * 2 ^ (-1074 : ℤ) < 2 ^ (-1022 : ℤ) := by
  have hmq : (m : ℚ) < 2 ^ (52 : ℤ) := by exact_mod_cast hm
  calc (m : ℚ) * 2 ^ (-1074 : ℤ) < 2 ^ (52 : ℤ) * 2 ^ (-1074 : ℤ) :=
        mul_lt_mul_of_pos_right hmq (two_zpow_pos _)
    _ = 2 ^ (-1022 : ℤ) := by
        rw [← zpow_add₀ two_ne_zero]
        rfl

theorem PositiveValue.le_one_iff (h : PositiveValue x l) : x ≤ 1.0 ↔ l ≤ 1 := by
  rcases h.hasValue_or with h | ⟨m, hpos, hux, hm, rfl⟩
  · exact le_iff_of_hasValue h hasValue_one
  · refine iff_of_true ?_ ((mul_two_zpow_lt hm).le.trans two_zpow_le_one)
    show decide (UnpackedFloat.le x.toModel.unpack (Float.toModel 1.0).unpack = true) = true
    rw [hux]
    rfl

/-- A short mantissa of the least exponent is read back too. -/
theorem unpack_pack_of_lt {m : ℕ} (hpos : 0 < m) (hm : m < 2 ^ 52) :
    UnpackedFloat.unpack .binary64
        (UnpackedFloat.pack .binary64 (.finite .positive m (-1074) hpos)) =
      .finite .positive m (-1074) hpos := by
  have hmantissa : (BitVec.ofNat 52 m).toNat = m := by
    rw [BitVec.toNat_ofNat]
    omega
  have hne : BitVec.ofNat 52 m ≠ 0#52 := by
    rw [Ne, ← BitVec.toNat_inj, hmantissa]
    exact hpos.ne'
  have hshort : ¬ m.log2 + 1 = Float.Model.Format.binary64.mantissaBits := by
    have hlog := (Nat.log2_lt hpos.ne').2 hm
    show ¬ m.log2 + 1 = 53
    omega
  have hpack : UnpackedFloat.pack .binary64 (.finite .positive m (-1074) hpos) =
      packComponents .binary64 .positive 0#11 (BitVec.ofNat 52 m) := by
    rw [UnpackedFloat.pack]
    exact (if_neg (by decide)).trans (if_neg hshort)
  rw [hpack, UnpackedFloat.unpack]
  simp only [unpackMantissa_packComponents, unpackExponent_packComponents,
    unpackSign_packComponents]
  rw [if_neg (by decide), if_pos trivial, dif_neg hne]
  simp only [hmantissa]
  rfl

/-- The product of a mantissa and 100, not rounded yet. -/
theorem mul_hundred_eq {m : ℕ} {e : ℤ} {hpos : 0 < m}
    (hx : x.toModel.unpack = .finite .positive m e hpos) : x * 100.0 =
      ⟨.pack (roundWithAccuracy .binary64 .positive (100 * m * 2 ^ 46) (e - 46) .exact)⟩ := by
  have hmul : x * 100.0 = .ofModel
      (.pack (UnpackedFloat.mul .binary64 x.toModel.unpack (Float.toModel 100.0).unpack)) := rfl
  have hmantissa : 100 * m * 2 ^ 46 = m * (25 * 2 ^ 48) := by ring
  rw [hmul, hx, hmantissa]
  rfl

theorem le_hundred_of_roundsTo (hr : RoundsTo (l * 100) P) (hl : l ≤ 1) : P ≤ 100 := by
  have hshort : Short 100 := short_natCast (n := 100) (by decide)
  exact hr.ge hshort (by linarith)

section
variable {m : ℕ} {hpos : 0 < m} (hx : x.toModel.unpack = .finite .positive m (-1074) hpos)
include hx

/-- As long as the product is small, too, it is not rounded. -/
theorem positiveValue_mul_hundred_of_lt (hm : 100 * m < 2 ^ 52) :
    PositiveValue (x * 100.0) ((100 * m : ℕ) * 2 ^ (-1074 : ℤ)) := by
  have hhundred : 0 < 100 * m := by omega
  have hlog := (Nat.log2_lt hhundred.ne').2 hm
  have hexact := roundWithAccuracy_mul_two_pow (e := -1074) hhundred (by omega) 46
  refine ⟨100 * m, -1074, hhundred, ?_, rfl⟩
  rw [mul_hundred_eq hx]
  exact (congrArg (fun f => UnpackedFloat.unpack .binary64 (UnpackedFloat.pack .binary64 f))
    hexact).trans (unpack_pack_of_lt hhundred hm)

/-- And if it is not, it has a full mantissa. -/
theorem exists_hasValue_mul_hundred_of_le (hm : 2 ^ 52 ≤ 100 * m)
    (hhigh : (m : ℚ) * 2 ^ (-1074 : ℤ) * 100 < 2 ^ (1023 : ℤ)) :
    ∃ P, HasValue (x * 100.0) P ∧ RoundsTo (m * 2 ^ (-1074 : ℤ) * 100) P := by
  have hvalue : (m : ℚ) * 2 ^ (-1074 : ℤ) * 100 =
      (100 * m * 2 ^ 46 : ℕ) * 2 ^ (-1074 - 46 : ℤ) := by
    rw [zpow_sub₀ two_ne_zero]
    generalize (2 : ℚ) ^ (-1074 : ℤ) = unit
    push_cast
    field_simp
  have hlow : (2 : ℚ) ^ (-1022 : ℤ) ≤ m * 2 ^ (-1074 : ℤ) * 100 := by
    have hmq : (2 : ℚ) ^ (52 : ℤ) ≤ (100 * m : ℕ) := by exact_mod_cast hm
    calc (2 : ℚ) ^ (-1022 : ℤ) = 2 ^ (52 : ℤ) * 2 ^ (-1074 : ℤ) := by
          rw [← zpow_add₀ two_ne_zero]
          rfl
      _ ≤ (100 * m : ℕ) * 2 ^ (-1074 : ℤ) := mul_le_mul_of_nonneg_right hmq (two_zpow_pos _).le
      _ = m * 2 ^ (-1074 : ℤ) * 100 := by
          rw [Nat.cast_mul, Nat.cast_ofNat, mul_comm (100 : ℚ), mul_right_comm]
  have hlog : 52 ≤ (100 * m * 2 ^ 46).log2 := by
    rw [Nat.le_log2 (by positivity)]
    exact hm.trans (Nat.le_mul_of_pos_right _ (Nat.two_pow_pos 46))
  rw [hvalue] at hlow hhigh ⊢
  rw [mul_hundred_eq hx]
  exact exists_hasValue_of_bounds hlog (represents_exact _) hlow hhigh

end

/-- **A fraction in percent** is positive, and at most 100. -/
theorem exists_positiveValue_mul_hundred (h : PositiveValue x l) (hl : l ≤ 1) :
    ∃ P, PositiveValue (x * 100.0) P ∧ P ≤ 100 := by
  have hhigh : l * 100 < 2 ^ (1023 : ℤ) := lt_two_zpow_of_lt (by linarith)
  rcases h.hasValue_or with h | ⟨m, hpos, hux, hm, rfl⟩
  · have hlow : (2 : ℚ) ^ (-1022 : ℤ) ≤ l * 100 := h.two_zpow_le.trans (by linarith [h.pos])
    obtain ⟨P, hP, hr⟩ := exists_hasValue_mul h hasValue_hundred hlow hhigh
    exact ⟨P, hP.positiveValue, le_hundred_of_roundsTo hr hl⟩
  · rcases lt_or_ge (100 * m) (2 ^ 52) with hsmall | hlarge
    · refine ⟨_, positiveValue_mul_hundred_of_lt hux hsmall, ?_⟩
      linarith [mul_two_zpow_lt hsmall, two_zpow_le_one]
    · obtain ⟨P, hP, hr⟩ := exists_hasValue_mul_hundred_of_le hux hlarge hhigh
      exact ⟨P, hP.positiveValue, le_hundred_of_roundsTo hr hl⟩

/-! ## Ranks of fuel levels -/

/-- **The rank of a fuel level** of `P` percent: a fraction in percent itself, and above that
    a hundredth, rounded, times 100, rounded again. -/
inductive FuelRank : ℚ → ℚ → Prop
  | fraction {P : ℚ} : P ≤ 100 → FuelRank P P
  | percentage {P f g : ℚ} : Short P → RoundsTo (P / 100) f → RoundsTo (f * 100) g → FuelRank P g

/-- The two roundings of a percentage are small. -/
theorem abs_sub_le_of_roundsTo (hP : 0 ≤ P) (hf : RoundsTo (P / 100) f)
    (hg : RoundsTo (f * 100) g) : |P - g| ≤ P * (2 / 2 ^ 53 + 1 / 2 ^ 106) := by
  have hfirst := abs_le.1 hf.abs_sub_le_div
  have hsecond := abs_le.1 hg.abs_sub_le_div
  rw [abs_le]
  constructor <;> linarith

/-- How far the hundredth of a percentage is off, times 100. -/
theorem abs_sub_mul_hundred_le (hf : RoundsTo (P / 100) f) {t : ℤ}
    (hP : P / 100 < 2 ^ 53 * 2 ^ t) : |P - f * 100| ≤ 50 * 2 ^ t := by
  have hnear := abs_le.1 (hf.abs_sub_le_half hP)
  rw [abs_le]
  constructor <;> linarith

/-- Greater percentages have no smaller ranks. -/
theorem FuelRank.mono (h : FuelRank P g) (h' : FuelRank P' g') (hP : 100 < P) (hle : P ≤ P') :
    g ≤ g' := by
  cases h with
  | fraction hle' => exact absurd hP hle'.not_gt
  | percentage _ hf hg =>
    cases h' with
    | fraction hle' => exact absurd (hP.trans_le hle) hle'.not_gt
    | percentage _ hf' hg' =>
      have hff' := hf.mono hf' (by linarith)
      exact hg.mono hg' (by linarith)

section
variable {k : ℕ}

/-- A percentage that is rounded up to `k + 1` or more has at least the rank `k`. -/
theorem FuelRank.le_of_half (h : FuelRank P g) (hk : k < 2 ^ 51) (hP : k + 1 / 2 ≤ P) :
    k ≤ g := by
  have hkq : (k : ℚ) + 1 ≤ 2 ^ 51 := by exact_mod_cast hk
  cases h with
  | fraction _ => linarith
  | percentage _ hf hg =>
    have hsub := abs_le.1 (abs_sub_le_of_roundsTo (by linarith [Nat.cast_nonneg (α := ℚ) k]) hf hg)
    linarith

/-- From `2 ^ 51` on a percentage is a whole number of halves. -/
theorem Short.le_natCast (h : Short P) (hk : 2 ^ 51 ≤ k) (hP : P < k + 1 / 2) : P ≤ k := by
  have hkq : (2 : ℚ) ^ 51 ≤ k := by exact_mod_cast hk
  rcases lt_or_ge P (2 ^ 51) with hlt | hge
  · linarith
  · obtain ⟨n, rfl⟩ := h.exists_multiple (t := -1) (by norm_num; linarith)
    rw [zpow_neg_one] at hP ⊢
    have hlt : (n : ℚ) < (2 * k + 1 : ℕ) := by
      push_cast
      linarith
    have hle : (n : ℚ) ≤ (2 * k : ℕ) := by exact_mod_cast Nat.le_of_lt_succ (Nat.cast_lt.1 hlt)
    push_cast at hle
    linarith

/-- One that is rounded down to `k` or less has a rank below `k + 1`, as long as its hundredth
    is less than `2 ^ 46`. -/
theorem FuelRank.lt_of_half (h : FuelRank P g) (hpos : 0 ≤ P) (hP : P < k + 1 / 2)
    (hsmall : P < 100 * 2 ^ 46) (hk : k ≤ 2 ^ 53) : g < k + 1 := by
  cases h with
  | fraction _ => linarith
  | percentage hshort hf hg =>
    rcases lt_or_ge k (2 ^ 51) with hlt | hge
    · have hkq : (k : ℚ) + 1 ≤ 2 ^ 51 := by exact_mod_cast hlt
      have hsub := abs_le.1 (abs_sub_le_of_roundsTo hpos hf hg)
      linarith
    · have hPk := hshort.le_natCast hge hP
      have hnear := abs_le.1 (abs_sub_mul_hundred_le hf (t := -7) (by norm_num; linarith))
      norm_num at hnear
      exact hg.lt (short_natCast hk) (lt_add_one _) (by linarith)

/-- From `2 ^ 52` on it is a whole number. -/
theorem Short.add_two_le (h : Short P) (hlarge : 2 ^ 52 ≤ P) (hP : k + 3 / 2 ≤ P) : k + 2 ≤ P := by
  obtain ⟨n, rfl⟩ := h.exists_multiple (t := 0) (by norm_num; linarith)
  rw [zpow_zero, mul_one] at hP ⊢
  have hlt : ((k + 1 : ℕ) : ℚ) < n := by
    push_cast
    linarith
  exact_mod_cast Nat.succ_le_of_lt (Nat.cast_lt.1 hlt)

/-- One that is rounded up to `k + 2` or more has at least the rank `k + 1`. -/
theorem FuelRank.succ_le (h : FuelRank P g) (hk : k + 2 ≤ 2 ^ 53) (hP : k + 3 / 2 ≤ P)
    (hlimit : P < 2 ^ 53 + 1) : k + 1 ≤ g := by
  have hnext : Short (k + 1) := by exact_mod_cast short_natCast (n := k + 1) (by omega)
  cases h with
  | fraction _ => linarith
  | percentage hshort hf hg =>
    refine hg.le hnext ?_
    rcases lt_or_ge P (2 ^ 52) with hlt | hge
    · have hnear := abs_le.1 (abs_sub_mul_hundred_le hf (t := -7) (by norm_num; linarith))
      norm_num at hnear
      linarith
    · have hP' := hshort.add_two_le hge hP
      have hnear := abs_le.1 (abs_sub_mul_hundred_le hf (t := -6) (by norm_num; linarith))
      norm_num at hnear
      linarith

/-- **Two percentages with another one between them** have ranks with a whole number between
    them. -/
theorem FuelRank.exists_between (h : FuelRank P g) (h' : FuelRank P' g') (hpos : 0 ≤ P)
    (hk : k + 2 ≤ 2 ^ 53) (hP : P < k + 1 / 2) (hP' : k + 3 / 2 ≤ P') (hlimit : P' < 2 ^ 53 + 1) :
    ∃ n : ℕ, n ≤ k + 1 ∧ g < n + 1 ∧ n + 1 ≤ g' := by
  have hkq : (k : ℚ) + 2 ≤ 2 ^ 53 := by exact_mod_cast hk
  by_cases hnext : g < k + 1
  · exact ⟨k, by omega, hnext, h'.succ_le hk hP' hlimit⟩
  have hlarge : 100 * 2 ^ 46 ≤ P := by
    by_contra hsmall
    exact hnext (h.lt_of_half hpos hP (not_le.1 hsmall) (by omega))
  cases h with
  | fraction hle => linarith
  | percentage hshort hf hg =>
    cases h' with
    | fraction hle => linarith
    | percentage hshort' hf' hg' =>
      -- both percentages are whole numbers, and their hundredths multiples of one unit
      have hPk := hshort.le_natCast (by exact_mod_cast (by linarith : (2 : ℚ) ^ 51 ≤ k)) hP
      have hPk' := hshort'.add_two_le (by linarith) hP'
      have hnear := abs_le.1 (abs_sub_mul_hundred_le hf (t := -6) (by norm_num; linarith))
      have hnear' := abs_le.1 (abs_sub_mul_hundred_le hf' (t := -6) (by norm_num; linarith))
      obtain ⟨m, rfl⟩ := hf.exists_multiple (t := -6) (by norm_num; linarith)
      obtain ⟨m', rfl⟩ := hf'.exists_multiple (t := -6) (by norm_num; linarith)
      have hhalf : (k : ℚ) + 1 / 2 ≤ m * 2 ^ (-6 : ℤ) * 100 := by
        by_contra hlt
        exact hnext (hg.lt (short_natCast (by omega)) (lt_add_one _) (by linarith))
      norm_num at hnear hnear' hhalf
      have hlt : (m : ℚ) < m' := by linarith
      have hstep : (m : ℚ) + 1 ≤ m' := by exact_mod_cast hlt
      have hle : g ≤ (k + 1 : ℕ) := hg.ge (short_natCast (by omega)) (by
        push_cast
        norm_num
        linarith)
      have hge : ((k + 2 : ℕ) : ℚ) ≤ g' := hg'.le (short_natCast hk) (by
        push_cast
        norm_num
        linarith)
      push_cast at hle hge
      exact ⟨k + 1, le_rfl, by push_cast; linarith, by push_cast; linarith⟩

end

end EventTable.Number
