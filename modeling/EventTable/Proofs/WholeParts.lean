/-
  EventTable — positive doubles rounded to whole numbers, and the order of those.

  * `toNat_toBits_of_hasValue`: the bit pattern of a double with a full mantissa, and
    `Rounded.orderKey_le` and `HasValue.orderKey_lt`: such doubles, and infinity, stand on
    the line of all doubles as their values do;
  * `WholeKey x n` says that a double, or infinity, stands for the whole number `n`;
  * `PositiveValue` ties any positive finite double to its value, also the small ones whose
    mantissa is not full (`positiveValue_iff`);
  * `wholeKey_truncate` and `wholeKey_roundHalfAway`: what such a double is rounded to as a
    double, and `roundToInt64_of_positiveValue` as an integer of 64 bits.
-/
import EventTable.Proofs.Quotients
import EventTable.Proofs.ShownNumbers

namespace EventTable.Number

open Float.Model (UnpackedFloat Format totalExponent)
open Float.Model.UnpackedFloat

variable {x y : Float} {a b q : ℚ}

/-! ## The line of all doubles -/

theorem toNat_toBits_of_unpack {m : ℕ} {e : ℤ} {hpos : 0 < m}
    (hx : x.toModel.unpack = .finite .positive m e hpos) (hm : m.log2 = 52) (he : -1074 ≤ e)
    (he' : e ≤ 971) : x.toBits.toNat = (e + 1074).toNat * 2 ^ 52 + m := by
  have hbits : x.toBits.toBitVec = UnpackedFloat.pack .binary64 x.toModel.unpack :=
    (UnpackedFloat.pack_unpack_of_valid x.toModel.valid).symm
  rw [← UInt64.toNat_toBitVec, hbits, hx]
  exact toNat_pack hm hpos he he'

/-- The place of a double with a full mantissa: the exponent counts first. -/
theorem exists_orderKey_eq (hx : HasValue x a) : ∃ (m : ℕ) (e : ℤ), 2 ^ 52 ≤ m ∧ m < 2 ^ 53 ∧
    -1074 ≤ e ∧ e ≤ 971 ∧ a = m * 2 ^ e ∧ orderKey x = (e + 1074) * 2 ^ 52 + m := by
  obtain ⟨m, e, hpos, hux, hm, he, he', rfl⟩ := hx
  obtain ⟨hfull, hlt⟩ := (Nat.log2_eq_iff hpos.ne').1 hm
  have hbits := toNat_toBits_of_unpack hux hm he he'
  refine ⟨m, e, hfull, hlt, he, he', rfl, ?_⟩
  rw [orderKey, hbits, if_pos (by show _ < 9223372036854775808; omega)]
  push_cast
  rw [Int.toNat_of_nonneg (by omega)]

/-- **Doubles stand on the line as their values do.** -/
theorem orderKey_le_iff (hx : HasValue x a) (hy : HasValue y b) :
    orderKey x ≤ orderKey y ↔ a ≤ b := by
  obtain ⟨m, e, hfull, hlt, -, -, rfl, hkey⟩ := exists_orderKey_eq hx
  obtain ⟨m', e', hfull', hlt', -, -, rfl, hkey'⟩ := exists_orderKey_eq hy
  rw [hkey, hkey']
  rcases lt_trichotomy e e' with he | rfl | he
  · exact iff_of_true (by omega) (mul_zpow_lt_of_lt hlt hfull' he).le
  · rw [mul_le_mul_iff_left₀ (two_zpow_pos e), Nat.cast_le, Int.add_le_add_iff_left, Int.ofNat_le]
  · exact iff_of_false (by omega) (mul_zpow_lt_of_lt hlt' hfull he).not_ge

theorem HasValue.orderKey_pos (hx : HasValue x a) : 0 < orderKey x := by
  obtain ⟨m, e, hfull, -, he, -, -, hkey⟩ := exists_orderKey_eq hx
  omega

theorem orderKey_infinity : orderKey infinity = 2047 * 2 ^ 52 := by decide +kernel

theorem HasValue.orderKey_lt_infinity (hx : HasValue x a) : orderKey x < orderKey infinity := by
  obtain ⟨m, e, -, hlt, -, he', -, hkey⟩ := exists_orderKey_eq hx
  rw [hkey, orderKey_infinity]
  omega

theorem HasValue.lt_two_pow (hx : HasValue x a) : a < 2 ^ 1024 := by
  obtain ⟨m, e, -, hlt, -, he', rfl, -⟩ := exists_orderKey_eq hx
  have hltq : (m : ℚ) < 2 ^ (53 : ℤ) := by exact_mod_cast hlt
  calc (m : ℚ) * 2 ^ e < 2 ^ (53 : ℤ) * 2 ^ e := mul_lt_mul_of_pos_right hltq (two_zpow_pos e)
    _ ≤ 2 ^ (53 : ℤ) * 2 ^ (971 : ℤ) :=
      mul_le_mul_of_nonneg_left (zpow_le_zpow_right₀ one_le_two he') (two_zpow_pos 53).le
    _ = 2 ^ 1024 := by
      rw [← zpow_add₀ two_ne_zero, ← zpow_natCast]
      rfl

theorem HasValue.pos (hx : HasValue x a) : 0 < a := by
  obtain ⟨m, e, hpos, -, -, -, -, rfl⟩ := hx
  exact mul_pos (by exact_mod_cast hpos) (two_zpow_pos e)

theorem HasValue.short (hx : HasValue x a) : Short a := by
  obtain ⟨m, e, hpos, -, hm, -, -, rfl⟩ := hx
  exact ⟨m, e, ((Nat.log2_eq_iff hpos.ne').1 hm).2.le, rfl⟩

theorem HasValue.orderKey_lt (hx : HasValue x a) (hy : Rounded y b) (hab : a < b) :
    orderKey x < orderKey y := by
  cases hy with
  | value hy =>
    rw [← not_le, orderKey_le_iff hy hx]
    exact hab.not_ge
  | overflow hy _ =>
    rw [hy]
    exact hx.orderKey_lt_infinity

theorem Rounded.orderKey_pos (hx : Rounded x a) : 0 < orderKey x := by
  cases hx with
  | value hx => exact hx.orderKey_pos
  | overflow hx _ =>
    rw [hx, orderKey_infinity]
    decide

theorem Rounded.orderKey_le (hx : Rounded x a) (hy : Rounded y b) (hab : a ≤ b) :
    orderKey x ≤ orderKey y := by
  cases hx with
  | value hx =>
    cases hy with
    | value hy => exact (orderKey_le_iff hx hy).2 hab
    | overflow hy _ =>
      rw [hy]
      exact hx.orderKey_lt_infinity.le
  | overflow hx hlarge =>
    cases hy with
    | value hy => exact absurd (hlarge.trans hab) hy.lt_two_pow.not_ge
    | overflow hy _ => rw [hx, hy]

/-! ## Whole numbers as keys -/

/-- The double stands for the whole number: it holds it, or is infinity if the number is too
    great. -/
inductive WholeKey (x : Float) (n : ℕ) : Prop
  | zero : x = Float.ofNat 0 → n = 0 → WholeKey x n
  | positive : Rounded x n → WholeKey x n

section
variable {n k : ℕ}

theorem orderKey_ofNat_zero : orderKey (Float.ofNat 0) = 0 := by decide +kernel

theorem wholeKey_ofNat (h : n < 2 ^ 53) : WholeKey (Float.ofNat n) n := by
  rcases Nat.eq_zero_or_pos n with rfl | hpos
  · exact .zero rfl rfl
  · exact .positive (.value (hasValue_ofNat hpos h))

theorem Rounded.pos (h : Rounded x a) : 0 < a := by
  cases h with
  | value h => exact h.pos
  | overflow _ h => exact lt_of_lt_of_le (by norm_num) h

/-- **Keys stand on the line as their numbers do.** -/
theorem WholeKey.orderKey_le (hx : WholeKey x n) (hy : WholeKey y k) (hle : n ≤ k) :
    orderKey x ≤ orderKey y := by
  cases hx with
  | zero hx _ =>
    rw [hx, orderKey_ofNat_zero]
    cases hy with
    | zero hy _ => rw [hy, orderKey_ofNat_zero]
    | positive hy => exact hy.orderKey_pos.le
  | positive hx =>
    cases hy with
    | zero _ hk =>
      rw [hk, Nat.le_zero] at hle
      exact absurd hx.pos (by rw [hle, Nat.cast_zero]; exact lt_irrefl 0)
    | positive hy => exact hx.orderKey_le hy (by exact_mod_cast hle)

theorem WholeKey.orderKey_lt (hx : WholeKey x n) (hy : WholeKey y k) (hlt : n < k)
    (hn : n < 2 ^ 63) : orderKey x < orderKey y := by
  cases hy with
  | zero _ hk => omega
  | positive hy =>
    cases hx with
    | zero hx _ =>
      rw [hx, orderKey_ofNat_zero]
      exact hy.orderKey_pos
    | positive hx =>
      cases hx with
      | value hx => exact hx.orderKey_lt hy (by exact_mod_cast hlt)
      | overflow _ hlarge =>
        have hnq : (n : ℚ) < 2 ^ 63 := by exact_mod_cast hn
        exact absurd hlarge (hnq.trans_le (pow_le_pow_right₀ one_le_two (by decide))).not_ge

theorem isNaN_of_hasValue (hx : HasValue x a) : x.isNaN = false := by
  obtain ⟨m, e, hpos, hux, -⟩ := hx
  show x.toModel.unpack.isNaN = false
  rw [hux]
  rfl

theorem WholeKey.isNaN_eq_false (hx : WholeKey x n) : x.isNaN = false := by
  cases hx with
  | zero hx _ =>
    rw [hx]
    decide +kernel
  | positive hx =>
    cases hx with
    | value hx => exact isNaN_of_hasValue hx
    | overflow hx _ =>
      rw [hx]
      decide +kernel

end

/-! ## Positive finite doubles -/

/-- The double is positive and finite, and its value is `q`. -/
def PositiveValue (x : Float) (q : ℚ) : Prop :=
  ∃ m e h, x.toModel.unpack = .finite .positive m e h ∧ q = m * 2 ^ e

theorem HasValue.positiveValue (h : HasValue x q) : PositiveValue x q := by
  obtain ⟨m, e, hpos, hux, -, -, -, rfl⟩ := h
  exact ⟨m, e, hpos, hux, rfl⟩

theorem PositiveValue.pos (h : PositiveValue x q) : 0 < q := by
  obtain ⟨m, e, hpos, -, rfl⟩ := h
  exact mul_pos (by exact_mod_cast hpos) (two_zpow_pos e)

/-- These are the doubles that compare so. -/
theorem exists_positiveValue_iff :
    (∃ q, PositiveValue x q) ↔ 0.0 < x ∧ x.isFinite = true := by
  have hlt : 0.0 < x ↔ UnpackedFloat.lt (.zero .positive) x.toModel.unpack = true := by
    show decide (UnpackedFloat.lt _ x.toModel.unpack = true) = true ↔ _
    rw [decide_eq_true_iff]
    rfl
  have hfinite : x.isFinite = x.toModel.unpack.isFinite := rfl
  rw [hlt, hfinite]
  constructor
  · rintro ⟨q, m, e, hpos, hux, -⟩
    rw [hux]
    exact ⟨rfl, rfl⟩
  · rintro ⟨hlt, hfinite⟩
    cases hux : x.toModel.unpack with
    | finite s m e hpos =>
      rw [hux] at hlt
      cases s with
      | positive => exact ⟨_, m, e, hpos, hux, rfl⟩
      | negative => exact absurd hlt Bool.false_ne_true
    | zero s =>
      rw [hux] at hlt
      cases s <;> exact absurd hlt (by decide)
    | infinity s =>
      rw [hux] at hfinite
      exact absurd hfinite (by cases s <;> decide)
    | notANumber =>
      rw [hux] at hfinite
      exact absurd hfinite (by decide)

/-- A mantissa is full unless the double is small. -/
theorem PositiveValue.hasValue_or (h : PositiveValue x q) : HasValue x q ∨
    ∃ m hpos, x.toModel.unpack = .finite .positive m (-1074) hpos ∧ m < 2 ^ 52 ∧
      q = m * 2 ^ (-1074 : ℤ) := by
  obtain ⟨m, e, hpos, hux, rfl⟩ := h
  obtain ⟨he, he', hm | ⟨hm, rfl⟩⟩ := bounds_of_unpack hux
  · exact .inl ⟨m, e, hpos, hux, hm, he, he', rfl⟩
  · exact .inr ⟨m, hpos, hux, hm, rfl⟩

/-- A double whose exponent is not negative is a whole number, and any other one is less than
    `2 ^ 52`. -/
theorem PositiveValue.exists_exact (h : PositiveValue x q) : ∃ v, Exact.ofFloat? x = some v ∧
    v.negative = false ∧ v.magnitude = q ∧ (0 ≤ v.exponent → ∃ n : ℕ, q = n ∧ HasValue x n) ∧
      (v.exponent < 0 → q < 2 ^ 52) := by
  obtain ⟨m, e, hpos, hux, rfl⟩ := h
  obtain ⟨he, he', hm⟩ := bounds_of_unpack hux
  have hv : Exact.ofFloat? x = some ⟨false, m, e⟩ := by
    rw [Exact.ofFloat?, hux]
    rfl
  refine ⟨⟨false, m, e⟩, hv, rfl, Exact.magnitude_eq _, ?_, ?_⟩
  · intro hwhole
    have hwhole' : 0 ≤ e := hwhole
    have hn : (m : ℚ) * 2 ^ e = (m * 2 ^ e.toNat : ℕ) := by
      rw [Nat.cast_mul, Nat.cast_pow, Nat.cast_two, ← zpow_natCast, Int.toNat_of_nonneg hwhole]
    refine ⟨m * 2 ^ e.toNat, hn, m, e, hpos, hux, ?_, he, he', hn.symm⟩
    rcases hm with hm | ⟨-, hleast⟩
    · exact hm
    · omega
  · intro hfraction
    have hfraction' : e ≤ -1 := by
      have hlt : e < 0 := hfraction
      omega
    have hmlt : (m : ℚ) < 2 ^ 53 := by exact_mod_cast mantissa_lt_of_ofFloat? hv
    calc (m : ℚ) * 2 ^ e < 2 ^ 53 * 2 ^ e := mul_lt_mul_of_pos_right hmlt (two_zpow_pos e)
      _ ≤ 2 ^ 53 * 2 ^ (-1 : ℤ) :=
        mul_le_mul_of_nonneg_left (zpow_le_zpow_right₀ one_le_two hfraction') (by norm_num)
      _ = 2 ^ 52 := by norm_num

theorem Exact.floorMagnitude_eq (v : Exact) : v.floorMagnitude = ⌊v.magnitude⌋₊ := by
  rw [magnitude, Nat.floor_div_eq_div]
  rfl

theorem Exact.roundMagnitude_eq (v : Exact) : v.roundMagnitude = ⌊v.magnitude + 1 / 2⌋₊ := by
  have hden : (v.den : ℚ) ≠ 0 := by exact_mod_cast v.den_pos.ne'
  have hsum : v.magnitude + 1 / 2 = (2 * v.num + v.den : ℕ) / (2 * v.den : ℕ) := by
    rw [magnitude]
    push_cast
    field_simp
  rw [hsum, Nat.floor_div_eq_div]
  rfl

theorem floor_natCast_add_half (n : ℕ) : ⌊(n : ℚ) + 1 / 2⌋₊ = n := by
  rw [Nat.floor_eq_iff (by positivity)]
  constructor <;> linarith

/-! ## Rounding to whole numbers -/

/-- **The digits behind the binary point are cut off.** -/
theorem wholeKey_truncate (h : PositiveValue x q) : WholeKey (truncate x) ⌊q⌋₊ := by
  obtain ⟨v, hv, hsign, rfl, hwhole, hfraction⟩ := h.exists_exact
  simp only [truncate, hv]
  split
  · rename_i he
    obtain ⟨n, hn, hx⟩ := hwhole he
    rw [hn, Nat.floor_natCast]
    exact .positive (.value hx)
  · rename_i he
    rw [hsign, if_neg Bool.false_ne_true, v.floorMagnitude_eq]
    have hlt : ⌊v.magnitude⌋₊ < 2 ^ 52 :=
      (Nat.floor_lt v.magnitude_nonneg).2 (by exact_mod_cast hfraction (not_le.1 he))
    exact wholeKey_ofNat (by omega)

/-- So they are of infinity, which has none. -/
theorem Rounded.wholeKey_truncate (h : Rounded x q) : WholeKey (truncate x) ⌊q⌋₊ := by
  cases h with
  | value h => exact Number.wholeKey_truncate h.positiveValue
  | overflow hx hlarge =>
    have htruncate : truncate infinity = infinity := by decide +kernel
    rw [hx, htruncate]
    refine .positive (.overflow rfl ?_)
    have hfloor : 2 ^ 1024 ≤ ⌊q⌋₊ := Nat.le_floor (by exact_mod_cast hlarge)
    exact_mod_cast hfloor

/-- **A double is rounded to the nearest whole number**, a half upward. -/
theorem wholeKey_roundHalfAway (h : PositiveValue x q) :
    WholeKey (roundHalfAway x) ⌊q + 1 / 2⌋₊ := by
  obtain ⟨v, hv, hsign, rfl, hwhole, hfraction⟩ := h.exists_exact
  simp only [roundHalfAway, hv]
  split
  · rename_i he
    obtain ⟨n, hn, hx⟩ := hwhole he
    rw [hn, floor_natCast_add_half]
    exact .positive (.value hx)
  · rename_i he
    rw [hsign, if_neg Bool.false_ne_true, v.roundMagnitude_eq]
    have hlt : ⌊v.magnitude + 1 / 2⌋₊ < 2 ^ 53 := by
      rw [Nat.floor_lt (by linarith [v.magnitude_nonneg])]
      push_cast
      linarith [hfraction (not_le.1 he)]
    exact wholeKey_ofNat hlt

/-- As an integer of 64 bits it may be too great. -/
theorem roundToInt64_of_positiveValue (h : PositiveValue x q) :
    roundToInt64 x = min (⌊q + 1 / 2⌋₊ : ℤ) maxInt64 := by
  obtain ⟨v, hv, hsign, rfl, -, -⟩ := h.exists_exact
  simp only [roundToInt64, hv]
  rw [Exact.signed, hsign, if_neg Bool.false_ne_true, v.roundMagnitude_eq, clampInt64]
  unfold minInt64 maxInt64
  omega

end EventTable.Number
