/-
  EventTable — the digits of a double are read as that double.

  * `Interval.low`, `Interval.value` and `Interval.high` are the ends of an interval and what it
    is around, `covers_iff` says which decimals lie in it, and `readsAs_of_covers` that these are
    read as the double;
  * `Interval.sub_le_of_gridPoint?_eq_none`: a grid without a point in the interval is coarser
    than that;
  * `exists_firstGrid`: of seventeen digits the grid is fine enough, so that one is found;
  * `exists_shortest` says what the digits are.
-/
import EventTable.Number.Shortest
import EventTable.Proofs.DecimalRounding

namespace EventTable.Number

open Text

theorem ten_zpow_pos (k : ℤ) : (0 : ℚ) < 10 ^ k := zpow_pos (by norm_num) k

theorem ten_zpow_eq (k : ℤ) : (10 : ℚ) ^ k = tenPow k.toNat / tenPow (-k).toNat := by
  rw [tenPow, tenPow, Nat.pow_eq, Nat.pow_eq, Nat.cast_pow, Nat.cast_pow, ← zpow_natCast,
    ← zpow_natCast, Nat.cast_ofNat, ← zpow_sub₀ (by norm_num)]
  congr 1
  omega

theorem tenPow_pos (k : ℕ) : 0 < tenPow k := Nat.pow_pos (by decide)

namespace Interval

/-- The lower end. -/
def low (i : Interval) : ℚ := i.lo / i.den

/-- The value around which the interval is. -/
def value (i : Interval) : ℚ := i.mid / i.den

/-- The upper end. -/
def high (i : Interval) : ℚ := i.hi / i.den

theorem value_nonneg (i : Interval) : 0 ≤ i.value :=
  div_nonneg (Nat.cast_nonneg _) (Nat.cast_nonneg _)

section
variable {i : Interval} (hden : 0 < i.den) {n : ℕ} {k : ℤ}
include hden

/-- **The decimals in the interval.** -/
theorem covers_iff : i.covers n k = true ↔
    if i.closed then i.low ≤ n * 10 ^ k ∧ n * 10 ^ k ≤ i.high
    else i.low < n * 10 ^ k ∧ n * 10 ^ k < i.high := by
  have hdenq : (0 : ℚ) < i.den := by exact_mod_cast hden
  have hten : (0 : ℚ) < tenPow (-k).toNat := by exact_mod_cast tenPow_pos _
  have hvalue : (n : ℚ) * 10 ^ k = n * tenPow k.toNat / tenPow (-k).toNat := by
    rw [ten_zpow_eq, mul_div_assoc]
  rw [hvalue, low, high, covers]
  cases i.closed with
  | true =>
    simp only [if_true, Bool.and_eq_true, decide_eq_true_eq]
    rw [div_le_div_iff₀ hdenq hten, div_le_div_iff₀ hten hdenq]
    norm_cast
  | false =>
    simp only [Bool.false_eq_true, if_false, Bool.and_eq_true, decide_eq_true_eq]
    rw [div_lt_div_iff₀ hdenq hten, div_lt_div_iff₀ hten hdenq]
    norm_cast

/-- Of the grid of multiples of `10 ^ k`, the one next below the value. -/
theorem gridBelow_eq : i.gridBelow k = ⌊i.value / 10 ^ k⌋₊ := by
  have hdenq : (i.den : ℚ) ≠ 0 := by exact_mod_cast hden.ne'
  have hten : (tenPow k.toNat : ℚ) ≠ 0 := by exact_mod_cast (tenPow_pos _).ne'
  have hten' : (tenPow (-k).toNat : ℚ) ≠ 0 := by exact_mod_cast (tenPow_pos _).ne'
  have hvalue : i.value / 10 ^ k =
      (i.mid * tenPow (-k).toNat : ℕ) / (i.den * tenPow k.toNat : ℕ) := by
    rw [value, ten_zpow_eq]
    push_cast
    field_simp
  rw [hvalue, Nat.floor_div_eq_div, gridBelow]

theorem gridBelow_mul_le : (i.gridBelow k : ℚ) * 10 ^ k ≤ i.value := by
  rw [← le_div_iff₀ (ten_zpow_pos k), gridBelow_eq hden]
  exact Nat.floor_le (div_nonneg i.value_nonneg (ten_zpow_pos k).le)

theorem lt_gridBelow_succ_mul : i.value < ((i.gridBelow k + 1 : ℕ) : ℚ) * 10 ^ k := by
  rw [← div_lt_iff₀ (ten_zpow_pos k), gridBelow_eq hden, Nat.cast_succ]
  exact Nat.lt_floor_add_one _

/-- What does not lie in the interval is on one side of it. -/
theorem le_low_or_high_le (h : i.covers n k = false) : n * 10 ^ k ≤ i.low ∨ i.high ≤ n * 10 ^ k := by
  have hnot : ¬ i.covers n k = true := by rw [h]; exact Bool.false_ne_true
  rw [covers_iff hden] at hnot
  by_contra hside
  rw [not_or, not_le, not_le] at hside
  apply hnot
  split
  · exact ⟨hside.1.le, hside.2.le⟩
  · exact hside

/-- A grid without a point in the interval has greater steps than that. -/
theorem sub_le_of_gridPoint?_eq_none (hlow : i.low < i.value) (hhigh : i.value < i.high)
    (h : i.gridPoint? k = none) : i.high - i.low ≤ 10 ^ k := by
  have hbelow := gridBelow_mul_le hden (k := k)
  have habove := lt_gridBelow_succ_mul hden (k := k)
  simp only [gridPoint?] at h
  split at h
  case h_4 hout hout' =>
    have hle : (i.gridBelow k : ℚ) * 10 ^ k ≤ i.low :=
      (le_low_or_high_le hden hout).resolve_right fun hge => by linarith
    have hge : i.high ≤ ((i.gridBelow k + 1 : ℕ) : ℚ) * 10 ^ k :=
      (le_low_or_high_le hden hout').resolve_left fun hle => by linarith
    rw [Nat.cast_succ] at hge
    linarith
  all_goals exact absurd h (Option.some_ne_none _)

omit hden in
/-- A point that is found lies in the interval, and not below the one next below the value. -/
theorem covers_of_gridPoint?_eq_some (h : i.gridPoint? k = some n) :
    i.covers n k = true ∧ i.gridBelow k ≤ n := by
  simp only [gridPoint?] at h
  split at h
  case h_1 hin hin' =>
    split at h
    · exact Option.some.inj h ▸ ⟨hin', Nat.le_succ _⟩
    · exact Option.some.inj h ▸ ⟨hin, le_rfl⟩
  case h_2 hin _ => exact Option.some.inj h ▸ ⟨hin, le_rfl⟩
  case h_3 _ hin' => exact Option.some.inj h ▸ ⟨hin', Nat.le_succ _⟩
  case h_4 => exact absurd h.symm (Option.some_ne_none _)

/-- The powers of ten that are passed on the way up do not exceed the value. -/
theorem ten_zpow_le_of_decimalExponent (fuel : ℕ) {e : ℤ} (he : (10 : ℚ) ^ (e - 1) ≤ i.value) :
    (10 : ℚ) ^ (decimalExponent i fuel e - 1) ≤ i.value := by
  induction fuel generalizing e with
  | zero => exact he
  | succ fuel ih =>
    rw [decimalExponent]
    split
    · exact he
    · rename_i hpassed
      apply ih
      have hdenq : (0 : ℚ) < i.den := by exact_mod_cast hden
      have hten : (0 : ℚ) < tenPow (-e).toNat := by exact_mod_cast tenPow_pos _
      rw [add_sub_cancel_right, ten_zpow_eq, value, div_le_div_iff₀ hten hdenq]
      rw [not_lt] at hpassed
      rw [mul_comm (tenPow e.toNat : ℚ)]
      exact_mod_cast hpassed

end

/-- The search ends at the first grid with a point, if there is one among those it tries. -/
theorem exists_firstGrid (i : Interval) (top : ℤ) (fuel count : ℕ) {c : ℕ}
    (hc : i.gridPoint? (top - c) ≠ none) (hle : count ≤ c) (hlt : c < count + fuel) :
    ∃ n c', count ≤ c' ∧ i.gridPoint? (top - c') = some n ∧
      firstGrid i top fuel count = (n, top - c') := by
  induction fuel generalizing count with
  | zero => omega
  | succ fuel ih =>
    rw [firstGrid]
    cases h : i.gridPoint? (top - count) with
    | some n => exact ⟨n, count, le_rfl, h, rfl⟩
    | none =>
      have hne : count ≠ c := by
        rintro rfl
        exact hc h
      obtain ⟨n, c', hle', hpoint, hfirst⟩ := ih (count + 1) (by omega) (by omega)
      exact ⟨n, c', by omega, hpoint, hfirst⟩

end Interval

/-! ## The interval of a double -/

theorem den_ofExact_pos (v : Exact) : 0 < (Interval.ofExact v).den :=
  Nat.mul_pos (by decide) (Nat.two_pow_pos _)

/-- So many quarters of a unit, over the denominator of the interval. -/
theorem quarters_div (c : ℕ) (e : ℤ) :
    ((c * twoPow e.toNat : ℕ) : ℚ) / (4 * twoPow (-e).toNat : ℕ) = c / 4 * 2 ^ e := by
  have hvalue : ((c * twoPow e.toNat : ℕ) : ℚ) / (twoPow (-e).toNat : ℕ) = c * 2 ^ e :=
    Exact.magnitude_eq ⟨false, c, e⟩
  rw [Nat.cast_mul 4, mul_comm ((4 : ℕ) : ℚ), ← div_div, hvalue]
  push_cast
  ring

section
variable (v : Exact)

theorem value_ofExact : (Interval.ofExact v).value = v.mantissa * 2 ^ v.exponent := by
  rw [Interval.value, Interval.ofExact, quarters_div]
  push_cast
  ring

theorem high_ofExact :
    (Interval.ofExact v).high = (v.mantissa + 1 / 2) * 2 ^ v.exponent := by
  rw [Interval.high, Interval.ofExact, quarters_div]
  push_cast
  ring

variable {v} (hv : Canonical v.mantissa v.exponent)
include hv

theorem low_ofExact : (Interval.ofExact v).low =
    (v.mantissa - (quartersBelow v.mantissa v.exponent : ℚ) / 4) * 2 ^ v.exponent := by
  have hlo : (Interval.ofExact v).lo =
      (4 * v.mantissa - quartersBelow v.mantissa v.exponent) * twoPow v.exponent.toNat := rfl
  have hle : quartersBelow v.mantissa v.exponent ≤ 4 * v.mantissa := by
    have hpos := hv.pos
    rw [quartersBelow]
    split <;> omega
  rw [Interval.low, hlo, Interval.ofExact, quarters_div, Nat.cast_sub hle]
  push_cast
  ring

/-- **What lies in the interval is read as the double.** -/
theorem readsAs_of_covers {n : ℕ} {k : ℤ} (h : (Interval.ofExact v).covers n k = true) :
    ReadsAs v.mantissa v.exponent (n * 10 ^ k) := by
  have hunit := two_zpow_pos v.exponent
  rw [Interval.covers_iff (den_ofExact_pos v), low_ofExact hv, high_ofExact,
    ← le_div_iff₀ hunit, ← div_le_iff₀ hunit, ← lt_div_iff₀ hunit, ← div_lt_iff₀ hunit] at h
  split at h
  · rename_i hclosed
    refine ⟨h.1, h.2, fun _ => ?_⟩
    rw [Nat.even_iff]
    exact beq_iff_eq.1 hclosed
  · exact ⟨h.1.le, h.2.le, fun hend => absurd hend (not_or.2 ⟨h.1.ne', h.2.ne⟩)⟩

/-- Seventeen digits are enough: their grid has smaller steps than the interval. -/
theorem gridPoint?_ne_none {top : ℤ}
    (htop : (10 : ℚ) ^ (top - 1) ≤ v.mantissa * 2 ^ v.exponent) :
    (Interval.ofExact v).gridPoint? (top - 17) ≠ none := by
  intro h
  have hunit := two_zpow_pos v.exponent
  have hquarters := quartersBelow_eq_or v.mantissa v.exponent
  have hpos : (1 : ℚ) ≤ quartersBelow v.mantissa v.exponent := by
    rcases hquarters with ⟨hone, -⟩ | htwo
    · rw [hone, Nat.cast_one]
    · rw [htwo, Nat.cast_two]
      exact one_le_two
  have hstep := Interval.sub_le_of_gridPoint?_eq_none (den_ofExact_pos v)
    (by rw [low_ofExact hv, value_ofExact]; exact mul_lt_mul_of_pos_right (by linarith) hunit)
    (by rw [high_ofExact, value_ofExact]; exact mul_lt_mul_of_pos_right (by linarith) hunit) h
  have hsmall : (10 : ℚ) ^ (top - 17) ≤ v.mantissa / 10 ^ 16 * 2 ^ v.exponent := by
    have hten : (10 : ℚ) ^ (top - 17) = 10 ^ (top - 1) / 10 ^ 16 := by
      rw [← zpow_natCast, ← zpow_sub₀ (by norm_num)]
      congr 1
      push_cast
      ring
    rw [hten, div_mul_eq_mul_div]
    exact div_le_div_of_nonneg_right htop (by norm_num)
  rw [low_ofExact hv, high_ofExact, ← sub_mul] at hstep
  have hle := le_of_mul_le_mul_right (hstep.trans hsmall) hunit
  rcases hquarters with ⟨hone, hpower⟩ | htwo
  · rw [hone, hpower] at hle
    norm_num at hle
  · have hm : (v.mantissa : ℚ) < 2 ^ 53 := by exact_mod_cast hv.lt
    rw [htwo] at hle
    norm_num at hle
    linarith

/-- The value of a double is not below the first power of ten that is tried. -/
theorem ten_zpow_le_value : (10 : ℚ) ^ (-330 - 1 : ℤ) ≤ v.mantissa * 2 ^ v.exponent := by
  have hm : (1 : ℚ) ≤ v.mantissa := by exact_mod_cast hv.pos
  have hpowers : (2 : ℚ) ^ 1074 ≤ 10 ^ 331 := by
    exact_mod_cast (by decide +kernel : 2 ^ 1074 ≤ 10 ^ 331)
  calc (10 : ℚ) ^ (-330 - 1 : ℤ) = ((10 : ℚ) ^ 331)⁻¹ := by
        rw [← zpow_natCast, ← zpow_neg]
        rfl
    _ ≤ ((2 : ℚ) ^ 1074)⁻¹ := inv_anti₀ (pow_pos two_pos _) hpowers
    _ = 2 ^ (-1074 : ℤ) := by
        rw [← zpow_natCast, ← zpow_neg]
        rfl
    _ ≤ 2 ^ v.exponent := zpow_le_zpow_right₀ one_le_two hv.le_exponent
    _ ≤ v.mantissa * 2 ^ v.exponent := le_mul_of_one_le_left (two_zpow_pos _).le hm

/-- **The digits of a double** are those of a number that is read as the double, without the
    zeros at their end. -/
theorem exists_shortest : ∃ (n : ℕ) (k : ℤ), 0 < n ∧
    ReadsAs v.mantissa v.exponent (n * 10 ^ k) ∧
    shortest v = ⟨dropTrailingZeros (digits n), (digits n).length + k⟩ := by
  have hstart := ten_zpow_le_value hv
  rw [← value_ofExact] at hstart
  have htop := Interval.ten_zpow_le_of_decimalExponent (den_ofExact_pos v) 700 hstart
  generalize hexponent : decimalExponent (Interval.ofExact v) 700 (-330) = top at htop
  obtain ⟨n, c, hc, hpoint, hfirst⟩ := Interval.exists_firstGrid (Interval.ofExact v) top 17 1
    (c := 17) (gridPoint?_ne_none hv (by rw [← value_ofExact]; exact htop)) (by decide) (by decide)
  obtain ⟨hcovers, hbelow⟩ := Interval.covers_of_gridPoint?_eq_some hpoint
  refine ⟨n, top - c, lt_of_lt_of_le ?_ hbelow, readsAs_of_covers hv hcovers, ?_⟩
  · rw [Interval.gridBelow_eq (den_ofExact_pos v), Nat.floor_pos, one_le_div (ten_zpow_pos _)]
    exact (zpow_le_zpow_right₀ (by norm_num) (by omega)).trans htop
  · simp only [shortest, hexponent, hfirst]

end

end EventTable.Number
