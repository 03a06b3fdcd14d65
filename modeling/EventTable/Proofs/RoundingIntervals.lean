/-
  EventTable — the decimals that are read as a given double.

  * `Canonical m e`: the mantissa and the exponent of a double;
  * `ReadsAs m e q`: the rational number `q` lies in the interval of those that are rounded to
    `m · 2 ^ e`, and `roundWithAccuracy_of_readsAs`: they are;
  * `Fits` holds of a mantissa with an exponent that has digits enough to be rounded.
-/
import EventTable.Proofs.LevelRanks

namespace EventTable.Number

open Float.Model (UnpackedFloat Format totalExponent)
open Float.Model.UnpackedFloat

/-! ## The interval of a double -/

/-- The mantissa and the exponent of a double: the mantissa is full, or the exponent the least
    one. -/
structure Canonical (m : ℕ) (e : ℤ) : Prop where
  pos : 0 < m
  le_exponent : -1074 ≤ e
  full : m.log2 = 52 ∨ m < 2 ^ 52 ∧ e = -1074

/-- How many quarters of a unit the interval reaches below `m · 2 ^ e`: the unit below a power
    of two is half as great, but for the least one. -/
def quartersBelow (m : ℕ) (e : ℤ) : ℕ := if m = 2 ^ 52 ∧ -1074 < e then 1 else 2

/-- **The number is read as the double**: it lies between the middles to both neighbours of
    `m · 2 ^ e`, or is one of these if the mantissa is even. -/
structure ReadsAs (m : ℕ) (e : ℤ) (q : ℚ) : Prop where
  low : m - (quartersBelow m e : ℚ) / 4 ≤ q / 2 ^ e
  high : q / 2 ^ e ≤ m + 1 / 2
  even : q / 2 ^ e = m - (quartersBelow m e : ℚ) / 4 ∨ q / 2 ^ e = m + 1 / 2 → Even m

/-- The mantissa has digits enough to be rounded, or the least exponent. -/
def Fits (m : ℕ) (e : ℤ) : Prop := 52 ≤ m.log2 ∨ e ≤ -1074

variable {m : ℕ} {e : ℤ} {q : ℚ}

theorem Canonical.lt (h : Canonical m e) : m < 2 ^ 53 := by
  rcases h.full with hm | ⟨hm, -⟩
  · exact ((Nat.log2_eq_iff h.pos.ne').1 hm).2
  · omega

theorem Canonical.le_of_lt (h : Canonical m e) (he : -1074 < e) : 2 ^ 52 ≤ m := by
  rcases h.full with hm | ⟨-, rfl⟩
  · exact ((Nat.log2_eq_iff h.pos.ne').1 hm).1
  · exact absurd he (lt_irrefl _)

theorem Canonical.target_eq (h : Canonical m e) : max ((m.log2 : ℤ) - 52 + e) (-1074) = e := by
  have hle := h.le_exponent
  rcases h.full with hm | ⟨hm, rfl⟩
  · omega
  · have hlog := (Nat.log2_lt h.pos.ne').2 hm
    omega

theorem quartersBelow_eq_or (m : ℕ) (e : ℤ) :
    quartersBelow m e = 1 ∧ m = 2 ^ 52 ∨ quartersBelow m e = 2 := by
  rw [quartersBelow]
  split
  · exact .inl ⟨rfl, (‹_ ∧ _› : _).1⟩
  · exact .inr rfl

theorem quartersBelow_le (m : ℕ) (e : ℤ) : (quartersBelow m e : ℚ) ≤ 2 := by
  rcases quartersBelow_eq_or m e with ⟨h, -⟩ | h <;> rw [h] <;> norm_num

/-! ## Rounding into the interval -/

section
variable {M : ℕ} {E s : ℤ} {accuracy : Accuracy} {Q : ℚ}
  (hfits : Fits M E) (hrep : Represents (.ofMantissaAndAccuracy M accuracy) Q)
  (hs : -1074 ≤ s) (hlow : 2 ^ 52 * 2 ^ s ≤ Q * 2 ^ E ∨ s = -1074) (hhigh : Q * 2 ^ E < 2 ^ 53 * 2 ^ s)
include hfits hrep hs hlow hhigh

/-- A number in the binade of the unit `2 ^ s` is rounded to that unit. -/
theorem targetExponent_eq : max ((M.log2 : ℤ) - 52 + E) (-1074) = s := by
  obtain ⟨hMlow, hMhigh⟩ := hrep.bounds
  rw [mantissa_ofMantissaAndAccuracy] at hMlow hMhigh
  have hupper : (M.log2 : ℤ) + E < 53 + s := by
    rcases Nat.eq_zero_or_pos M with rfl | hpos
    · rcases hfits with hM | hE
      · exact absurd hM (by decide)
      · rw [Nat.log2_zero, Nat.cast_zero]
        omega
    · have hfull : (2 : ℚ) ^ (M.log2 : ℤ) ≤ M := by
        exact_mod_cast Nat.log2_self_le hpos.ne'
      rw [← zpow_lt_zpow_iff_right₀ (one_lt_two (α := ℚ)), zpow_add₀ two_ne_zero,
        zpow_add₀ two_ne_zero]
      exact (mul_le_mul_of_nonneg_right (hfull.trans hMlow) (two_zpow_pos E).le).trans_lt hhigh
  rcases hlow with hlow | rfl
  · have hlt : (2 : ℚ) ^ ((52 : ℤ) + s) < 2 ^ ((M.log2 : ℤ) + 1 + E) := by
      have hM : (M : ℚ) + 1 ≤ 2 ^ ((M.log2 : ℤ) + 1) := by
        exact_mod_cast Nat.lt_log2_self (n := M)
      rw [zpow_add₀ two_ne_zero, zpow_add₀ two_ne_zero]
      exact hlow.trans_lt (mul_lt_mul_of_pos_right (hMhigh.trans_le hM) (two_zpow_pos E))
    rw [zpow_lt_zpow_iff_right₀ one_lt_two] at hlt
    omega
  · omega

theorem exists_shiftToTargetExponent_eq :
    ∃ em, shiftToTargetExponent .binary64 M E accuracy = (em, s) ∧ Represents em (Q * 2 ^ E / 2 ^ s) := by
  have ht := targetExponent_eq hfits hrep hs hlow hhigh
  have htarget : Format.binary64.targetExponent (totalExponent M E) = s := by
    rw [targetExponent_binary64, totalExponent]
    omega
  have hle : E ≤ s := by
    rcases hfits with hM | hE
    · omega
    · omega
  obtain ⟨k, hk⟩ := Int.le.dest hle
  have hshift : (s - E).toNat = k := by omega
  refine ⟨ExtendedMantissa.ofMantissaAndAccuracy M accuracy >>> k, ?_, ?_⟩
  · rw [shiftToTargetExponent, htarget, shiftToExponent, hshift, hk]
  · have hvalue : Q * 2 ^ E / 2 ^ s = Q / 2 ^ k := by
      have hE := (two_zpow_pos E).ne'
      rw [← hk, zpow_add₀ two_ne_zero, zpow_natCast]
      field_simp
    rw [hvalue]
    exact hrep.shiftRight k

end

/-- A number of the interval is nearest to the mantissa, in units of its exponent. -/
theorem ReadsAs.nearestEven (h : ReadsAs m e q) : NearestEven (q / 2 ^ e) m := by
  have hbelow := quartersBelow_le m e
  have hlow := h.low
  have hhigh := h.high
  refine ⟨?_, fun htie => h.even ?_⟩
  · rw [abs_le]
    constructor <;> linarith
  · rcases abs_eq (by norm_num : (0 : ℚ) ≤ 1 / 2) |>.1 htie with htie | htie
    · exact .inr (by linarith)
    · exact .inl (by linarith)

theorem NearestEven.unique {n n' : ℕ} (h : NearestEven q n) (h' : NearestEven q n') : n = n' :=
  le_antisymm (h.le_of_le h') (h'.le_of_le h)

/-- Zeros behind a mantissa are dropped. -/
theorem roundWithAccuracy_eq_of_shift {M : ℕ} {E s : ℤ} {accuracy : Accuracy} {em : ExtendedMantissa}
    {k : ℕ} (h : Canonical m e) (sign : Sign)
    (hshift : shiftToTargetExponent .binary64 M E accuracy = (em, s))
    (hrounded : em.roundedMantissa = m * 2 ^ k) (hs : s = e - k) :
    roundWithAccuracy .binary64 sign M E accuracy = .finite sign m e h.pos := by
  have hagain := shiftToTargetExponent_mul_two_pow h.pos h.target_eq k
  simp only [roundWithAccuracy, hshift, hrounded, hs, hagain]
  exact dif_neg h.pos.ne'

/-- **Numbers of the interval are rounded to the double.**  Below a power of two they lie in
    the next lower binade, and are rounded up to its end. -/
theorem roundWithAccuracy_of_readsAs {M : ℕ} {E : ℤ} {accuracy : Accuracy} {Q : ℚ}
    (h : Canonical m e) (hfits : Fits M E)
    (hrep : Represents (.ofMantissaAndAccuracy M accuracy) Q) (hreads : ReadsAs m e (Q * 2 ^ E))
    (sign : Sign) : roundWithAccuracy .binary64 sign M E accuracy = .finite sign m e h.pos := by
  have hunit := two_zpow_pos e
  have hm : (m : ℚ) + 1 ≤ 2 ^ 53 := by exact_mod_cast h.lt
  have hhigh : Q * 2 ^ E < 2 ^ 53 * 2 ^ e := by
    rw [← div_lt_iff₀ hunit]
    linarith [hreads.high]
  by_cases hbinade : 2 ^ 52 * 2 ^ e ≤ Q * 2 ^ E ∨ e = -1074
  · obtain ⟨em, hshift, hem⟩ :=
      exists_shiftToTargetExponent_eq hfits hrep h.le_exponent hbinade hhigh
    have hrounded : em.roundedMantissa = m := hem.nearestEven.unique hreads.nearestEven
    exact roundWithAccuracy_eq_of_shift (k := 0) h sign hshift (by rw [hrounded, pow_zero, mul_one])
      (by rw [Nat.cast_zero, sub_zero])
  · rw [not_or, not_le, ← div_lt_iff₀ hunit] at hbinade
    obtain ⟨hbelow, hne⟩ := hbinade
    have hlt : -1074 < e := lt_of_le_of_ne h.le_exponent (Ne.symm hne)
    have hlow := hreads.low
    have hpower : m = 2 ^ 52 := by
      have hquarters := quartersBelow_le m e
      have hm : (m : ℚ) < (2 ^ 52 + 1 : ℕ) := by
        push_cast
        linarith
      exact le_antisymm (Nat.le_of_lt_succ (by exact_mod_cast hm)) (h.le_of_lt hlt)
    rw [quartersBelow, if_pos ⟨hpower, hlt⟩, hpower] at hlow
    push_cast at hlow
    have hhalf : Q * 2 ^ E / 2 ^ (e - 1) = 2 * (Q * 2 ^ E / 2 ^ e) := by
      rw [zpow_sub_one₀ two_ne_zero]
      field_simp
    have hunit' := two_zpow_pos (e - 1)
    obtain ⟨em, hshift, hem⟩ := exists_shiftToTargetExponent_eq (s := e - 1) hfits hrep (by omega)
      (.inl ((le_div_iff₀ hunit').1 (by linarith))) ((div_lt_iff₀ hunit').1 (by linarith))
    have hnear : NearestEven (Q * 2 ^ E / 2 ^ (e - 1)) (2 ^ 53) := by
      refine ⟨?_, fun _ => by decide⟩
      rw [abs_le]
      push_cast
      constructor <;> linarith
    refine roundWithAccuracy_eq_of_shift (k := 1) h sign hshift ?_ rfl
    rw [hem.nearestEven.unique hnear, hpower]
    norm_num

end EventTable.Number
