/-
  EventTable — the units of the last place that a number is rounded to.

  `roundedUnits` scales the magnitude of a double by a power of ten and rounds it: half a
  unit and a nudge are added before it is rounded down, and from `2 ^ 53` units on it is
  rounded to the nearest whole number instead.

  * `hasValue_abs`: the magnitude of a double that is not too small has a full mantissa;
  * `UnitsOf s u` says how the scaled magnitude `s` is rounded to `u`, and
    `unitsOf_roundedUnits` that `roundedUnits` does so;
  * `UnitsOf.eq_natCast_iff` and `UnitsOf.eq_half_iff`: which whole numbers are kept, and
    which halves are rounded up.
-/
import EventTable.Proofs.Rounding

namespace EventTable.Number

open Float.Model (UnpackedFloat Format totalExponent)
open Float.Model.UnpackedFloat

/-! ## Magnitudes as doubles -/

theorem log2_eq_of_lt {m : ℕ} (h : m < 2 ^ 52) : (2 ^ 52 + m).log2 = 52 :=
  (Nat.log2_eq_iff (by omega)).2 ⟨by omega, by omega⟩

theorem toNat_one_append (b : BitVec 52) : (1#1 ++ b).toNat = 2 ^ 52 + b.toNat := by
  rw [BitVec.toNat_append, ← Nat.shiftLeft_add_eq_or_of_lt b.isLt]
  rfl

/-- A mantissa is full unless the exponent is the least one. -/
theorem bounds_of_unpack {b : BitVec Format.binary64.numBits} {s : Sign} {m : ℕ} {e : ℤ}
    {hm : 0 < m} (h : UnpackedFloat.unpack .binary64 b = .finite s m e hm) :
    -1074 ≤ e ∧ e ≤ 971 ∧ (m.log2 = 52 ∨ m < 2 ^ 52 ∧ e = -1074) := by
  have hbias : (Format.binary64.exponentBias : ℤ) +
    Format.binary64.mantissaBitsWithoutImplicit = 1075 := rfl
  have hmantissa : (unpackMantissa b).toNat < 2 ^ 52 := (unpackMantissa b).isLt
  have hexponent : (unpackExponent b).toNat < 2048 := (unpackExponent b).isLt
  rw [UnpackedFloat.unpack] at h
  simp only [hbias] at h
  split at h
  · split at h <;> cases h
  · rename_i hfinite
    split at h
    · rename_i hleast
      split at h
      · cases h
      · cases h
        rw [hleast]
        exact ⟨by decide, by decide, .inr ⟨hmantissa, by decide⟩⟩
    · rename_i hnormal
      have hpos : (unpackExponent b).toNat ≠ 0 := fun h0 =>
        hnormal (BitVec.eq_of_toNat_eq h0)
      have hmax : (unpackExponent b).toNat ≠ 2047 := fun h0 =>
        hfinite (BitVec.eq_of_toNat_eq h0)
      cases h
      refine ⟨by omega, by omega, .inl ?_⟩
      exact (congrArg Nat.log2 (toNat_one_append _)).trans (log2_eq_of_lt hmantissa)

variable {x : Float} {a : ℚ}

/-- A double with a value is a zero or has a mantissa. -/
theorem unpack_of_ofFloat? {v : Exact} (hv : Exact.ofFloat? x = some v) :
    (∃ s, x.toModel.unpack = .zero s ∧ v = ⟨s == .negative, 0, 0⟩) ∨
      ∃ s m e hm, x.toModel.unpack = .finite s m e hm ∧ v = ⟨s == .negative, m, e⟩ := by
  rw [Exact.ofFloat?] at hv
  cases hu : x.toModel.unpack with
  | zero s => rw [hu] at hv; exact .inl ⟨s, rfl, (Option.some.inj hv).symm⟩
  | finite s m e hm => rw [hu] at hv; exact .inr ⟨s, m, e, hm, rfl, (Option.some.inj hv).symm⟩
  | infinity s => rw [hu] at hv; cases hv
  | notANumber => rw [hu] at hv; cases hv

/-- **The magnitude of a double** of at least `2 ^ -1022` has a full mantissa. -/
theorem hasValue_abs {v : Exact} (hv : Exact.ofFloat? x = some v)
    (hlow : (2 : ℚ) ^ (-1022 : ℤ) ≤ v.magnitude) : HasValue x.abs v.magnitude := by
  have habs : x.abs.toModel = .pack x.toModel.unpack.abs := rfl
  rw [Exact.magnitude_eq] at hlow ⊢
  rcases unpack_of_ofFloat? hv with ⟨s, -, rfl⟩ | ⟨s, m, e, hpos, hu, rfl⟩
  · rw [Nat.cast_zero, zero_mul] at hlow
    exact absurd hlow (two_zpow_pos _).not_ge
  · obtain ⟨he, he', hm | ⟨hm, rfl⟩⟩ := bounds_of_unpack hu
    · rw [hu] at habs
      exact ⟨m, e, hpos, by rw [habs]; exact unpack_pack hm hpos he he', hm, he, he', rfl⟩
    · have hsmall : (m : ℚ) < 2 ^ 52 := by exact_mod_cast hm
      have hlt := mul_lt_mul_of_pos_right hsmall (two_zpow_pos (-1074))
      have hbound : (2 : ℚ) ^ 52 * 2 ^ (-1074 : ℤ) = 2 ^ (-1022 : ℤ) := by
        rw [← zpow_natCast, ← zpow_add₀ two_ne_zero]
        rfl
      exact absurd hlow (hbound ▸ hlt).not_ge

/-- A whole number below `2 ^ 53`, times a power of two, fills up a mantissa. -/
theorem hasValue_of_unpack {n : ℕ} (hpos : 0 < n) (h : n < 2 ^ 53) {j : ℕ} (hj : j ≤ 971)
    (hx : x.toModel.unpack = .finite .positive (n * 2 ^ (52 - n.log2)) (n.log2 - 52 + j)
      (fill_pos hpos)) : HasValue x (n * 2 ^ j) := by
  have hl := log2_lt hpos h
  have hexponent : ((52 - n.log2 : ℕ) : ℤ) + (n.log2 - 52 + j) = j := by omega
  refine ⟨_, _, fill_pos hpos, hx, log2_fill hpos hl, by omega, by omega, ?_⟩
  rw [Nat.cast_mul, Nat.cast_pow, Nat.cast_two, mul_assoc, ← zpow_natCast, ← zpow_natCast,
    ← zpow_add₀ two_ne_zero, hexponent]

/-- A whole number below `2 ^ 53` has itself for a double. -/
theorem hasValue_ofNat {n : ℕ} (hpos : 0 < n) (h : n < 2 ^ 53) : HasValue (Float.ofNat n) n := by
  have hl := log2_lt hpos h
  have hvalue := hasValue_of_unpack (x := Float.ofNat n) (j := 0) hpos h (by decide) <| by
    rw [toModel_ofNat hpos h, Nat.cast_zero, add_zero]
    exact unpack_pack (log2_fill hpos hl) _ (by omega) (by omega)
  rwa [pow_zero, mul_one] at hvalue

theorem hasValue_half : HasValue 0.5 (1 / 2) :=
  ⟨2 ^ 52, -53, by decide, rfl, Nat.log2_two_pow, by decide, by decide, by norm_num⟩

theorem hasValue_four : HasValue 4.0 4 :=
  ⟨2 ^ 52, -50, by decide, rfl, Nat.log2_two_pow, by decide, by decide, by norm_num⟩

theorem hasValue_machineEpsilon : HasValue machineEpsilon (1 / 2 ^ 52) :=
  ⟨2 ^ 52, -104, by decide, rfl, Nat.log2_two_pow, by decide, by decide, by norm_num⟩

theorem hasValue_wholeLimit : HasValue wholeLimit (2 ^ 53) :=
  ⟨2 ^ 52, 1, by decide, rfl, Nat.log2_two_pow, by decide, by decide, by norm_num⟩

/-! ## Rounding a scaled magnitude -/

/-- The units `u` that a scaled magnitude `s` is rounded to: from `2 ^ 53` on the nearest
    whole number, and below that the whole part of `s` with half a unit and a nudge. -/
inductive UnitsOf (s : ℚ) : ℕ → Prop
  | nearest (r : ℚ) (u : ℕ) : RoundsTo s r → 2 ^ 53 ≤ r → NearestEven s u → UnitsOf s u
  | nudged (r half sum : ℚ) : RoundsTo s r → r < 2 ^ 53 → RoundsTo (r + 1 / 2) half →
      RoundsTo (half + r / 2 ^ 50) sum → UnitsOf s ⌊sum⌋₊

/-- A quotient of whole numbers, rounded by its remainder. -/
theorem nearestEven_div {n d : ℕ} (hd : 0 < d) : NearestEven (n / d : ℚ)
    (if d < 2 * (n % d) ∨ 2 * (n % d) = d ∧ n / d % 2 = 1 then n / d + 1 else n / d) := by
  have hdq : (0 : ℚ) < d := by exact_mod_cast hd
  have hn : (n : ℚ) = d * (n / d : ℕ) + (n % d : ℕ) := by exact_mod_cast (Nat.div_add_mod n d).symm
  have hlow : ((n / d : ℕ) : ℚ) ≤ n / d := Nat.cast_div_le
  have hhigh : (n : ℚ) / d < (n / d : ℕ) + 1 := by
    rw [div_lt_iff₀ hdq]
    have hlt : ((n % d : ℕ) : ℚ) < d := by exact_mod_cast Nat.mod_lt n hd
    linarith
  rcases lt_trichotomy d (2 * (n % d)) with hcmp | hcmp | hcmp
  · have hcmpq : (d : ℚ) < 2 * (n % d : ℕ) := by exact_mod_cast hcmp
    rw [if_pos (.inl hcmp)]
    refine nearestEven_of_half_lt ?_ hhigh.le
    rw [lt_div_iff₀ hdq]
    linarith
  · have hcmpq : (d : ℚ) = 2 * (n % d : ℕ) := by exact_mod_cast hcmp
    have hhalf : (n : ℚ) / d = (n / d : ℕ) + 1 / 2 := by
      rw [div_eq_iff hdq.ne']
      linarith
    have htie : (if d < 2 * (n % d) ∨ 2 * (n % d) = d ∧ n / d % 2 = 1 then n / d + 1 else n / d) =
        n / d + n / d % 2 := by
      split <;> omega
    rw [hhalf, htie]
    exact nearestEven_half _
  · have hcmpq : (2 * (n % d : ℕ) : ℚ) < d := by exact_mod_cast hcmp
    rw [if_neg (by omega)]
    refine nearestEven_of_lt_half hlow ?_
    rw [div_lt_iff₀ hdq]
    linarith

theorem Exact.nearestEven_scaledHalfEven (v : Exact) (scale : ℕ) :
    NearestEven (v.magnitude * scale) (v.scaledHalfEven scale) := by
  have hv : v.magnitude * scale = (v.num * scale : ℕ) / v.den := by
    rw [Exact.magnitude, Nat.cast_mul, div_mul_eq_mul_div]
  rw [hv]
  exact nearestEven_div v.den_pos

/-! ## The double that is rounded down -/

theorem short_natCast {n : ℕ} (h : n ≤ 2 ^ 53) : Short n := ⟨n, 0, h, by rw [zpow_zero, mul_one]⟩

theorem short_two_pow (k : ℕ) : Short (2 ^ k) :=
  ⟨1, k, by decide, by rw [zpow_natCast, Nat.cast_one, one_mul]⟩

theorem Short.mul_two_zpow {c : ℚ} (h : Short c) (k : ℤ) : Short (c * 2 ^ k) := by
  obtain ⟨n, t, hn, rfl⟩ := h
  exact ⟨n, t + k, hn, by rw [zpow_add₀ two_ne_zero, mul_assoc]⟩

theorem Short.div_two_pow {c : ℚ} (h : Short c) (k : ℕ) : Short (c / 2 ^ k) := by
  rw [div_eq_mul_inv, ← zpow_natCast, ← zpow_neg]
  exact h.mul_two_zpow _

theorem short_div_two_pow {n : ℕ} (h : n ≤ 2 ^ 53) (k : ℕ) : Short (n / 2 ^ k) :=
  (short_natCast h).div_two_pow k

theorem short_add_half {n : ℕ} (h : n < 2 ^ 52) : Short (n + 1 / 2) := by
  have hshort := short_div_two_pow (n := 2 * n + 1) (by omega) 1
  rwa [show ((2 * n + 1 : ℕ) : ℚ) / 2 ^ 1 = n + 1 / 2 by push_cast; ring] at hshort

/-- A number that is not too small lies in a binade of full mantissas. -/
theorem two_zpow_le_of_le {q : ℚ} (h : 1 / 2 ^ 51 ≤ q) : (2 : ℚ) ^ (-1022 : ℤ) ≤ q := by
  refine le_trans ?_ h
  rw [one_div, ← zpow_natCast, ← zpow_neg]
  exact zpow_le_zpow_right₀ one_le_two (by decide)

/-- And so does one that is not too great. -/
theorem lt_two_zpow_of_lt {q : ℚ} (h : q < 2 ^ 105) : q < 2 ^ (1023 : ℤ) := by
  refine h.trans ?_
  rw [← zpow_natCast]
  exact zpow_lt_zpow_right₀ one_lt_two (by decide)

/-- Half a unit and the nudge are added.  The nudge is a product by powers of two, and not
    rounded. -/
theorem exists_hasValue_nudged {y : Float} {r : ℚ} (hy : HasValue y r) (hr : Short r)
    (hlow : 1 / 2 ≤ r) (hhigh : r < 2 ^ 53) :
    ∃ half sum, RoundsTo (r + 1 / 2) half ∧ RoundsTo (half + r / 2 ^ 50) sum ∧
      HasValue (y + 0.5 + y * 4.0 * machineEpsilon) sum := by
  obtain ⟨half, hhalf, hroundHalf⟩ := exists_hasValue_add hy hasValue_half
    (two_zpow_le_of_le (by linarith)) (lt_two_zpow_of_lt (by linarith))
  have hhalfLow : 1 / 2 ≤ half := hroundHalf.le (short_div_two_pow (n := 1) (by decide) 1)
    (by linarith)
  have hhalfHigh : half ≤ 2 ^ 54 := hroundHalf.ge (short_two_pow 54) (by linarith)
  obtain ⟨_, hfour, hroundFour⟩ := exists_hasValue_mul hy hasValue_four
    (two_zpow_le_of_le (by linarith)) (lt_two_zpow_of_lt (by linarith))
  obtain rfl := hroundFour.eq (hr.mul_two_zpow 2)
  obtain ⟨nudge, hnudge, hroundNudge⟩ := exists_hasValue_mul hfour hasValue_machineEpsilon
    (two_zpow_le_of_le (by linarith)) (lt_two_zpow_of_lt (by linarith))
  rw [show r * 4 * (1 / 2 ^ 52) = r / 2 ^ 50 by ring] at hroundNudge
  obtain rfl := hroundNudge.eq (hr.div_two_pow 50)
  obtain ⟨sum, hsum, hroundSum⟩ := exists_hasValue_add hhalf hnudge
    (two_zpow_le_of_le (by linarith)) (lt_two_zpow_of_lt (by linarith))
  exact ⟨half, sum, hroundHalf, hroundSum, hsum⟩

/-- **The units of a magnitude** are those that its scaled value is rounded to. -/
theorem unitsOf_roundedUnits {places : ℕ} (hplaces : places ≤ 15) (hx : HasValue x a)
    (hlow : 1 / 2 ≤ a * 10 ^ places) (hhigh : a * 10 ^ places < 2 ^ 105) :
    UnitsOf (a * 10 ^ places) (roundedUnits places x) := by
  have hten : tenPow places < 2 ^ 53 :=
    (Nat.pow_le_pow_right (by decide) hplaces).trans_lt (by decide)
  have hcast : ((tenPow places : ℕ) : ℚ) = 10 ^ places := Nat.cast_pow 10 places
  have hscale := hasValue_ofNat (n := tenPow places) (Nat.pow_pos (by decide)) hten
  rw [hcast] at hscale
  obtain ⟨r, hscaled, hr⟩ := exists_hasValue_mul hx hscale (two_zpow_le_of_le (by linarith))
    (lt_two_zpow_of_lt hhigh)
  rw [roundedUnits]
  by_cases hlimit : 2 ^ 53 ≤ r
  · obtain ⟨v, hv, -, rfl⟩ := ofFloat?_of_hasValue hx
    rw [if_pos ((le_iff_of_hasValue hasValue_wholeLimit hscaled).2 hlimit), hv]
    have hnearest := v.nearestEven_scaledHalfEven (tenPow places)
    rw [hcast] at hnearest
    exact .nearest r _ hr hlimit hnearest
  · have hrlow : 1 / 2 ≤ r := hr.le (short_div_two_pow (n := 1) (by decide) 1) hlow
    obtain ⟨half, sum, hroundHalf, hroundSum, hsum⟩ :=
      exists_hasValue_nudged hscaled hr.short hrlow (not_le.1 hlimit)
    rw [if_neg ((le_iff_of_hasValue hasValue_wholeLimit hscaled).not.2 hlimit),
      floorNat_of_hasValue hsum]
    exact .nudged r half sum hr (not_le.1 hlimit) hroundHalf hroundSum

/-! ## Whole numbers -/

section
variable {s : ℕ} {half sum : ℚ} (hhalf : RoundsTo (s + 1 / 2) half)
  (hsum : RoundsTo (half + s / 2 ^ 50) sum)
include hhalf hsum

/-- As long as the nudge is less than `15 / 32`, the sum does not reach the next whole
    number. -/
theorem sum_lt_of_natCast (hs : s < 15 * 2 ^ 45) : sum < s + 1 := by
  have hsq : (s : ℚ) < 15 * 2 ^ 45 := by exact_mod_cast hs
  obtain rfl := hhalf.eq (short_add_half (by omega))
  have hshort := short_div_two_pow (n := 16 * s + 15) (by omega) 4
  rw [show ((16 * s + 15 : ℕ) : ℚ) / 2 ^ 4 = s + 15 / 16 by push_cast; ring] at hshort
  exact hsum.lt hshort (by linarith) (by linarith)

/-- From there on it does: in the first case it lies in the middle between two doubles, of
    which the greater has the even mantissa. -/
theorem le_sum_of_natCast (hs : 15 * 2 ^ 45 ≤ s) (hs' : s < 2 ^ 53) : (s : ℚ) + 1 ≤ sum := by
  have hsq : (15 : ℚ) * 2 ^ 45 ≤ s := by exact_mod_cast hs
  have hshort : Short ((s + 1 : ℕ) : ℚ) := short_natCast hs'
  rw [Nat.cast_add, Nat.cast_one] at hshort
  rcases lt_or_ge s (2 ^ 52) with hsmall | hlarge
  · obtain rfl := hhalf.eq (short_add_half hsmall)
    have hunit : (2 : ℚ) ^ (-4 : ℤ) = 1 / 16 := by norm_num
    have hnext : (((16 * s + 15 : ℕ) : ℚ) + 1) * 2 ^ (-4 : ℤ) = s + 1 := by
      rw [hunit]
      push_cast
      ring
    rw [← hnext] at hshort ⊢
    refine hsum.succ_le ?_ ⟨8 * s + 7, by omega⟩ hshort ?_ <;> rw [hunit]
    · linarith
    · push_cast
      linarith
  · have hkeep : (s : ℚ) ≤ half := hhalf.le (short_natCast hs'.le) (by linarith)
    have hlargeq : (2 : ℚ) ^ 52 ≤ s := by exact_mod_cast hlarge
    exact hsum.le hshort (by linarith)

end

/-- **A whole number of units** is not rounded down, and it is kept below `15 · 2 ^ 45` units,
    and again from `2 ^ 53` units on. -/
theorem UnitsOf.eq_natCast_iff {s u : ℕ} (h : UnitsOf s u) :
    s ≤ u ∧ (u = s ↔ s < 15 * 2 ^ 45 ∨ 2 ^ 53 ≤ s) := by
  cases h with
  | nearest r u hr hlimit hu =>
    have hs : 2 ^ 53 ≤ s := by
      by_contra hs
      have hr' := hr.ge (short_natCast (by omega)) le_rfl
      have hs' : (s : ℚ) < 2 ^ 53 := by exact_mod_cast not_le.1 hs
      linarith
    obtain rfl : u = s := le_antisymm (hu.ge le_rfl) (hu.le le_rfl)
    exact ⟨le_rfl, iff_of_true rfl (.inr hs)⟩
  | nudged r half sum hr hlimit hhalf hsum =>
    have hs : s < 2 ^ 53 := by
      by_contra hs
      have hsq : (2 : ℚ) ^ 53 ≤ s := by exact_mod_cast not_lt.1 hs
      exact absurd (hr.le (short_two_pow 53) hsq) hlimit.not_ge
    have hshort := short_natCast hs.le
    obtain rfl : r = s := hr.eq hshort
    have hkeep : (s : ℚ) ≤ sum :=
      hsum.le hshort (by linarith [hhalf.le hshort (by linarith), Nat.cast_nonneg (α := ℚ) s])
    have hfloor : ⌊sum⌋₊ = s ↔ sum < s + 1 := by
      rw [Nat.floor_eq_iff ((Nat.cast_nonneg s).trans hkeep)]
      exact and_iff_right hkeep
    rw [hfloor]
    refine ⟨Nat.le_floor hkeep, ?_⟩
    rcases lt_or_ge s (15 * 2 ^ 45) with hfew | hmany
    · exact iff_of_true (sum_lt_of_natCast hhalf hsum hfew) (.inl hfew)
    · exact iff_of_false (le_sum_of_natCast hhalf hsum hmany hs).not_gt (by omega)

/-! ## Halves -/

section
variable {k : ℕ} {sum : ℚ} (hsum : RoundsTo (k + 1 + (k + 1 / 2) / 2 ^ 50) sum)
include hsum

/-- As long as the nudge is less than `15 / 16`, the sum does not reach the number after the
    next one. -/
theorem sum_lt_of_half (hk : k < 15 * 2 ^ 46) : sum < k + 2 := by
  have hkq : (k : ℚ) + 1 ≤ 15 * 2 ^ 46 := by exact_mod_cast hk
  have hshort := short_div_two_pow (n := 8 * k + 15) (by omega) 3
  rw [show ((8 * k + 15 : ℕ) : ℚ) / 2 ^ 3 = k + 15 / 8 by push_cast; ring] at hshort
  exact hsum.lt hshort (by linarith) (by linarith)

theorem le_sum_of_half (hk : 15 * 2 ^ 46 ≤ k) (hk' : k < 2 ^ 52) : (k : ℚ) + 2 ≤ sum := by
  have hkq : (15 : ℚ) * 2 ^ 46 ≤ k := by exact_mod_cast hk
  have hshort : Short ((k + 2 : ℕ) : ℚ) := short_natCast (by omega)
  rw [Nat.cast_add, Nat.cast_two] at hshort
  have hunit : (2 : ℚ) ^ (-3 : ℤ) = 1 / 8 := by norm_num
  have hnext : (((8 * k + 15 : ℕ) : ℚ) + 1) * 2 ^ (-3 : ℤ) = k + 2 := by
    rw [hunit]
    push_cast
    ring
  rw [← hnext] at hshort ⊢
  refine hsum.succ_le ?_ ⟨4 * k + 7, by omega⟩ hshort ?_ <;> rw [hunit]
  · linarith
  · push_cast
    linarith

end

section
variable {k : ℕ} {r half sum : ℚ} (hr : RoundsTo (k + 1 / 2) r) (hhalf : RoundsTo (r + 1 / 2) half)
  (hsum : RoundsTo (half + r / 2 ^ 50) sum)
include hr hhalf hsum

/-- Up to `2 ^ 52` units neither the half nor the sum with another half is rounded. -/
theorem roundsTo_sum_of_half (hk : k < 2 ^ 52) :
    RoundsTo (k + 1 + (k + 1 / 2) / 2 ^ 50) sum := by
  obtain rfl := hr.eq (short_add_half hk)
  have hshort : Short ((k + 1 : ℕ) : ℚ) := short_natCast (by omega)
  rw [Nat.cast_add, Nat.cast_one] at hshort
  rw [show (k : ℚ) + 1 / 2 + 1 / 2 = k + 1 by ring] at hhalf
  obtain rfl := hhalf.eq hshort
  exact hsum

/-- The units of half a unit below `2 ^ 53`. -/
theorem floor_sum_eq_iff_of_half (hk : k + 1 < 2 ^ 53) : ⌊sum⌋₊ = k + 1 ↔ k < 15 * 2 ^ 46 := by
  have hkpos := Nat.cast_nonneg (α := ℚ) k
  rcases lt_or_ge k (15 * 2 ^ 46) with hfew | hmany
  · have hexact := roundsTo_sum_of_half hr hhalf hsum (by omega)
    have hkeep : ((k + 1 : ℕ) : ℚ) ≤ sum :=
      hexact.le (short_natCast hk.le) (by push_cast; linarith)
    refine iff_of_true ?_ hfew
    rw [Nat.floor_eq_iff (by linarith)]
    refine ⟨hkeep, ?_⟩
    push_cast
    linarith [sum_lt_of_half hexact hfew]
  · refine iff_of_false (fun hfloor => ?_) hmany.not_gt
    have hmore : (k : ℚ) + 2 ≤ sum := by
      rcases lt_or_ge k (2 ^ 52) with hsmall | hlarge
      · exact le_sum_of_half (roundsTo_sum_of_half hr hhalf hsum hsmall) hmany hsmall
      · have hlargeq : (2 : ℚ) ^ 52 ≤ k := by exact_mod_cast hlarge
        have hrlow : (k : ℚ) ≤ r := hr.le (short_natCast (by omega)) (by linarith)
        have hhalfLow : (k : ℚ) ≤ half := hhalf.le (short_natCast (by omega)) (by linarith)
        have hshort : Short ((k + 2 : ℕ) : ℚ) := short_natCast (by omega)
        exact_mod_cast hsum.le hshort (by push_cast; linarith)
    have hlt := Nat.lt_floor_add_one sum
    rw [hfloor] at hlt
    push_cast at hlt
    linarith

end

/-- **Half a unit** is rounded up to the next number of units below `15 · 2 ^ 46` units and,
    from `2 ^ 53` units on, if that number is even; in between it is not. -/
theorem UnitsOf.eq_half_iff {k u : ℕ} (h : UnitsOf (k + 1 / 2) u) :
    u = k + 1 ↔ k < 15 * 2 ^ 46 ∨ 2 ^ 53 ≤ k + 1 ∧ Odd k := by
  cases h with
  | nearest r u hr hlimit hu =>
    have hk : 2 ^ 53 ≤ k + 1 := by
      by_contra hk
      have hr' := hr.ge (short_natCast (n := k + 1) (by omega)) (by push_cast; linarith)
      have hk' : ((k + 1 : ℕ) : ℚ) < 2 ^ 53 := by exact_mod_cast not_le.1 hk
      linarith
    rw [hu.eq_of_half, Nat.odd_iff]
    omega
  | nudged r half sum hr hlimit hhalf hsum =>
    have hk : k + 1 < 2 ^ 53 := by
      by_contra hk
      have hkq : (2 : ℚ) ^ 53 ≤ (k + 1 : ℕ) := by exact_mod_cast not_lt.1 hk
      push_cast at hkq
      have hr' := hr.succ_le (m := 2 ^ 53 - 1) (t := 0) (by norm_num; linarith)
        (by decide) ⟨2 ^ 53, 0, le_rfl, by norm_num⟩ (by norm_num; linarith)
      norm_num at hr'
      linarith
    rw [floor_sum_eq_iff_of_half hr hhalf hsum hk]
    omega

end EventTable.Number
