/-
  EventTable — the number that is shown.

  * `decimalValue?` reads the number that the text of a number denotes, and
    `decimalValue?_of_shows`: it reads back what was written;
  * `decimalValue?_formatNumber`: what is shown of a finite double is the number of its units
    of the last place, with its sign;
  * `exact_numbers_are_shown_up_to_the_nudge`: a whole number is shown itself, and half a
    unit of the last place is rounded up, as long as the nudge is small;
  * `nudge_shows_another_number`: with fifteen digits behind the point, the number one is
    already too great for that.
-/
import EventTable.Proofs.NumberTexts
import EventTable.Proofs.RoundedUnits
import EventTable.Proofs.SignedNumerals

namespace EventTable.Number

open Text
open Float.Model (UnpackedFloat)

/-! ## Reading a shown number -/

/-- The factor of a sign. -/
def signFactor (negative : Bool) : ℚ := if negative then -1 else 1

/-- The number that digits with a point denote, with a sign and commas between them. -/
def decimalValue? (text : List Char) : Option ℚ :=
  let (negative, ds) := signAndRest (text.filter (· != ','))
  let (whole, fraction) := Pattern.parts ds
  (digitsOnly? (whole ++ fraction)).map fun n : ℕ =>
    signFactor negative * ((n : ℚ) / 10 ^ fraction.length)

/-- The sign in front of a number. -/
def minusSign (negative : Bool) : List Char := if negative then ['-'] else []

/-- The digits behind the point with the point, or nothing. -/
def pointed (fraction : List Char) : List Char := if fraction = [] then [] else '.' :: fraction

section
variable {negative : Bool} {whole fraction : List Char} {c : Char}

theorem eq_or_mem_of_mem_pointed (h : c ∈ pointed fraction) : c = '.' ∨ c ∈ fraction := by
  rw [pointed] at h
  split at h
  · exact absurd h List.not_mem_nil
  · exact List.mem_cons.1 h

theorem parts_append_pointed (h : '.' ∉ whole) :
    Pattern.parts (whole ++ pointed fraction) = (whole, fraction) := by
  rw [Pattern.parts, pointed]
  split
  · rename_i hnil
    rw [List.append_nil, cut?_eq_none_iff.2 h, hnil]
    rfl
  · rw [cut?_eq_some_iff.2 ⟨rfl, h⟩]
    rfl

theorem signAndRest_minusSign (h : ∀ c ∈ whole ++ fraction, c.isDigit = true) :
    signAndRest (minusSign negative ++ (whole ++ pointed fraction)) =
      (negative, whole ++ pointed fraction) := by
  cases negative with
  | true => rfl
  | false =>
    have hunsigned : ∀ c ∈ whole ++ pointed fraction, c = '.' ∨ c.isDigit = true := by
      intro c hc
      rcases List.mem_append.1 hc with hc | hc
      · exact .inr (h c (List.mem_append_left _ hc))
      · exact (eq_or_mem_of_mem_pointed hc).imp_right fun hc => h c (List.mem_append_right _ hc)
    apply signAndRest_of_no_sign
    · intro ds hds
      exact absurd (hunsigned '-' (hds ▸ List.mem_cons_self)) (by decide)
    · intro ds hds
      exact absurd (hunsigned '+' (hds ▸ List.mem_cons_self)) (by decide)

end

section
variable {p : Pattern} {units : ℕ} {negative : Bool} {whole fraction integer : List Char}
  (hshows : p.Shows units whole fraction)
  (hinteger : p.grouping = true ∧ Grouped ',' whole integer ∨
    p.grouping = false ∧ integer = whole)
include hshows

theorem Pattern.Shows.notMem_whole {c : Char} (hc : c.isDigit = false) : c ∉ whole := by
  intro hmem
  rw [hshows.isDigit c (List.mem_append_left _ hmem)] at hc
  exact Bool.noConfusion hc

theorem Pattern.Shows.value_div :
    (natOfDigits (whole ++ fraction) : ℚ) / 10 ^ fraction.length = units / 10 ^ p.maxFraction := by
  rw [← hshows.value, Nat.cast_mul, Nat.cast_pow, Nat.cast_ofNat,
    ← Nat.sub_add_cancel hshows.le_maxFraction, pow_add, Nat.add_sub_cancel]
  field_simp

include hinteger

/-- The point is in front of the fraction digits. -/
theorem parts_of_shows :
    (Pattern.parts (minusSign negative ++ integer ++ pointed fraction)).2 = fraction := by
  have hpoint : '.' ∉ integer := by
    rcases hinteger with ⟨-, hgrouped⟩ | ⟨-, rfl⟩
    · exact fun hc => hshows.notMem_whole rfl (hgrouped.mem_of_mem hc (by decide))
    · exact hshows.notMem_whole rfl
  have hsigned : '.' ∉ minusSign negative ++ integer := by
    rw [List.mem_append, not_or]
    refine ⟨?_, hpoint⟩
    cases negative <;> decide
  rw [parts_append_pointed hsigned]

/-- The commas stand between the digits in front of the point only. -/
theorem filter_of_shows :
    (minusSign negative ++ integer ++ pointed fraction).filter (· != ',') =
      minusSign negative ++ (whole ++ pointed fraction) := by
  have hsign : ',' ∉ minusSign negative := by cases negative <;> decide
  have hwhole : integer.filter (· != ',') = whole := by
    rcases hinteger with ⟨-, hgrouped⟩ | ⟨-, rfl⟩
    · exact hgrouped.filter (hshows.notMem_whole rfl)
    · exact filter_bne_of_notMem (hshows.notMem_whole rfl)
  have hpointed : ',' ∉ pointed fraction := by
    intro hc
    rcases eq_or_mem_of_mem_pointed hc with hc | hc
    · exact absurd hc (by decide)
    · exact absurd (hshows.isDigit _ (List.mem_append_right _ hc)) (by decide)
  rw [List.filter_append, List.filter_append, filter_bne_of_notMem hsign, hwhole,
    filter_bne_of_notMem hpointed, List.append_assoc]

/-- The number that is read is that of the units, with the sign. -/
theorem decimalValue?_of_shows :
    decimalValue? (minusSign negative ++ integer ++ pointed fraction) =
      some (signFactor negative * (units / 10 ^ p.maxFraction)) := by
  have hne : whole ++ fraction ≠ [] := fun hnil =>
    hshows.ne_nil (List.append_eq_nil_iff.1 hnil).1 (List.append_eq_nil_iff.1 hnil).2
  simp only [decimalValue?, filter_of_shows hshows hinteger, signAndRest_minusSign hshows.isDigit,
    parts_append_pointed (hshows.notMem_whole (c := '.') rfl),
    digitsOnly?_eq_some_iff.2 (.digits hne hshows.isDigit), Option.map_some, hshows.value_div]

end

/-! ## Finite doubles -/

/-- The number that an exact value stands for. -/
def Exact.value (v : Exact) : ℚ := signFactor v.negative * v.magnitude

variable {x : Float} {v : Exact}

theorem Exact.magnitude_nonneg (v : Exact) : 0 ≤ v.magnitude :=
  div_nonneg (Nat.cast_nonneg _) (Nat.cast_nonneg _)

/-- A finite double has an exact value. -/
theorem exists_ofFloat?_of_isFinite (h : x.isFinite = true) : ∃ v, Exact.ofFloat? x = some v := by
  have hunpack : x.toModel.unpack.isFinite = true := h
  rw [Exact.ofFloat?]
  cases hu : x.toModel.unpack with
  | zero s => exact ⟨_, rfl⟩
  | finite s m e hm => exact ⟨_, rfl⟩
  | infinity s =>
    rw [hu] at hunpack
    exact absurd hunpack (by cases s <;> decide)
  | notANumber =>
    rw [hu] at hunpack
    exact absurd hunpack (by decide)

section
variable (hv : Exact.ofFloat? x = some v)
include hv

theorem isFinite_of_ofFloat? : x.isFinite = true := by
  show x.toModel.unpack.isFinite = true
  rcases unpack_of_ofFloat? hv with ⟨s, hu, -⟩ | ⟨s, m, e, hm, hu, -⟩ <;> rw [hu] <;> rfl

theorem lt_zero_iff_of_ofFloat? : x < 0.0 ↔ v.negative = true ∧ v.magnitude ≠ 0 := by
  have hcompare : x < 0.0 ↔ UnpackedFloat.lt x.toModel.unpack (.zero .positive) = true := by
    show decide (UnpackedFloat.lt x.toModel.unpack _ = true) = true ↔ _
    rw [decide_eq_true_iff]
    rfl
  rw [hcompare]
  rcases unpack_of_ofFloat? hv with ⟨s, hu, rfl⟩ | ⟨s, m, e, hm, hu, rfl⟩ <;> rw [hu]
  · rw [Exact.magnitude_eq, Nat.cast_zero, zero_mul]
    exact iff_of_false Bool.false_ne_true fun h => h.2 rfl
  · have hne : (m : ℚ) * 2 ^ e ≠ 0 := (mul_pos (Nat.cast_pos.2 hm) (two_zpow_pos e)).ne'
    rw [Exact.magnitude_eq, and_iff_left hne]
    cases s <;> rfl

theorem abs_eq_zero_of_ofFloat? (hzero : v.magnitude = 0) : x.abs = 0.0 := by
  have habs : x.abs = .ofModel (.pack x.toModel.unpack.abs) := rfl
  rcases unpack_of_ofFloat? hv with ⟨s, hu, -⟩ | ⟨s, m, e, hm, -, rfl⟩
  · rw [habs, hu]
    rfl
  · rw [Exact.magnitude_eq] at hzero
    exact absurd hzero (mul_pos (Nat.cast_pos.2 hm) (two_zpow_pos e)).ne'

theorem mantissa_lt_of_ofFloat? : v.mantissa < 2 ^ 53 := by
  rcases unpack_of_ofFloat? hv with ⟨s, -, rfl⟩ | ⟨s, m, e, hm, hu, rfl⟩
  · exact Nat.two_pow_pos 53
  · obtain ⟨-, -, hfull | ⟨hsmall, -⟩⟩ := bounds_of_unpack hu
    · exact ((Nat.log2_eq_iff hm.ne').1 hfull).2
    · exact hsmall.trans (by decide)

/-- A double that is half a unit beside a whole number of units has digits behind the point,
    and so it is less than `2 ^ 53`. -/
theorem magnitude_lt_of_half {places k : ℕ} (hk : v.magnitude * 10 ^ places = k + 1 / 2) :
    v.magnitude < 2 ^ 53 := by
  have hexponent : v.exponent < 0 := by
    by_contra he
    have hden : v.den = 1 := by
      rw [Exact.den, Int.toNat_of_nonpos (by omega)]
    rw [Exact.magnitude, hden, Nat.cast_one, div_one] at hk
    have hwhole : 2 * (v.num * 10 ^ places) = 2 * k + 1 := by
      have hdouble : (2 : ℚ) * (v.num * 10 ^ places) = 2 * k + 1 := by linarith
      exact_mod_cast hdouble
    omega
  have hmantissa : (v.mantissa : ℚ) < 2 ^ 53 := by exact_mod_cast mantissa_lt_of_ofFloat? hv
  rw [Exact.magnitude_eq]
  refine lt_of_le_of_lt ?_ hmantissa
  exact mul_le_of_le_one_right (Nat.cast_nonneg _) (zpow_le_one_of_nonpos₀ one_le_two hexponent.le)

/-- The units of a double that is neither too small nor too great. -/
theorem unitsOf_abs {places : ℕ} (hplaces : places ≤ 15) (hlow : 1 / 2 ≤ v.magnitude * 10 ^ places)
    (hhigh : v.magnitude ≤ 2 ^ 53) :
    UnitsOf (v.magnitude * 10 ^ places) (roundedUnits places x.abs) := by
  have hscale : (10 : ℚ) ^ places ≤ 10 ^ 15 := pow_le_pow_right₀ (by norm_num) hplaces
  have hmul := mul_le_mul_of_nonneg_left hscale v.magnitude_nonneg
  exact unitsOf_roundedUnits hplaces (hasValue_abs hv (two_zpow_le_of_le (by linarith))) hlow
    (by linarith)

end

theorem roundedUnits_zero {places : ℕ} (h : places ≤ 15) : roundedUnits places 0.0 = 0 := by
  have hall : ∀ n ∈ List.range 16, roundedUnits n 0.0 = 0 := by decide +kernel
  exact hall places (List.mem_range.2 (Nat.lt_succ_of_le h))

/-! ## What is shown of a finite double -/

theorem abs_signFactor_mul (negative : Bool) {a : ℚ} (ha : 0 ≤ a) :
    |signFactor negative * a| = a := by
  cases negative <;> simp [signFactor, abs_of_nonneg ha]

theorem signFactor_mul_inj {negative : Bool} {a b : ℚ} :
    signFactor negative * a = signFactor negative * b ↔ a = b := by
  cases negative <;> simp [signFactor]

/-- **The number that is shown** of a finite double is that of its units, with its sign; of a
    whole number all digits behind the point are zero. -/
theorem decimalValue?_formatNumber (hv : Exact.ofFloat? x = some v) (argument default : String) :
    let p := Pattern.ofArgument argument default
    let text := (formatNumber x argument default).toList
    decimalValue? text = some (signFactor v.negative *
        (roundedUnits p.maxFraction x.abs / 10 ^ p.maxFraction)) ∧
      ∀ n, roundedUnits p.maxFraction x.abs = n * 10 ^ p.maxFraction →
        ∀ c ∈ (Pattern.parts text).2, c = '0' := by
  intro p text
  obtain ⟨hfraction, hplaces⟩ := Pattern.ofArgument_bounds argument default
  obtain ⟨negative, whole, fraction, integer, htext, hshows, hsign, hinteger⟩ :=
    p.exists_toList_apply hfraction {} x
  have htext' : text = minusSign negative ++ integer ++ pointed fraction := htext
  have hfinite : finiteOrZero x = x := if_pos (isFinite_of_ofFloat? hv)
  rw [hfinite] at hshows
  rw [htext', decimalValue?_of_shows hshows hinteger, parts_of_shows hshows hinteger]
  refine ⟨?_, fun n hn => (hn ▸ hshows).fraction_eq_zero⟩
  -- the sign is left out only where the units are zero
  rcases eq_or_ne (roundedUnits p.maxFraction x.abs) 0 with hzero | hne
  · rw [hzero, Nat.cast_zero, zero_div, mul_zero, mul_zero]
  · have hmagnitude : v.magnitude ≠ 0 := by
      intro h
      rw [abs_eq_zero_of_ofFloat? hv h, roundedUnits_zero hplaces] at hne
      exact hne rfl
    have hnegative : negative = v.negative := by
      rw [Bool.eq_iff_iff, hsign, hshows.exists_ne_zero_iff,
        and_iff_right (isFinite_of_ofFloat? hv), and_iff_left hne, lt_zero_iff_of_ofFloat? hv, and_iff_left hmagnitude]
    rw [hnegative]

/-- The units of a whole number. -/
theorem roundedUnits_natCast (hv : Exact.ofFloat? x = some v) {places n : ℕ} (hplaces : places ≤ 15)
    (hn : v.magnitude = n) (hlimit : n ≤ 2 ^ 53) :
    n * 10 ^ places ≤ roundedUnits places x.abs ∧ (roundedUnits places x.abs = n * 10 ^ places ↔
      n * 10 ^ places < 15 * 2 ^ 45 ∨ 2 ^ 53 ≤ n * 10 ^ places) := by
  rcases Nat.eq_zero_or_pos n with rfl | hpos
  · rw [abs_eq_zero_of_ofFloat? hv (by rw [hn, Nat.cast_zero]), roundedUnits_zero hplaces,
      Nat.zero_mul]
    exact ⟨le_rfl, iff_of_true rfl (.inl (by decide))⟩
  · have hscaled : v.magnitude * 10 ^ places = (n * 10 ^ places : ℕ) := by
      rw [hn]
      push_cast
      rfl
    have hone : (1 : ℚ) ≤ (n * 10 ^ places : ℕ) := by
      exact_mod_cast Nat.mul_pos hpos (Nat.pow_pos (by decide))
    have hunits := unitsOf_abs hv hplaces (by rw [hscaled]; linarith)
      (by rw [hn]; exact_mod_cast hlimit)
    rw [hscaled] at hunits
    exact hunits.eq_natCast_iff

/-- **Exact numbers are shown exactly as long as the nudge is small.**  Of a double that is a
    whole number the text denotes no smaller one, and that number itself, without other digits
    behind the point than zeros, if it has less than `15 · 2 ^ 45` units of the last place or
    at least `2 ^ 53`, and not in between.  A double that is half a unit above a whole number
    of units is rounded up below `15 · 2 ^ 46` units, and again from `2 ^ 53` units on where
    the next number of units is even. -/
theorem exact_numbers_are_shown_up_to_the_nudge (hv : Exact.ofFloat? x = some v)
    (argument default : String) :
    let places := (Pattern.ofArgument argument default).maxFraction
    let text := (formatNumber x argument default).toList
    ∃ q, decimalValue? text = some q ∧
      (∀ n : ℤ, v.value = n → n.natAbs ≤ 2 ^ 53 → (n.natAbs : ℚ) ≤ |q| ∧
        (q = n ↔ n.natAbs * 10 ^ places < 15 * 2 ^ 45 ∨ 2 ^ 53 ≤ n.natAbs * 10 ^ places) ∧
        (q = n → ∀ c ∈ (Pattern.parts text).2, c = '0')) ∧
      ∀ k : ℕ, v.magnitude * 10 ^ places = k + 1 / 2 →
        (q = signFactor v.negative * ((k + 1) / 10 ^ places) ↔
          k < 15 * 2 ^ 46 ∨ 2 ^ 53 ≤ k + 1 ∧ Odd k) := by
  intro places text
  have hplaces : places ≤ 15 := (Pattern.ofArgument_bounds argument default).2
  obtain ⟨hvalue, hzeros⟩ : decimalValue? text = some (signFactor v.negative *
      (roundedUnits places x.abs / 10 ^ places)) ∧ ∀ n, roundedUnits places x.abs =
        n * 10 ^ places → ∀ c ∈ (Pattern.parts text).2, c = '0' :=
    decimalValue?_formatNumber hv argument default
  clear_value places text
  have hscale : (0 : ℚ) < 10 ^ places := pow_pos (by norm_num) places
  refine ⟨_, hvalue, ?_, ?_⟩
  · intro n hn hlimit
    have hmagnitude : v.magnitude = n.natAbs := by
      rw [← abs_signFactor_mul v.negative v.magnitude_nonneg, Nat.cast_natAbs, Int.cast_abs, ← hn]
      rfl
    obtain ⟨hle, hiff⟩ := roundedUnits_natCast hv hplaces hmagnitude hlimit
    have hshown : signFactor v.negative * ((roundedUnits places x.abs : ℚ) / 10 ^ places) = n ↔
        roundedUnits places x.abs = n.natAbs * 10 ^ places := by
      rw [← hn, Exact.value, signFactor_mul_inj, hmagnitude, div_eq_iff hscale.ne']
      exact_mod_cast Iff.rfl
    refine ⟨?_, hshown.trans hiff, fun hq => hzeros _ (hshown.1 hq)⟩
    rw [abs_signFactor_mul _ (by positivity), le_div_iff₀ hscale]
    exact_mod_cast hle
  · intro k hk
    have hhigh := magnitude_lt_of_half hv hk
    have hlow : 1 / 2 ≤ v.magnitude * 10 ^ places := by
      rw [hk]
      linarith [Nat.cast_nonneg (α := ℚ) k]
    have hunits := unitsOf_abs hv hplaces hlow hhigh.le
    rw [hk] at hunits
    rw [← hunits.eq_half_iff, signFactor_mul_inj, div_left_inj' hscale.ne']
    exact_mod_cast Iff.rfl

/-- A whole number with a comma in its text, and a negative half. -/
theorem small_numbers_are_shown_exactly :
    decimalValue? (formatNumber 1024.0 "#,##0.0" "0").toList = some 1024 ∧
      decimalValue? (formatNumber (-2.5) "0" "0").toList = some (-3) := by
  have hwhole : Exact.ofFloat? 1024.0 = some ⟨false, 2 ^ 52, -42⟩ := rfl
  have hhalf : Exact.ofFloat? (-2.5) = some ⟨true, 5 * 2 ^ 50, -51⟩ := rfl
  have htenths : (Pattern.ofArgument "#,##0.0" "0").maxFraction = 1 := by decide +kernel
  have hunits : (Pattern.ofArgument "0" "0").maxFraction = 0 := by decide +kernel
  constructor
  · obtain ⟨q, hq, hn, -⟩ := exact_numbers_are_shown_up_to_the_nudge hwhole "#,##0.0" "0"
    have hvalue : Exact.value ⟨false, 2 ^ 52, -42⟩ = (1024 : ℤ) := by
      rw [Exact.value, Exact.magnitude_eq]
      norm_num [signFactor]
    obtain ⟨-, hshown, -⟩ := hn 1024 hvalue (by decide)
    rw [htenths] at hshown
    rw [hq, hshown.2 (.inl (by decide))]
    rfl
  · obtain ⟨q, hq, -, hk⟩ := exact_numbers_are_shown_up_to_the_nudge hhalf "0" "0"
    rw [hunits] at hk
    have hvalue : Exact.magnitude ⟨true, 5 * 2 ^ 50, -51⟩ * 10 ^ 0 = (2 : ℕ) + 1 / 2 := by
      rw [Exact.magnitude_eq]
      norm_num
    rw [hq, (hk 2 hvalue).2 (.inl (by decide))]
    norm_num [signFactor]

/-- One, with fifteen digits behind the point, is shown as another number; half a unit is
    rounded up by one unit more, and another half is rounded down. -/
theorem nudge_shows_another_number :
    (Exact.ofFloat? 1.0).map Exact.value = some 1 ∧
      decimalValue? (formatNumber 1.0 "#0.###############" "0").toList = some (1 + 1 / 10 ^ 15) ∧
      (Exact.ofFloat? 1.5000152587890625).map Exact.value = some (1.5 + 1 / 2 ^ 16) ∧
      formatNumber 1.5000152587890625 "#0.###############" "0" = "1.500015258789064" ∧
      (Exact.ofFloat? 1000000000000000.25).map Exact.value = some (1000000000000000 + 1 / 4) ∧
      formatNumber 1000000000000000.25 "1" "0" = "1000000000000000.2" := by
  decide +kernel

end EventTable.Number
