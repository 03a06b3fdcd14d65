/-
  EventTable — doubles as they are written, and read again.

  * `Decimal.value` is the number of a decimal, and `exists_numeral_positional` and
    `exists_numeral_scientific`: both ways to write it give a numeral of that number;
  * `DecimalOf v D`: the decimal is read as the double, and `decimalOf_shortest`: so are the
    digits that are written;
  * `exists_numeral_writeFloat`: every finite double is written as a numeral, with a point unless
    it is a whole number or very small, and `float?_writeFloat`: it is read as that double again.
-/
import EventTable.Datum.Json
import EventTable.Proofs.DecimalNumerals
import EventTable.Proofs.ShortestDecimals

namespace EventTable.Number

open Text

/-! ## Decimals as numerals -/

/-- The number that a decimal stands for. -/
def Decimal.value (D : Decimal) : ℚ :=
  natOfDigits D.digits * 10 ^ (D.exponent - D.digits.length)

theorem natOfDigits_append_replicate_zero (ds : List Char) (j : ℕ) :
    natOfDigits (ds ++ List.replicate j '0') = natOfDigits ds * 10 ^ j := by
  rw [natOfDigits_append, natOfDigits_replicate_zero, Nat.add_zero, List.length_replicate]

/-- Zeros behind the last digit of a decimal do not change the number. -/
theorem Numeral.magnitude_eq_value {N : Numeral} {D : Decimal} {j : ℕ}
    (hmantissa : N.mantissa = natOfDigits D.digits * 10 ^ j)
    (hscale : N.scale + j = D.exponent - D.digits.length) : N.magnitude = D.value := by
  rw [magnitude, hmantissa, Decimal.value, ← hscale, zpow_add₀ (by norm_num), zpow_natCast]
  push_cast
  ring

/-- Digits with a point between them are a numeral. -/
theorem exists_numeral_pointed (negative : Bool) {whole fraction : List Char}
    (hdigits : ∀ c ∈ whole ++ fraction, c.isDigit = true) (hne : whole ++ fraction ≠ []) :
    ∃ N : Numeral, N.text = minusSign negative ++ (whole ++ '.' :: fraction) ∧
      N.negative = negative ∧ N.Pointed ∧ N.mantissa = natOfDigits (whole ++ fraction) ∧
      N.scale = -fraction.length := by
  refine ⟨⟨negative, minusSign negative, whole, some fraction, [], 0, signText_minusSign negative,
    hdigits, hne, rfl⟩, ?_, rfl, Option.some_ne_none _, rfl, zero_sub _⟩
  simp [Numeral.text, Numeral.tail, afterWhole]

section
variable {D : Decimal} (hdigits : ∀ c ∈ D.digits, c.isDigit = true) (negative : Bool)
include hdigits

theorem isDigit_of_mem_append_zeros {j : ℕ} {ds : List Char} (hds : ∀ c ∈ ds, c ∈ D.digits) :
    ∀ c ∈ ds ++ List.replicate j '0', c.isDigit = true := by
  intro c hc
  rcases List.mem_append.1 hc with hc | hc
  · exact hdigits c (hds c hc)
  · rw [List.eq_of_mem_replicate hc]
    decide

/-- With the point in front of its digits. -/
theorem exists_numeral_positional_of_nonpos (hexponent : D.exponent ≤ 0) :
    ∃ N : Numeral, N.text = minusSign negative ++ positional 1 D ∧
      N.negative = negative ∧ N.Pointed ∧ N.magnitude = D.value := by
  have hall : ∀ c ∈ ['0'] ++ (List.replicate (-D.exponent).toNat '0' ++ D.digits),
      c.isDigit = true := by
    simp only [List.forall_mem_append, List.forall_mem_singleton]
    refine ⟨by decide, fun c hc => ?_, hdigits⟩
    rw [List.eq_of_mem_replicate hc]
    decide
  obtain ⟨N, htext, hnegative, hpointed, hmantissa, hscale⟩ :=
    exists_numeral_pointed negative hall (List.cons_ne_nil _ _)
  refine ⟨N, ?_, hnegative, hpointed, N.magnitude_eq_value (j := 0) ?_ ?_⟩
  · rw [htext]
    simp [positional, hexponent]
  · have hzero : natOfDigits ['0'] = 0 := by decide
    rw [hmantissa, natOfDigits_append, natOfDigits_append, natOfDigits_replicate_zero, hzero,
      zero_mul, zero_mul, zero_add, zero_add, pow_zero, mul_one]
  · rw [hscale, List.length_append, List.length_replicate]
    omega

/-- With the point between its digits, or behind them and zeros. -/
theorem exists_numeral_positional_of_pos (hexponent : 0 < D.exponent) :
    ∃ N : Numeral, N.text = minusSign negative ++ positional 1 D ∧
      N.negative = negative ∧ N.Pointed ∧ N.magnitude = D.value := by
  obtain ⟨E, hE⟩ : ∃ E : ℕ, D.exponent = E := ⟨D.exponent.toNat, by omega⟩
  have hdrop : (D.digits.drop E).length = D.digits.length - E := List.length_drop
  have hall : ∀ c ∈ D.digits.take E ++ List.replicate (E - D.digits.length) '0' ++
      (D.digits.drop E ++ List.replicate (1 - (D.digits.length - E)) '0'), c.isDigit = true :=
    List.forall_mem_append.2 ⟨isDigit_of_mem_append_zeros hdigits fun c => List.mem_of_mem_take,
      isDigit_of_mem_append_zeros hdigits fun c => List.mem_of_mem_drop⟩
  have hfraction : D.digits.drop E ++ List.replicate (1 - (D.digits.length - E)) '0' ≠ [] := by
    intro hnil
    have hlength := congrArg List.length hnil
    rw [List.length_append, List.length_replicate, hdrop, List.length_nil] at hlength
    omega
  obtain ⟨N, htext, hnegative, hpointed, hmantissa, hscale⟩ :=
    exists_numeral_pointed negative hall (List.append_ne_nil_of_right_ne_nil _ hfraction)
  rw [List.length_append, List.length_replicate, hdrop] at hscale
  have hpositional : positional 1 D = D.digits.take E ++
      List.replicate (E - D.digits.length) '0' ++
        '.' :: (D.digits.drop E ++ List.replicate (1 - (D.digits.length - E)) '0') := by
    rw [positional, if_neg (by omega)]
    simp only [hE, Int.toNat_natCast, hdrop, List.isEmpty_iff, if_neg hfraction]
  rw [hpositional]
  rcases le_or_gt D.digits.length E with hle | hlt
  · refine ⟨N, htext, hnegative, hpointed,
      N.magnitude_eq_value (j := E - D.digits.length + 1) ?_ ?_⟩
    · rw [hmantissa, List.take_of_length_le hle, List.drop_of_length_le hle,
        Nat.sub_eq_zero_of_le hle, List.nil_append, List.append_assoc,
        List.replicate_append_replicate, natOfDigits_append_replicate_zero]
    · omega
  · refine ⟨N, htext, hnegative, hpointed, N.magnitude_eq_value (j := 0) ?_ ?_⟩
    · have hnone : 1 - (D.digits.length - E) = 0 := by omega
      rw [hmantissa, hnone, Nat.sub_eq_zero_of_le hlt.le, List.replicate_zero, List.append_nil,
        List.append_nil, List.take_append_drop, pow_zero, mul_one]
    · omega

theorem exists_numeral_positional : ∃ N : Numeral, N.text = minusSign negative ++ positional 1 D ∧
    N.negative = negative ∧ N.Pointed ∧ N.magnitude = D.value := by
  rcases le_or_gt D.exponent 0 with hexponent | hexponent
  · exact exists_numeral_positional_of_nonpos hdigits negative hexponent
  · exact exists_numeral_positional_of_pos hdigits negative hexponent

theorem exists_numeral_scientific (hne : D.digits ≠ []) : ∃ N : Numeral, N.text = minusSign negative ++ scientific true D ∧
    N.negative = negative ∧ ¬ N.Plain ∧ N.magnitude = D.value := by
  have hlength := List.length_pos_of_ne_nil hne
  by_cases hmany : 1 < D.digits.length
  · refine ⟨⟨negative, minusSign negative, D.digits.take 1, some (D.digits.drop 1), _, _,
      signText_minusSign negative, ?_, ?_, exponent?_signed (D.exponent - 1)⟩, ?_, rfl,
      fun h => absurd h.2 (List.cons_ne_nil _ _), ?_⟩
    · rwa [Option.getD_some, List.take_append_drop]
    · rwa [Option.getD_some, List.take_append_drop]
    · simp [Numeral.text, Numeral.tail, afterWhole, scientific, hmany]
    · apply Numeral.magnitude_eq_value (j := 0)
      · show natOfDigits (D.digits.take 1 ++ D.digits.drop 1) = _
        rw [List.take_append_drop, pow_zero, mul_one]
      · simp only [Numeral.scale, Numeral.fraction, Option.getD_some, List.length_drop]
        omega
  · refine ⟨⟨negative, minusSign negative, D.digits, none, _, _,
      signText_minusSign negative, ?_, ?_, exponent?_signed (D.exponent - 1)⟩, ?_, rfl,
      fun h => absurd h.2 (List.cons_ne_nil _ _), ?_⟩
    · rwa [Option.getD_none, List.append_nil]
    · rwa [Option.getD_none, List.append_nil]
    · have htake : D.digits.take 1 = D.digits := List.take_of_length_le (by omega)
      have hdrop : D.digits.drop 1 = [] := List.drop_of_length_le (by omega)
      simp [Numeral.text, Numeral.tail, afterWhole, scientific, hmany, htake, hdrop]
    · apply Numeral.magnitude_eq_value (j := 0)
      · simp [Numeral.mantissa, Numeral.fraction]
      · simp only [Numeral.scale, Numeral.fraction, Option.getD_none, List.length_nil]
        omega

end

/-! ## The digits of a double -/

/-- **The decimal stands for the double**: it is read as that, and its first digit is the one
    behind the point. -/
structure DecimalOf (v : Exact) (D : Decimal) : Prop where
  isDigit : ∀ c ∈ D.digits, c.isDigit = true
  ne_nil : D.digits ≠ []
  reads : ReadsAs v.mantissa v.exponent D.value
  low : 10 ^ (D.exponent - 1) ≤ D.value
  high : D.value < 10 ^ D.exponent

variable {v : Exact}

/-- A number has as many digits as the powers of ten say between which it lies. -/
theorem ten_zpow_le_of_digits {n : ℕ} (hn : 0 < n) (k : ℤ) :
    (10 : ℚ) ^ ((digits n).length + k - 1 : ℤ) ≤ n * 10 ^ k := by
  have hlength := List.length_pos_of_ne_nil (digits_ne_nil n)
  have hle : 10 ^ ((digits n).length - 1) ≤ n := by
    by_contra hlt
    by_cases hone : (digits n).length = 1
    · rw [hone] at hlt
      exact hlt hn
    · have hfew := (Nat.length_toDigits_le_iff (by decide) (by omega)).2 (not_le.1 hlt)
      change (digits n).length ≤ _ at hfew
      omega
  have hsplit : ((digits n).length + k - 1 : ℤ) = ((digits n).length - 1 : ℕ) + k := by omega
  rw [hsplit, zpow_add₀ (by norm_num), zpow_natCast]
  exact mul_le_mul_of_nonneg_right (by exact_mod_cast hle) (ten_zpow_pos k).le

theorem lt_ten_zpow_of_digits (n : ℕ) (k : ℤ) :
    (n : ℚ) * 10 ^ k < 10 ^ ((digits n).length + k : ℤ) := by
  have hlt : n < 10 ^ (digits n).length := by
    have hlt : natOfDigits (digits n) < 10 ^ (digits n).length :=
      natOfDigits_lt fun c => isDigit_of_mem_digits
    rwa [natOfDigits_digits] at hlt
  rw [zpow_add₀ (by norm_num), zpow_natCast]
  exact mul_lt_mul_of_pos_right (by exact_mod_cast hlt) (ten_zpow_pos k)

/-- **The digits that are written** stand for the double. -/
theorem decimalOf_shortest (hv : Canonical v.mantissa v.exponent) : DecimalOf v (shortest v) := by
  obtain ⟨n, k, hn, hreads, hshortest⟩ := exists_shortest hv
  obtain ⟨j, hj⟩ : ∃ j, digits n = dropTrailingZeros (digits n) ++ List.replicate j '0' :=
    exists_stripZeros_append 0 (digits n)
  have hnat : n = natOfDigits (dropTrailingZeros (digits n)) * 10 ^ j := by
    rw [← natOfDigits_append_replicate_zero, ← hj, natOfDigits_digits]
  have hlength : (digits n).length = (dropTrailingZeros (digits n)).length + j := by
    have hlength := congrArg List.length hj
    rwa [List.length_append, List.length_replicate] at hlength
  have hvalue : (shortest v).value = n * 10 ^ k := by
    have hexponent : ((digits n).length + k - (dropTrailingZeros (digits n)).length : ℤ) = j + k := by
      omega
    have hnatq : (n : ℚ) = natOfDigits (dropTrailingZeros (digits n)) * 10 ^ j := by
      exact_mod_cast hnat
    rw [hshortest, Decimal.value, hexponent, zpow_add₀ (by norm_num), zpow_natCast, ← mul_assoc,
      ← hnatq]
  refine ⟨?_, ?_, ?_, ?_, ?_⟩
  · rw [hshortest]
    intro c hc
    exact isDigit_of_mem_digits (n := n) (hj ▸ List.mem_append_left _ hc)
  · rw [hshortest]
    intro hnil
    change dropTrailingZeros (digits n) = [] at hnil
    rw [hnil] at hnat
    exact hn.ne' (hnat.trans (Nat.zero_mul _))
  · rwa [hvalue]
  · rw [hvalue, hshortest]
    exact ten_zpow_le_of_digits hn k
  · rw [hvalue, hshortest]
    exact lt_ten_zpow_of_digits n k

section
variable {D : Decimal} (hv : Canonical v.mantissa v.exponent) (hD : DecimalOf v D)
include hv hD

/-- A double with more than sixteen digits in front of the point is a whole number. -/
theorem DecimalOf.exists_natCast (hexponent : 16 < D.exponent) : ∃ n : ℕ, v.magnitude = n := by
  have hlarge : (10 : ℚ) ^ 16 ≤ D.value := by
    refine le_trans ?_ hD.low
    rw [← zpow_natCast]
    exact zpow_le_zpow_right₀ (by norm_num) (by omega)
  have hunit := two_zpow_pos v.exponent
  have hm : (v.mantissa : ℚ) + 1 ≤ 2 ^ 53 := by exact_mod_cast hv.lt
  have hhigh : D.value ≤ 2 ^ 53 * 2 ^ v.exponent := by
    rw [← div_le_iff₀ hunit]
    linarith [hD.reads.high]
  have hwhole : 0 ≤ v.exponent := by
    by_contra hneg
    have hhalf : (2 : ℚ) ^ v.exponent ≤ 2 ^ (-1 : ℤ) := zpow_le_zpow_right₀ one_le_two (by omega)
    rw [zpow_neg_one] at hhalf
    norm_num at hlarge
    linarith
  refine ⟨v.mantissa * 2 ^ v.exponent.toNat, ?_⟩
  rw [Exact.magnitude_eq, Nat.cast_mul, Nat.cast_pow, Nat.cast_two, ← zpow_natCast,
    Int.toNat_of_nonneg hwhole]

/-- A double that starts behind five zeros is very small. -/
theorem DecimalOf.magnitude_lt (hexponent : D.exponent ≤ -5) : v.magnitude < 1 / 2 ^ 14 := by
  have hsmall : D.value < 1 / 10 ^ 5 := by
    refine hD.high.trans_le ?_
    rw [one_div, ← zpow_natCast, ← zpow_neg]
    exact zpow_le_zpow_right₀ (by norm_num) hexponent
  have hm : (1 : ℚ) ≤ v.mantissa := by exact_mod_cast hv.pos
  have hbelow := quartersBelow_le v.mantissa v.exponent
  have hhalf : (v.mantissa : ℚ) / 2 ≤ D.value / 2 ^ v.exponent := by
    linarith [hD.reads.low]
  rw [le_div_iff₀ (two_zpow_pos _)] at hhalf
  rw [Exact.magnitude_eq]
  norm_num at hsmall ⊢
  linarith

end

/-! ## Doubles that are written -/

section
variable {x : Float} (hx : Exact.ofFloat? x = some v)
include hx

theorem writeFloat_of_zero (hm : v.mantissa = 0) :
    Datum.writeFloat x = minusSign v.negative ++ (['0'] ++ '.' :: ['0']) := by
  simp only [Datum.writeFloat, hx, hm]
  rfl

theorem writeFloat_of_ne_zero (hm : v.mantissa ≠ 0) : Datum.writeFloat x = minusSign v.negative ++
    if -5 < (shortest v).exponent ∧ (shortest v).exponent ≤ 16 then positional 1 (shortest v)
    else scientific true (shortest v) := by
  simp only [Datum.writeFloat, hx, if_neg hm]
  rfl

/-- A zero is read with its sign. -/
theorem ofDecimal_of_zero (hm : v.mantissa = 0) (k : ℤ) : ofDecimal v.negative 0 k = x := by
  rw [ofDecimal_zero]
  rcases unpack_of_ofFloat? hx with ⟨s, hu, rfl⟩ | ⟨s, m, e, hpos, -, rfl⟩
  · rw [eq_pack_unpack x, hu]
    cases s <;> rfl
  · exact absurd hm hpos.ne'

theorem canonical_of_ofFloat? (hm : v.mantissa ≠ 0) : Canonical v.mantissa v.exponent := by
  rcases unpack_of_ofFloat? hx with ⟨s, -, rfl⟩ | ⟨s, m, e, hpos, hu, rfl⟩
  · exact absurd rfl hm
  · exact (canonical_of_unpack hu).1

/-- A numeral of the digits of a double is read as the double. -/
theorem ofDecimal_of_decimalOf (hm : v.mantissa ≠ 0) {D : Decimal} (hD : DecimalOf v D) {N : Numeral}
    (hnegative : N.negative = v.negative) (hmagnitude : N.magnitude = D.value) :
    ofDecimal N.negative N.mantissa N.scale = x := by
  have hpos : 0 < N.magnitude := by
    rw [hmagnitude]
    exact (ten_zpow_pos _).trans_le hD.low
  have hmantissa : 0 < N.mantissa := by
    rw [Nat.pos_iff_ne_zero]
    intro hzero
    rw [Numeral.magnitude, hzero, Nat.cast_zero, zero_mul] at hpos
    exact lt_irrefl _ hpos
  rw [hnegative]
  exact ofDecimal_eq_of_readsAs hx (Nat.pos_of_ne_zero hm) hmantissa
    (by rw [← Numeral.magnitude, hmagnitude]; exact hD.reads)

/-- **A finite double is written as a numeral that is read as the double.**  It is not one of
    digits only, and it has a point but for some whole numbers and very small ones. -/
theorem exists_numeral_writeFloat : ∃ N : Numeral, N.text = Datum.writeFloat x ∧
    ofDecimal N.negative N.mantissa N.scale = x ∧ ¬ N.Plain ∧
      (N.Pointed ∨ (∃ n : ℕ, v.magnitude = n) ∨ v.magnitude < 1 / 2 ^ 14) := by
  by_cases hm : v.mantissa = 0
  · have hzero : ∀ c ∈ ['0'], c.isDigit = true := List.forall_mem_singleton.2 (by decide)
    obtain ⟨N, htext, hnegative, hpointed, hmantissa, hscale⟩ := exists_numeral_pointed v.negative
      (List.forall_mem_append.2 ⟨hzero, hzero⟩) (List.cons_ne_nil _ _)
    refine ⟨N, ?_, ?_, fun hplain => hpointed hplain.1, .inl hpointed⟩
    · rw [htext, writeFloat_of_zero hx hm]
    · rw [hnegative, hmantissa, hscale]
      exact ofDecimal_of_zero hx hm _
  · have hv := canonical_of_ofFloat? hx hm
    have hD := decimalOf_shortest hv
    rw [writeFloat_of_ne_zero hx hm]
    split
    · obtain ⟨N, htext, hnegative, hpointed, hmagnitude⟩ :=
        exists_numeral_positional hD.isDigit v.negative
      exact ⟨N, htext, ofDecimal_of_decimalOf hx hm hD hnegative hmagnitude,
        fun hplain => hpointed hplain.1, .inl hpointed⟩
    · rename_i hexponent
      obtain ⟨N, htext, hnegative, hplain, hmagnitude⟩ :=
        exists_numeral_scientific hD.isDigit v.negative hD.ne_nil
      refine ⟨N, htext, ofDecimal_of_decimalOf hx hm hD hnegative hmagnitude, hplain, .inr ?_⟩
      rcases lt_or_ge 16 (shortest v).exponent with hgreat | hle
      · exact .inl (hD.exists_natCast hv hgreat)
      · exact .inr (hD.magnitude_lt hv (by omega))

/-- **What is written is read again.** -/
theorem float?_writeFloat : float? (Datum.writeFloat x) = some x := by
  obtain ⟨N, htext, hread, -⟩ := exists_numeral_writeFloat hx
  rw [← htext, N.float?_text, hread]

end

end EventTable.Number
