/-
  EventTable — coordinates in degrees and minutes.

  * `TotalOf perDegree x n`: the coordinate `x` has `n` of the units of which a degree has
    `perDegree`, rounded; `TotalOf.unique`: and no other number of them;
  * `totalOf_roundedTotal`: `roundedTotal` counts them;
  * `CoordinateText mark closing radix letter text n`: the text shows `n` units as degrees, minutes
    and the units of which a minute has `radix`, and `CoordinateText.unique` that it shows no
    other number of them;
  * `ShowsTotals` holds of a format for the coordinates of one axis that shows their totals so,
    and `coordinates_are_shown_by_rounded_totals` says it of all formats with minutes.
-/
import EventTable.Proofs.DigitFields
import EventTable.Proofs.HoursInSeconds

namespace EventTable

open Text Number

/-! ## Totals -/

namespace Number

variable {x : Float} {q r : ℚ}

/-- A double that is rounded to an integer may be infinity. -/
theorem Rounded.roundToInt64 (h : Rounded x q) :
    Number.roundToInt64 x = min (⌊q + 1 / 2⌋₊ : ℤ) maxInt64 := by
  cases h with
  | value h => exact roundToInt64_of_positiveValue h.positiveValue
  | overflow hx hlarge =>
    have hq : (2 : ℚ) ^ 63 ≤ q := (pow_le_pow_right₀ one_le_two (by decide)).trans hlarge
    have hgreat : 2 ^ 63 ≤ ⌊q + 1 / 2⌋₊ := Nat.le_floor (by push_cast; linarith only [hq])
    have hmax : Number.roundToInt64 infinity = maxInt64 := by decide +kernel
    rw [hx, hmax]
    unfold maxInt64
    omega

end Number

/-- **The units of a coordinate**, of which a degree has `perDegree`.  A coordinate that is not
    finite has none.  The magnitude of any other one is multiplied, and the double nearest to
    the product is rounded, a half upward; there are at most as many as the greatest integer of
    64 bits.  Products up to a quarter need not have a double with a full mantissa. -/
inductive TotalOf (perDegree : ℕ) (x : Float) : ℕ → Prop
  | notFinite : x.isFinite = false → TotalOf perDegree x 0
  | small {v : Exact} : Exact.ofFloat? x = some v → v.magnitude * perDegree ≤ 1 / 4 →
      TotalOf perDegree x 0
  | rounded {v : Exact} {r : ℚ} : Exact.ofFloat? x = some v →
      RoundsTo (v.magnitude * perDegree) r →
      TotalOf perDegree x (min ⌊r + 1 / 2⌋₊ maxInt64.toNat)

theorem floor_of_roundsTo_of_le {q r : ℚ} (hround : RoundsTo q r) (hsmall : q ≤ 1 / 4) :
    ⌊r + 1 / 2⌋₊ = 0 := by
  have hshort : Short (1 / 4) := by exact_mod_cast short_div_two_pow (n := 1) (by decide) 2
  have hle := hround.ge hshort hsmall
  exact Nat.floor_eq_zero.2 (by linarith)

/-- A coordinate has one number of units. -/
theorem TotalOf.unique {perDegree n n' : ℕ} {x : Float} (h : TotalOf perDegree x n)
    (h' : TotalOf perDegree x n') : n = n' := by
  cases h with
  | notFinite hx =>
    cases h' with
    | notFinite => rfl
    | small hv => exact absurd (isFinite_of_ofFloat? hv) (Bool.eq_false_iff.1 hx)
    | rounded hv => exact absurd (isFinite_of_ofFloat? hv) (Bool.eq_false_iff.1 hx)
  | small hv hsmall =>
    cases h' with
    | notFinite => rfl
    | small => rfl
    | rounded hv' hround =>
      obtain rfl := Option.some.inj (hv.symm.trans hv')
      rw [floor_of_roundsTo_of_le hround hsmall, Nat.zero_min]
  | rounded hv hround =>
    cases h' with
    | notFinite hx => exact absurd (isFinite_of_ofFloat? hv) (Bool.eq_false_iff.1 hx)
    | small hv' hsmall =>
      obtain rfl := Option.some.inj (hv.symm.trans hv')
      rw [floor_of_roundsTo_of_le hround hsmall, Nat.zero_min]
    | rounded hv' hround' =>
      obtain rfl := Option.some.inj (hv.symm.trans hv')
      rw [hround.unique hround']

theorem coordinateMagnitude_of_isFinite {x : Float} (h : x.isFinite = true) :
    coordinateMagnitude x = x.abs :=
  if_pos h

section
variable {perDegree : ℕ} {factor x : Float} (hfactor : HasValue factor perDegree)
  (hzero : roundToInt64 (0.0 * factor) = 0)
include hfactor hzero

/-- A coordinate so near to zero that it is rounded to it. -/
theorem roundedTotal_of_small {v : Exact} (hv : Exact.ofFloat? x = some v)
    (hsmall : v.magnitude * perDegree ≤ 1 / 4) : roundedTotal factor x = 0 := by
  rw [roundedTotal, coordinateMagnitude_of_isFinite (isFinite_of_ofFloat? hv)]
  by_cases hm : v.mantissa = 0
  · have hmagnitude : v.magnitude = 0 := by
      rw [Exact.magnitude_eq, hm, Nat.cast_zero, zero_mul]
    rw [abs_eq_zero_of_ofFloat? hv hmagnitude, hzero]
    rfl
  · have habs : PositiveValue x.abs v.magnitude := (eq_withSign_abs hv hm).2
    obtain ⟨w, hw, -, hle⟩ := (MadeBy.mul habs hfactor).exists_small hsmall
    have hfloor : ⌊w.magnitude + 1 / 2⌋₊ = 0 := Nat.floor_eq_zero.2 (by linarith)
    rw [roundToInt64_of_ofFloat? hw, hfloor, Exact.signed]
    split <;> rfl

/-- **Units are counted** by a rounded product. -/
theorem totalOf_roundedTotal (hlimit : perDegree ≤ 8192) (x : Float) :
    TotalOf perDegree x (roundedTotal factor x) := by
  by_cases hfinite : x.isFinite = true
  · obtain ⟨v, hv⟩ := exists_ofFloat?_of_isFinite hfinite
    rcases le_or_gt (v.magnitude * perDegree) (1 / 4) with hsmall | hgreat
    · rw [roundedTotal_of_small hfactor hzero hv hsmall]
      exact .small hv hsmall
    · have hlimitq : (perDegree : ℚ) ≤ 8192 := by exact_mod_cast hlimit
      have hle := mul_le_mul_of_nonneg_left hlimitq v.magnitude_nonneg
      have habs : HasValue x.abs v.magnitude :=
        hasValue_abs hv (two_zpow_le_of_le (by linarith))
      obtain ⟨r, hproduct, hround⟩ := exists_rounded_mul habs hfactor
        (two_zpow_le_of_le (by linarith))
      have htotal : roundedTotal factor x = min ⌊r + 1 / 2⌋₊ maxInt64.toNat := by
        rw [roundedTotal, coordinateMagnitude_of_isFinite hfinite, hproduct.roundToInt64]
        omega
      rw [htotal]
      exact .rounded hv hround
  · rw [roundedTotal, coordinateMagnitude, if_neg hfinite, hzero]
    exact .notFinite (Bool.eq_false_iff.2 hfinite)

end

/-! ## Degrees and minutes -/

/-- **A text of degrees, minutes and a smaller unit**, of which a minute has `radix`, for `n` of
    these units.  Two marks stand behind the minutes and the units, and the letter of a
    hemisphere at the end. -/
inductive CoordinateText (mark closing : Char) (radix : ℕ) (letter : Char) :
    List Char → ℕ → Prop
  | intro {ds ms us : List Char} {degrees minutes units : ℕ} : LeadingField 1 ds degrees →
      TwoDigits 60 ms minutes → TwoDigits radix us units →
      CoordinateText mark closing radix letter
        (ds ++ '°' :: ms ++ mark :: us ++ [closing, letter])
        (degrees * (60 * radix) + minutes * radix + units)

section
variable {mark closing letter letter' : Char} {radix n n' : ℕ} {text : List Char}

/-- **The units can be read** from the text, and the hemisphere. -/
theorem CoordinateText.unique (h : CoordinateText mark closing radix letter text n)
    (h' : CoordinateText mark closing radix letter' text n') : n = n' ∧ letter = letter' := by
  generalize htext : text = text' at h'
  obtain ⟨hdegrees, hminutes, hunits⟩ := h
  obtain ⟨hdegrees', hminutes', hunits'⟩ := h'
  obtain ⟨htext, hend⟩ := List.append_inj' htext rfl
  obtain ⟨htext, rfl⟩ := hunits.append_inj hunits' [mark] htext
  obtain ⟨rfl, rfl⟩ := hminutes.append_inj hminutes' ['°'] htext
  obtain rfl := hdegrees.value.symm.trans hdegrees'.value
  exact ⟨rfl, (List.cons.inj (List.cons.inj hend).2).1⟩

theorem coordinateText_writeSeconds (letter : Char) (n : ℕ) :
    CoordinateText '\'' '"' 60 letter (writeSeconds n ++ [letter]) n := by
  have htext : CoordinateText '\'' '"' 60 letter _ _ := .intro (leadingField_digits (n / 3600))
    (twoDigits_padded (show n % 3600 / 60 < 60 by omega) (by decide))
    (twoDigits_padded (show n % 60 < 60 by omega) (by decide))
  rw [show n / 3600 * (60 * 60) + n % 3600 / 60 * 60 + n % 60 = n by omega] at htext
  rw [writeSeconds, List.append_assoc]
  exact htext

theorem coordinateText_writeMinutes (decimal letter : Char) (n : ℕ) :
    CoordinateText decimal '\'' 100 letter (writeMinutes decimal n ++ [letter]) n := by
  have htext : CoordinateText decimal '\'' 100 letter _ _ := .intro (leadingField_digits (n / 6000))
    (twoDigits_padded (show n % 6000 / 100 < 60 by omega) (by decide))
    (twoDigits_padded (show n % 6000 % 100 < 100 by omega) (by decide))
  rw [show n / 6000 * (60 * 100) + n % 6000 / 100 * 100 + n % 6000 % 100 = n by omega] at htext
  rw [writeMinutes, List.append_assoc]
  exact htext

end

/-! ## Formats -/

/-- The letter of a coordinate: the second one exactly for values below zero. -/
def Hemispheres.letter (h : Hemispheres) (x : Float) : Char :=
  if x < 0.0 then h.negative else h.positive

theorem Hemispheres.letter_eq_iff {h : Hemispheres} (hne : h.positive ≠ h.negative) (x y : Float) :
    h.letter x = h.letter y ↔ (x < 0.0 ↔ y < 0.0) := by
  unfold letter
  by_cases hx : x < 0.0 <;> by_cases hy : y < 0.0 <;> simp [hx, hy, hne, hne.symm]

/-- **The format shows totals**, of the units of which a minute has `radix`: the text of a
    coordinate is that of its total, with the letter of its hemisphere, and coordinates have
    equal texts only if their totals are equal. -/
structure ShowsTotals (h : Hemispheres) (mark closing : Char) (radix : ℕ) (total : Float → ℕ)
    (format : Float → String) : Prop where
  totalOf_iff (x : Float) (n : ℕ) : TotalOf (60 * radix) x n ↔ n = total x
  text (x : Float) : CoordinateText mark closing radix (h.letter x) (format x).toList (total x)
  eq_iff (x y : Float) : format x = format y ↔ total x = total y ∧ (x < 0.0 ↔ y < 0.0)

section
variable {h : Hemispheres} (hne : h.positive ≠ h.negative)
include hne

theorem showsTotals_of_text {mark closing : Char} {radix : ℕ} {total : Float → ℕ}
    {write : ℕ → List Char} (htotal : ∀ x, TotalOf (60 * radix) x (total x))
    (hwrite : ∀ letter n, CoordinateText mark closing radix letter (write n ++ [letter]) n) :
    ShowsTotals h mark closing radix total
      fun x => String.ofList (write (total x) ++ [h.letter x]) where
  totalOf_iff x n := by
    constructor
    · exact fun hn => hn.unique (htotal x)
    · rintro rfl
      exact htotal x
  text x := by
    rw [String.toList_ofList]
    exact hwrite _ _
  eq_iff x y := by
    rw [← Hemispheres.letter_eq_iff hne]
    constructor
    · intro heq
      have htext := hwrite (h.letter x) (total x)
      rw [String.ofList_injective heq] at htext
      exact htext.unique (hwrite _ _)
    · rintro ⟨htotals, hletters⟩
      rw [htotals, hletters]

theorem showsTotals_degreesMinutesSeconds (symbols : Symbols) :
    ShowsTotals h '\'' '"' 60 (roundedTotal 3600.0)
      (formatCoordinate h · .degreesMinutesSeconds symbols) := by
  refine showsTotals_of_text hne ?_ coordinateText_writeSeconds
  have hfactor : HasValue 3600.0 (60 * 60 : ℕ) := by exact_mod_cast hasValue_hour
  exact totalOf_roundedTotal hfactor (by decide +kernel) (by decide)

theorem showsTotals_degreesMinutes (symbols : Symbols) :
    ShowsTotals h symbols.decimal '\'' 100 (roundedTotal 6000.0)
      (formatCoordinate h · .degreesMinutes symbols) := by
  refine showsTotals_of_text hne ?_ (coordinateText_writeMinutes symbols.decimal)
  have hfactor : HasValue 6000.0 (60 * 100 : ℕ) :=
    ⟨375 * 2 ^ 44, -40, by decide, rfl, (Nat.log2_eq_iff (by decide)).2 (by decide), by decide,
      by decide, by norm_num⟩
  exact totalOf_roundedTotal hfactor (by decide +kernel) (by decide)

end

/-- **Coordinates are shown by their rounded totals**, of seconds or of hundredths of minutes, in
    every language.  The fields of the text are digits for the degrees and two digits each for
    the minutes and the smaller unit, both of them below their next unit, and add up to the
    total; so a total that is rounded up is carried, and 60 is never shown.  The second letter
    stands exactly for values below zero, and coordinates on the same side of zero have the
    same text exactly if their totals are equal. -/
theorem coordinates_are_shown_by_rounded_totals (symbols : Symbols) :
    ShowsTotals .latitude '\'' '"' 60 (roundedTotal 3600.0)
      (formatLatitude · .degreesMinutesSeconds symbols) ∧
    ShowsTotals .longitude '\'' '"' 60 (roundedTotal 3600.0)
      (formatLongitude · .degreesMinutesSeconds symbols) ∧
    ShowsTotals .latitude symbols.decimal '\'' 100 (roundedTotal 6000.0)
      (formatLatitude · .degreesMinutes symbols) ∧
    ShowsTotals .longitude symbols.decimal '\'' 100 (roundedTotal 6000.0)
      (formatLongitude · .degreesMinutes symbols) :=
  ⟨showsTotals_degreesMinutesSeconds (by decide) symbols,
    showsTotals_degreesMinutesSeconds (by decide) symbols,
    showsTotals_degreesMinutes (by decide) symbols, showsTotals_degreesMinutes (by decide) symbols⟩

/-- Seconds are carried into minutes, and these into degrees. -/
example : formatLatitude (-59.99999) .degreesMinutesSeconds {} = "60°00'00\"S" := by
  decide +kernel

end EventTable
