/-
  EventTable — numbers and coordinates with the separators of a language.

  * `Symbols.inPlaceOf` is what a language puts where others put a point or a comma, and
    `Symbols.localized` a text with all of them replaced;
  * `map_inPlaceOf_eq_self`: digits stay as they are, and `map_grouped`: groups stay where
    they are;
  * `Shown.map_write` and `map_writeMinutes`: so the digits of a number, and the parts of a
    coordinate, are written in every language alike;
  * `languages_change_separators_only` says it of all texts of numbers and coordinates.
-/
import EventTable.Coordinate
import EventTable.Proofs.NumberTexts

namespace EventTable

open Text Number

namespace Number

/-- What stands in a text of the language where `c` stands in one with a point and commas. -/
def Symbols.inPlaceOf (symbols : Symbols) (c : Char) : Char :=
  if c = '.' then symbols.decimal else if c = ',' then symbols.grouping else c

/-- The text with all its points and commas replaced at once. -/
def Symbols.localized (symbols : Symbols) (text : String) : String :=
  String.ofList (text.toList.map symbols.inPlaceOf)

section
variable (symbols : Symbols)

theorem Symbols.inPlaceOf_eq_self {c : Char} (hpoint : c ≠ '.') (hcomma : c ≠ ',') :
    symbols.inPlaceOf c = c := by
  rw [inPlaceOf, if_neg hpoint, if_neg hcomma]

theorem Symbols.inPlaceOf_of_isDigit {c : Char} (h : c.isDigit = true) :
    symbols.inPlaceOf c = c := by
  apply symbols.inPlaceOf_eq_self
  all_goals
    rintro rfl
    exact absurd h (by decide)

theorem map_inPlaceOf_eq_self {ds : List Char} (h : ∀ c ∈ ds, c.isDigit = true) :
    ds.map symbols.inPlaceOf = ds := by
  induction ds with
  | nil => rfl
  | cons d ds ih =>
    obtain ⟨hd, hds⟩ := List.forall_mem_cons.1 h
    rw [List.map_cons, symbols.inPlaceOf_of_isDigit hd, ih hds]

theorem map_inPlaceOf_digits (n : ℕ) : (digits n).map symbols.inPlaceOf = digits n :=
  map_inPlaceOf_eq_self symbols fun _ => isDigit_of_mem_digits

theorem map_inPlaceOf_padded (width n : ℕ) :
    (padded width n).map symbols.inPlaceOf = padded width n :=
  map_inPlaceOf_eq_self symbols fun _ => isDigit_of_mem_padded

/-- Where the separators of groups stand is the same for all of them. -/
theorem map_grouped (f : Char → Char) (separator : Char) (ds : List Char) :
    (grouped separator ds).map f = grouped (f separator) (ds.map f) := by
  induction ds with
  | nil => rfl
  | cons d r ih =>
    have hgroup : (r.map f).length % 3 = 0 ∧ r.map f ≠ [] ↔ r.length % 3 = 0 ∧ r ≠ [] := by
      rw [List.length_map, Ne, List.map_eq_nil_iff]
    rw [List.map_cons, grouped, grouped]
    by_cases h : r.length % 3 = 0 ∧ r ≠ []
    · rw [if_pos h, if_pos (hgroup.2 h), ← ih]
      rfl
    · rw [if_neg h, if_neg (hgroup.not.2 h), ← ih]
      rfl

/-! ## Numbers -/

/-- **Digits are written with the separators** of a language where others have a point and
    commas. -/
theorem Shown.map_write {s : Shown} (grouping : Bool)
    (h : ∀ c ∈ s.integer ++ s.fraction, c.isDigit = true) :
    (s.write grouping {}).map symbols.inPlaceOf = s.write grouping symbols := by
  rw [List.forall_mem_append] at h
  have hsign : (if s.negative then ['-'] else []).map symbols.inPlaceOf =
      if s.negative then ['-'] else [] := by
    split <;> rfl
  have hinteger : (if grouping then grouped ',' s.integer else s.integer).map
      symbols.inPlaceOf = if grouping then grouped symbols.grouping s.integer else s.integer := by
    split
    · rw [map_grouped, map_inPlaceOf_eq_self symbols h.1]
      rfl
    · exact map_inPlaceOf_eq_self symbols h.1
  have hfraction : (if s.fraction.isEmpty then [] else '.' :: s.fraction).map
      symbols.inPlaceOf = if s.fraction.isEmpty then [] else symbols.decimal :: s.fraction := by
    split
    · rfl
    · rw [List.map_cons, map_inPlaceOf_eq_self symbols h.2]
      rfl
  rw [Shown.write, Shown.write, List.map_append, List.map_append, hsign, hinteger, hfraction]

theorem Pattern.localized_apply {p : Pattern} (h : p.minFraction ≤ p.maxFraction) (x : Float) :
    symbols.localized (p.apply {} x) = p.apply symbols x := by
  rw [Symbols.localized, apply, apply, String.toList_ofList,
    Shown.map_write symbols p.grouping (shows_ofFloat h x).isDigit]

theorem localized_formatNumberWith (x : Float) (argument default : String) :
    symbols.localized (formatNumberWith x argument default {}) =
      formatNumberWith x argument default symbols :=
  Pattern.localized_apply symbols (Pattern.ofArgument_bounds argument default).1 x

end

end Number

/-! ## Coordinates -/

section
variable (symbols : Symbols)

theorem map_writeSeconds (total : ℕ) :
    (writeSeconds total).map symbols.inPlaceOf = writeSeconds total := by
  simp only [writeSeconds, List.map_append, List.map_cons, List.map_nil, map_inPlaceOf_digits,
    map_inPlaceOf_padded]
  rfl

theorem map_writeMinutes (total : ℕ) :
    (writeMinutes '.' total).map symbols.inPlaceOf = writeMinutes symbols.decimal total := by
  simp only [writeMinutes, List.map_append, List.map_cons, List.map_nil, map_inPlaceOf_digits,
    map_inPlaceOf_padded]
  rfl

/-- **A coordinate** is written so, if its hemispheres have letters of their own. -/
theorem localized_formatCoordinate {h : Hemispheres}
    (hpositive : symbols.inPlaceOf h.positive = h.positive)
    (hnegative : symbols.inPlaceOf h.negative = h.negative) (x : Float) (f : CoordinateFormat) :
    symbols.localized (formatCoordinate h x f {}) = formatCoordinate h x f symbols := by
  have hletter : symbols.inPlaceOf (if x < 0.0 then h.negative else h.positive) =
      if x < 0.0 then h.negative else h.positive := by
    split
    · exact hnegative
    · exact hpositive
  cases f with
  | decimal argument => exact localized_formatNumberWith symbols x argument "0.0000"
  | degreesMinutesSeconds =>
    simp only [formatCoordinate, Symbols.localized, String.toList_ofList, List.map_append,
      List.map_cons, List.map_nil, map_writeSeconds, hletter]
  | degreesMinutes =>
    simp only [formatCoordinate, Symbols.localized, String.toList_ofList, List.map_append,
      List.map_cons, List.map_nil, map_writeMinutes, hletter]

theorem localized_formatLatitude (x : Float) (f : CoordinateFormat) :
    symbols.localized (formatLatitude x f {}) = formatLatitude x f symbols :=
  localized_formatCoordinate symbols rfl rfl x f

theorem localized_formatLongitude (x : Float) (f : CoordinateFormat) :
    symbols.localized (formatLongitude x f {}) = formatLongitude x f symbols :=
  localized_formatCoordinate symbols rfl rfl x f

theorem localized_append (text text' : String) :
    symbols.localized (text ++ text') = symbols.localized text ++ symbols.localized text' := by
  simp only [Symbols.localized, String.toList_append, List.map_append, String.ofList_append]

end

/-- **Languages change the separators only.**  The text of a number, for every argument and
    default, and that of a latitude, a longitude or a point, in every format, is the one with
    a point and commas in which every point is replaced by the decimal separator of the
    language, and every comma by that of its groups. -/
theorem languages_change_separators_only (symbols : Symbols) :
    (∀ x argument default, formatNumberWith x argument default symbols =
      symbols.localized (formatNumber x argument default)) ∧
    (∀ x f, formatLatitude x f symbols = symbols.localized (formatLatitude x f {})) ∧
    (∀ x f, formatLongitude x f symbols = symbols.localized (formatLongitude x f {})) ∧
    ∀ latitude longitude f, formatPoint latitude longitude f symbols =
      symbols.localized (formatPoint latitude longitude f {}) := by
  refine ⟨?number, ?latitude, ?longitude, ?point⟩
  case number =>
    intro x argument default
    exact (localized_formatNumberWith symbols x argument default).symm
  case latitude => exact fun x f => (localized_formatLatitude symbols x f).symm
  case longitude => exact fun x f => (localized_formatLongitude symbols x f).symm
  case point =>
    intro latitude longitude f
    have hseparator : symbols.localized pointSeparator = pointSeparator := rfl
    rw [formatPoint, formatPoint, localized_append, localized_append, localized_formatLatitude,
      localized_formatLongitude, hseparator]

/-- A language in which point and comma change places. -/
example : formatNumberWith (-1234567.5) "#,##0.00" "0" ⟨',', '.'⟩ = "-1.234.567,50" := by
  decide +kernel

end EventTable
