/-
  EventTable — readings that stand in one cell.

  * `ShowsGroups p x`: a double that the pattern `p` shows with more than three digits in
    front of the point, and in groups;
  * `mem_apply_iff_of_grouping`: these are the numbers whose text holds the mark between groups;
  * `length_lt_length_split_intercalate`: texts joined by a character that one of them holds
    are cut in more pieces than were joined;
  * `semicolon_not_mem_measureText` and `comma_mem_measureText_iff`: which measurements hold
    the character that stands between readings, in the two kinds of languages;
  * `tire_pressures_are_told_apart_without_groups`: in a language with a decimal comma all
    readings can be told apart, and in the others those that are not shown in groups;
  * `two_pressures_are_cut_in_four_pieces` is a cell where they cannot.
-/
import EventTable.EventCatalog
import EventTable.Proofs.NumberTexts
import EventTable.Proofs.Pieces

namespace EventTable

open Text Number Columns

/-! ## Numbers in groups -/

namespace Number

theorem Grouped.mem_separator_iff {separator : Char} {ds text : List Char}
    (h : Grouped separator ds text) (hds : separator ∉ ds) : separator ∈ text ↔ 3 < ds.length := by
  cases h with
  | single _ hshort => exact iff_of_false hds (Nat.not_lt.2 hshort)
  | @group a b c ds text hne _ =>
    refine iff_of_true (List.mem_append_right _ List.mem_cons_self) ?_
    rw [List.length_append]
    exact Nat.lt_add_of_pos_left (List.length_pos_iff.2 hne)

section
variable {p : Pattern} {units : ℕ} {whole fraction : List Char}

/-- The digits in front of the point are those of the whole units. -/
theorem Pattern.Shows.natOfDigits_whole (h : p.Shows units whole fraction) :
    natOfDigits whole = units / 10 ^ p.maxFraction := by
  have hfraction : ∀ c ∈ fraction, c.isDigit = true := fun c hc =>
    h.isDigit c (List.mem_append_right _ hc)
  have hscale : 10 ^ p.maxFraction =
      10 ^ fraction.length * 10 ^ (p.maxFraction - fraction.length) := by
    rw [← Nat.pow_add, Nat.add_sub_of_le h.le_maxFraction]
  rw [← h.value, natOfDigits_append, hscale,
    Nat.mul_div_mul_right _ _ (Nat.pow_pos (by decide)), Nat.add_comm,
    Nat.add_mul_div_right _ _ (Nat.pow_pos (by decide)),
    Nat.div_eq_of_lt (natOfDigits_lt hfraction), Nat.zero_add]

/-- There are more than three of them if that is asked for, and from a thousand on. -/
theorem Pattern.Shows.three_lt_length_iff (h : p.Shows units whole fraction) :
    3 < whole.length ↔ 3 < p.minInteger ∨ 1000 * 10 ^ p.maxFraction ≤ units := by
  have hwhole : ∀ c ∈ whole, c.isDigit = true := fun c hc =>
    h.isDigit c (List.mem_append_left _ hc)
  rw [← Nat.le_div_iff_mul_le (Nat.pow_pos (by decide)), ← h.natOfDigits_whole]
  constructor
  · intro hlong
    refine or_iff_not_imp_left.2 fun hmin => ?_
    -- there are more digits than asked for, so that the first one is not zero
    rcases h.leading (by omega) with hhead | ⟨-, rfl, -⟩
    · cases whole with
      | nil => exact absurd hlong (by decide)
      | cons c cs =>
        rw [List.length_cons] at hlong
        have hdigit := isDigit_iff.1 (hwhole c List.mem_cons_self)
        have hne : c.toNat ≠ 48 := fun hc => hhead (congrArg some (Char.toNat_inj.1 hc))
        have hone : 1 ≤ c.toNat - '0'.toNat := by
          show 1 ≤ c.toNat - 48
          omega
        have hpow : 10 ^ 3 ≤ 10 ^ cs.length := Nat.pow_le_pow_right (by decide) (by omega)
        have hmul := Nat.mul_le_mul_right (10 ^ cs.length) hone
        rw [natOfDigits_cons]
        omega
    · exact absurd hlong (by decide)
  · rintro (hmin | hthousand)
    · exact Nat.lt_of_lt_of_le hmin h.minInteger_le
    · have hlt := Nat.lt_of_le_of_lt hthousand (natOfDigits_lt hwhole)
      exact (Nat.pow_lt_pow_iff_right (a := 10) (by decide)).1 hlt

end

/-- **The number is shown in groups**: the pattern says so, and asks for more than three
    digits in front of the point, or the number has a thousand. -/
def ShowsGroups (p : Pattern) (x : Float) : Prop :=
  p.grouping = true ∧ (3 < p.minInteger ∨
    1000 * 10 ^ p.maxFraction ≤ roundedUnits p.maxFraction (finiteOrZero x).abs)

instance (p : Pattern) (x : Float) : Decidable (ShowsGroups p x) :=
  inferInstanceAs (Decidable (_ ∧ _))

section
variable {p : Pattern} {symbols : Symbols} {x : Float} {c : Char}

/-- Which characters there are in the text of a number. -/
theorem mem_apply_iff_of_grouping (h : p.minFraction ≤ p.maxFraction) (hdigit : c.isDigit = false)
    (hminus : c ≠ '-') (hdecimal : c ≠ symbols.decimal) :
    c ∈ (p.apply symbols x).toList ↔ c = symbols.grouping ∧ ShowsGroups p x := by
  obtain ⟨negative, whole, fraction, integer, htext, hshows, -, hinteger⟩ :=
    p.exists_toList_apply h symbols x
  have hnot : c ∉ whole ++ fraction := by
    intro hmem
    rw [hshows.isDigit c hmem] at hdigit
    exact Bool.noConfusion hdigit
  rw [List.mem_append, not_or] at hnot
  have hsign : c ∉ if negative then ['-'] else [] := by
    cases negative with
    | true => exact fun hmem => hminus (List.mem_singleton.1 hmem)
    | false => exact List.not_mem_nil
  have hpointed : c ∉ if fraction = [] then [] else symbols.decimal :: fraction := by
    split
    · exact List.not_mem_nil
    · exact fun hmem => (List.mem_cons.1 hmem).elim hdecimal hnot.2
  rw [htext, List.mem_append, List.mem_append, or_iff_left hpointed, or_iff_right hsign,
    ShowsGroups, ← hshows.three_lt_length_iff]
  rcases hinteger with ⟨hgrouping, hgrouped⟩ | ⟨hgrouping, rfl⟩
  · by_cases hc : c = symbols.grouping
    · subst hc
      rw [hgrouped.mem_separator_iff hnot.1, and_iff_right rfl, and_iff_right hgrouping]
    · exact iff_of_false (fun hmem => hnot.1 (hgrouped.mem_of_mem hmem hc)) fun h => hc h.1
  · refine iff_of_false hnot.1 fun h => ?_
    rw [hgrouping] at h
    exact Bool.noConfusion h.2.1

end

end Number

/-! ## Readings joined by a character -/

namespace Text

variable {c : Char} {texts : List (List Char)}

theorem count_intercalate (c : Char) (hne : texts ≠ []) :
    ([c].intercalate texts).count c + 1 = texts.flatten.count c + texts.length := by
  induction texts with
  | nil => exact absurd rfl hne
  | cons a texts ih =>
    cases texts with
    | nil => rw [List.intercalate_singleton, List.flatten_singleton, List.length_singleton]
    | cons b texts =>
      have hrest := ih (List.cons_ne_nil _ _)
      rw [List.intercalate_cons_cons, List.count_append, List.count_append,
        List.count_singleton_self, List.flatten_cons, List.count_append, List.length_cons]
      omega

/-- A joined text is cut in more pieces than were joined if one of them holds the
    character. -/
theorem length_lt_length_split_intercalate (h : ∃ a ∈ texts, c ∈ a) :
    texts.length < (split c [] ([c].intercalate texts)).length := by
  have hcount : 0 < texts.flatten.count c := List.count_pos_iff.2 (List.mem_flatten.2 h)
  obtain ⟨a, ha, -⟩ := h
  have hjoined := count_intercalate c (List.ne_nil_of_mem ha)
  rw [← pieces_eq_split, length_pieces]
  omega

end Text

/-! ## The readings of the tires -/

/-- There are two kinds of languages. -/
theorem Context.symbols_eq_or (ctx : Context) :
    ctx.symbols = ⟨',', '.'⟩ ∨ ctx.symbols = ⟨'.', ','⟩ := by
  rw [Context.symbols, Locale.symbols]
  split
  · exact .inl rfl
  · exact .inr rfl

section
variable {ctx : Context}

/-- In a language with a decimal comma readings stand apart by a character that no number
    has. -/
theorem semicolon_not_mem_measureText (h : ctx.symbols = ⟨',', '.'⟩) (quantity : Quantity)
    (x : Float) (argument default : String) :
    ';' ∉ (measureText ctx quantity x argument default).toList := by
  intro hmem
  have hbounds := (Pattern.ofArgument_bounds argument default).1
  rw [measureText, Context.formatNumber, formatNumberWith, h,
    mem_apply_iff_of_grouping hbounds rfl (by decide) (by decide)] at hmem
  exact absurd hmem.1 (by decide)

/-- In the others by the mark between groups. -/
theorem comma_mem_measureText_iff (h : ctx.symbols = ⟨'.', ','⟩) (quantity : Quantity)
    (x : Float) (argument default : String) :
    ',' ∈ (measureText ctx quantity x argument default).toList ↔
      ShowsGroups (Pattern.ofArgument argument default) (ctx.units.convert quantity x) := by
  have hbounds := (Pattern.ofArgument_bounds argument default).1
  rw [measureText, Context.formatNumber, formatNumberWith, h,
    mem_apply_iff_of_grouping hbounds rfl (by decide) (by decide), and_iff_right rfl]

theorem toList_readingSeparator_of_comma (h : ctx.symbols = ⟨',', '.'⟩) :
    (readingSeparator ctx).toList = [';', ' '] := by
  rw [readingSeparator, h]
  rfl

theorem toList_readingSeparator_of_point (h : ctx.symbols = ⟨'.', ','⟩) :
    (readingSeparator ctx).toList = [','] := by
  rw [readingSeparator, h]
  rfl

end

theorem lookup?_tirePressure : eventCatalog.lookup? "tirePressure" =
    some (column "tirePressure" (unitTitle "col.tirePressure" "Tire\nPressure" "pressureUnits")
      fun _ ctx argument e =>
        readingsCell ctx (measureText ctx .pressure · argument "0") e.tirePressuresKpa) := rfl

section
variable {ctx : Context} {text : Float → String} {readings : List Float}

/-- The text of readings is what they are joined to, if each has a text to be seen. -/
theorem toList_value_readingsCell (hne : readings ≠ [])
    (hvisible : ∀ x, isBlank (text x) = false) :
    (readingsCell ctx text readings).value.toList =
      (readingSeparator ctx).toList.intercalate (readings.map fun x => (text x).toList) := by
  have hjoined : ((readingSeparator ctx).intercalate (readings.map text)).toList =
      (readingSeparator ctx).toList.intercalate (readings.map fun x => (text x).toList) := by
    rw [String.toList_intercalate, List.map_map]
    rfl
  have hblank : isBlank ((readingSeparator ctx).intercalate (readings.map text)) = false := by
    rw [isBlank_eq_false_iff, hjoined]
    obtain ⟨x, rest, rfl⟩ := List.exists_cons_of_ne_nil hne
    obtain ⟨c, hc, hseen⟩ := isBlank_eq_false_iff.1 (hvisible x)
    refine ⟨c, ?_, hseen⟩
    cases rest with
    | nil => rwa [List.map_singleton, List.intercalate_singleton]
    | cons y rest =>
      rw [List.map_cons, List.map_cons, List.intercalate_cons_cons, List.append_assoc]
      exact List.mem_append_left _ hc
  rw [readingsCell, if_neg (by simpa using hne), Cell.value_ofText hblank, hjoined]

end

/-- **Tire pressures are told apart unless they are shown in groups.**  The text of a column
    `tirePressure`, cut at the separator of readings, gives the texts of the readings back
    exactly if the language has a decimal comma or no reading is shown in groups; else it
    gives more pieces than there are readings. -/
theorem tire_pressures_are_told_apart_without_groups {request : ColumnRequest}
    (hk : request.key = "tirePressure") (ctx : Context) (row : ℕ) {e : Event}
    (hne : e.tirePressuresKpa ≠ []) :
    let shown := e.tirePressuresKpa.map fun kpa =>
      (measureText ctx .pressure kpa request.argument "0").toList
    ∃ c rest, (readingSeparator ctx).toList = c :: rest ∧
      let pieces := split c rest (resolveCell eventCatalog ctx row e request).value.toList
      (pieces = shown ↔ ctx.symbols.decimal = ',' ∨ ∀ kpa ∈ e.tirePressuresKpa,
        ¬ ShowsGroups (Pattern.ofArgument request.argument "0") (ctx.units.convert .pressure kpa)) ∧
      (pieces ≠ shown → shown.length < pieces.length) := by
  intro shown
  have hcell : resolveCell eventCatalog ctx row e request =
      readingsCell ctx (measureText ctx .pressure · request.argument "0") e.tirePressuresKpa := by
    rw [resolveCell, hk, lookup?_tirePressure]
    rfl
  have hvalue : (resolveCell eventCatalog ctx row e request).value.toList =
      (readingSeparator ctx).toList.intercalate shown := by
    rw [hcell]
    exact toList_value_readingsCell hne fun x => isBlank_formatNumber ..
  have hshown : shown ≠ [] := mt List.map_eq_nil_iff.1 hne
  rcases ctx.symbols_eq_or with hcomma | hpoint
  · have hseparator := toList_readingSeparator_of_comma hcomma
    have hnone : ∀ a ∈ shown, ';' ∉ a :=
      List.forall_mem_map.2 fun kpa _ => semicolon_not_mem_measureText hcomma _ _ _ _
    refine ⟨';', [' '], hseparator, ?_⟩
    rw [hvalue, hseparator, split_intercalate hshown hnone, hcomma]
    exact ⟨iff_of_true rfl (.inl rfl), fun h => absurd rfl h⟩
  · have hseparator := toList_readingSeparator_of_point hpoint
    have hdecimal : ¬ ctx.symbols.decimal = ',' := by
      rw [hpoint]
      decide
    refine ⟨',', [], hseparator, ?_⟩
    rw [hvalue, hseparator, or_iff_right hdecimal]
    by_cases hgroups : ∀ kpa ∈ e.tirePressuresKpa,
        ¬ ShowsGroups (Pattern.ofArgument request.argument "0") (ctx.units.convert .pressure kpa)
    · have hnone : ∀ a ∈ shown, ',' ∉ a := List.forall_mem_map.2 fun kpa hin =>
        mt (comma_mem_measureText_iff hpoint ..).1 (hgroups kpa hin)
      rw [split_intercalate hshown hnone]
      exact ⟨iff_of_true rfl hgroups, fun h => absurd rfl h⟩
    · have hsome : ∃ a ∈ shown, ',' ∈ a := by
        push Not at hgroups
        obtain ⟨kpa, hin, hgroups⟩ := hgroups
        exact ⟨_, List.mem_map_of_mem hin, (comma_mem_measureText_iff hpoint ..).2 hgroups⟩
      have hmore := length_lt_length_split_intercalate hsome
      refine ⟨iff_of_false (fun heq => ?_) hgroups, fun _ => hmore⟩
      rw [heq] at hmore
      exact absurd hmore (lt_irrefl _)

/-- Two pressures in a language with a decimal comma, one of them in groups. -/
theorem german_pressures_are_told_apart :
    let request : ColumnRequest := { key := "tirePressure", argument := "#,##0.0" }
    let ctx : Context := { now := 0, locale := { tag := "de_DE" } }
    let e : Event := { tirePressuresKpa := [1234.5, 250.0] }
    request.key = "tirePressure" ∧ e.tirePressuresKpa ≠ [] ∧
      split ';' [' '] (resolveCell eventCatalog ctx 0 e request).value.toList =
        ["1.234,5".toList, "250,0".toList] := by
  intro request ctx e
  have hkey : request.key = "tirePressure" := rfl
  have hne : e.tirePressuresKpa ≠ [] := List.cons_ne_nil _ _
  obtain ⟨c, rest, hseparator, happart, -⟩ :=
    tire_pressures_are_told_apart_without_groups hkey ctx 0 hne
  refine ⟨hkey, hne, ?_⟩
  have hsemicolon : (readingSeparator ctx).toList = [';', ' '] := by decide +kernel
  obtain ⟨rfl, rfl⟩ := List.cons.inj (hseparator.symm.trans hsemicolon)
  rw [happart.2 (.inl (by decide +kernel))]
  decide +kernel

/-- Two pressures in English are cut in four pieces. -/
theorem two_pressures_are_cut_in_four_pieces :
    let request : ColumnRequest := { key := "tirePressure", argument := "#,##0" }
    let ctx : Context := { now := 0 }
    let e : Event := { tirePressuresKpa := [1234.0, 1250.0] }
    let cell := resolveCell eventCatalog ctx 0 e request
    cell.value = "1,234,1,250" ∧ (readingSeparator ctx).toList = [','] ∧
      split ',' [] cell.value.toList =
        ["1".toList, "234".toList, "1".toList, "250".toList] := by
  intro request ctx e cell
  rw [← pieces_eq_split]
  decide +kernel

end EventTable
