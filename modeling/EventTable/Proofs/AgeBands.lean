/-
  EventTable — the band that a list of bands gives to an age.

  * `BandText` is the grammar of an entry, and `parse?_eq_some_iff`: these are the entries
    that are read;
  * `Entries` are the texts between the commas of a list, and `Written` the bands among
    them, in the order written;
  * `Chosen` is the band with the greatest threshold that an age meets, the earliest of
    equal ones, and `bandForAge?_descending_iff`: the first match of the sorted bands is
    that one;
  * `Reordered` moves bands with distinct thresholds past each other, and
    `Reordered.bandForAge?_eq`: that does not change the first match;
  * `bandForAge?_mono`: a greater age meets no smaller threshold;
  * `band_lists_give_the_greatest_threshold` puts these together.
-/
import EventTable.AgeBand
import EventTable.Proofs.Pieces
import EventTable.Proofs.SignedNumerals

namespace EventTable

open Text Number

/-! ## Whole numbers -/

namespace Number

/-- A whole number: digits, with or without a sign. -/
inductive Integer : List Char → Int → Prop
  | unsigned {ds n} : Unsigned ds n → Integer ds n
  | plus {ds n} : Unsigned ds n → Integer ('+' :: ds) n
  | minus {ds n} : Unsigned ds n → Integer ('-' :: ds) (-n)

theorem integer_iff {cs : List Char} {k : Int} : Integer cs k ↔ int? cs = some k := by
  rw [int?_eq_some_iff]
  constructor
  · intro h
    cases h with
    | unsigned h => exact .inl ⟨_, h, rfl⟩
    | plus h => exact .inr (.inl ⟨_, _, rfl, h, rfl⟩)
    | minus h => exact .inr (.inr ⟨_, _, rfl, h, rfl⟩)
  · rintro (⟨n, h, rfl⟩ | ⟨ds, n, rfl, h, rfl⟩ | ⟨ds, n, rfl, h, rfl⟩)
    · exact .unsigned h
    · exact .plus h
    · exact .minus h

end Number

namespace AgeBand

/-! ## Entries -/

/-- **An entry of a list of bands**: a whole number of 64 bits, the first colon, and a colour
    that is not blank, all trimmed. -/
inductive BandText : List Char → AgeBand → Prop
  | entry {entry seconds color threshold} : trimChars entry = seconds ++ ':' :: color →
      ':' ∉ seconds → Integer (trimChars seconds) threshold →
      minInt64 ≤ threshold → threshold ≤ maxInt64 → trimChars color ≠ [] →
      BandText entry ⟨threshold, String.ofList (trimChars color)⟩

theorem parse?_eq_some_iff {entry : List Char} {band : AgeBand} :
    parse? (trimChars entry) = some band ↔ BandText entry band := by
  simp only [parse?, Option.bind_eq_bind, Option.bind_eq_some_iff, Prod.exists, cut?_eq_some_iff,
    boundedInt?, Option.filter_eq_some_iff, Bool.and_eq_true, decide_eq_true_eq, ← integer_iff]
  constructor
  · rintro ⟨seconds, color, ⟨hcut, hcolon⟩, threshold, ⟨hk, hlo, hhi⟩, h⟩
    split at h
    · cases h
    · rename_i hcolor
      obtain rfl := Option.some.inj h
      exact .entry hcut hcolon hk hlo hhi (mt List.isEmpty_iff.2 hcolor)
  · intro h
    cases h with
    | @entry seconds color threshold hcut hcolon hk hlo hhi hcolor =>
      refine ⟨seconds, color, ⟨hcut, hcolon⟩, threshold, ⟨hk, hlo, hhi⟩, ?_⟩
      rw [if_neg (mt List.isEmpty_iff.1 hcolor)]

/-- The texts between the commas of a list. -/
structure Entries (text : String) (entries : List (List Char)) : Prop where
  ne_nil : entries ≠ []
  comma_not_mem : ∀ e ∈ entries, ',' ∉ e
  joined : [','].intercalate entries = text.toList

/-- **The bands of a list**, in the order written; entries that are no bands are left out. -/
inductive Written : List (List Char) → List AgeBand → Prop
  | nil : Written [] []
  | band {e entries band bands} : BandText e band → Written entries bands →
      Written (e :: entries) (band :: bands)
  | skip {e entries bands} : (∀ band, ¬ BandText e band) → Written entries bands →
      Written (e :: entries) bands

/-- The bands among the entries. -/
def ofEntries (entries : List (List Char)) : List AgeBand :=
  entries.filterMap fun entry => parse? (trimChars entry)

/-- The bands with the greatest threshold first. -/
def descending (bands : List AgeBand) : List AgeBand :=
  bands.mergeSort fun a b => b.threshold ≤ a.threshold

theorem parseList_eq (text : String) :
    parseList text = descending (ofEntries (pieces ',' text.toList)) := rfl

section
variable {text : String} {e : List Char} {entries : List (List Char)} {band : AgeBand}
  {bands : List AgeBand}

theorem ofEntries_cons_of_bandText (h : BandText e band) (entries : List (List Char)) :
    ofEntries (e :: entries) = band :: ofEntries entries :=
  List.filterMap_cons_some (parse?_eq_some_iff.2 h)

theorem ofEntries_cons_of_forall (h : ∀ band, ¬ BandText e band) (entries : List (List Char)) :
    ofEntries (e :: entries) = ofEntries entries :=
  List.filterMap_cons_none <|
    Option.eq_none_iff_forall_not_mem.2 fun band hb => h band (parse?_eq_some_iff.1 hb)

theorem bandText_or_forall (e : List Char) :
    (∃ band, BandText e band) ∨ ∀ band, ¬ BandText e band := by
  by_cases h : ∃ band, BandText e band
  · exact .inl h
  · exact .inr (not_exists.1 h)

/-- Every list of entries has its bands, and no others. -/
theorem written_iff : Written entries bands ↔ bands = ofEntries entries := by
  constructor
  · intro h
    induction h with
    | nil => rfl
    | band hb _ ih => rw [ih, ofEntries_cons_of_bandText hb]
    | skip hn _ ih => rw [ih, ofEntries_cons_of_forall hn]
  · rintro rfl
    induction entries with
    | nil => exact .nil
    | cons e entries ih =>
      rcases bandText_or_forall e with ⟨band, hb⟩ | hn
      · rw [ofEntries_cons_of_bandText hb]
        exact .band hb ih
      · rw [ofEntries_cons_of_forall hn]
        exact .skip hn ih

/-- A text is cut at its commas in one way. -/
theorem entries_iff : Entries text entries ↔ entries = pieces ',' text.toList := by
  rw [eq_pieces_iff]
  exact ⟨fun h => ⟨h.ne_nil, h.comma_not_mem, h.joined⟩, fun ⟨hne, hcomma, h⟩ => ⟨hne, hcomma, h⟩⟩

end

/-! ## The first match of sorted bands -/

section
variable {age age' : Int} {band : AgeBand} {bands : List AgeBand} {entries : List (List Char)}

theorem descending_trans (a b c : AgeBand) (h : decide (b.threshold ≤ a.threshold) = true)
    (h' : decide (c.threshold ≤ b.threshold) = true) :
    decide (c.threshold ≤ a.threshold) = true := by
  rw [decide_eq_true_iff] at *
  exact Int.le_trans h' h

theorem descending_total (a b : AgeBand) :
    (decide (b.threshold ≤ a.threshold) || decide (a.threshold ≤ b.threshold)) = true := by
  rw [Bool.or_eq_true, decide_eq_true_iff, decide_eq_true_iff]
  exact Int.le_total ..

theorem bandForAge?_eq_some (h : bandForAge? age bands = some band) :
    band ∈ bands ∧ band.threshold ≤ age :=
  ⟨List.mem_of_find?_eq_some h,
    of_decide_eq_true (List.find?_some (p := fun b : AgeBand => b.threshold ≤ age) h)⟩

theorem bandForAge?_eq_none_iff :
    bandForAge? age bands = none ↔ ∀ b ∈ bands, age < b.threshold := by
  rw [bandForAge?, List.find?_eq_none]
  simp only [decide_eq_true_eq, Int.not_le]

theorem bandForAge?_append (before after : List AgeBand) : bandForAge? age (before ++ after) =
    (bandForAge? age before).or (bandForAge? age after) :=
  List.find?_append ..

/-- **A band in front** of others is the one for an age that meets it and no greater
    threshold, and otherwise the one among the others is. -/
theorem bandForAge?_descending_cons_iff {first : AgeBand} :
    bandForAge? age (descending (first :: bands)) = some band ↔
      (bandForAge? age (descending bands) = some band ∧
        (first.threshold ≤ age → first.threshold < band.threshold)) ∨
      (band = first ∧ first.threshold ≤ age ∧
        ∀ b ∈ bands, b.threshold ≤ age → b.threshold ≤ first.threshold) := by
  obtain ⟨before, after, hs, hs', hbefore⟩ :=
    List.mergeSort_cons descending_trans descending_total first bands
  have hsorted := List.pairwise_mergeSort descending_trans descending_total (first :: bands)
  rw [hs] at hsorted
  have hgreater : ∀ b ∈ before, first.threshold < b.threshold := by simpa using hbefore
  have hless : ∀ b ∈ after, b.threshold ≤ first.threshold := by
    simpa using (List.pairwise_cons.1 (List.pairwise_append.1 hsorted).2.1).1
  have hmem : ∀ b, b ∈ bands ↔ b ∈ before ∨ b ∈ after := by
    intro b
    rw [← List.mem_append, ← hs', List.mem_mergeSort]
  have hcons : descending (first :: bands) = before ++ [first] ++ after := by
    rw [List.append_assoc]
    exact hs
  have hrest : descending bands = before ++ after := hs'
  rw [hcons, hrest, bandForAge?_append, bandForAge?_append, bandForAge?_append]
  by_cases hmet : first.threshold ≤ age
  · have hfirst : bandForAge? age [first] = some first :=
      List.find?_cons_of_pos (decide_eq_true hmet)
    rw [hfirst]
    cases hb : bandForAge? age before with
    | some b =>
      obtain ⟨hin, hle⟩ := bandForAge?_eq_some hb
      have hlt := hgreater b hin
      simp only [Option.some_or, Option.some.injEq]
      constructor
      · rintro rfl
        exact .inl ⟨rfl, fun _ => hlt⟩
      · rintro (⟨h, -⟩ | ⟨-, -, h⟩)
        · exact h
        · exact absurd (h b ((hmem b).2 (.inl hin)) hle) (Int.not_le.2 hlt)
    | none =>
      simp only [Option.none_or, Option.some_or, Option.some.injEq]
      constructor
      · rintro rfl
        refine .inr ⟨rfl, hmet, fun b hin hle => ?_⟩
        rcases (hmem b).1 hin with hin | hin
        · exact absurd hle (Int.not_le.2 (bandForAge?_eq_none_iff.1 hb b hin))
        · exact hless b hin
      · rintro (⟨h, hlt⟩ | ⟨h, -⟩)
        · exact absurd (hless band (bandForAge?_eq_some h).1) (Int.not_le.2 (hlt hmet))
        · exact h.symm
  · have hfirst : bandForAge? age [first] = none :=
      List.find?_cons_of_neg (by simpa using hmet)
    rw [hfirst, Option.or_none]
    exact ⟨fun h => .inl ⟨h, fun hle => absurd hle hmet⟩, fun h => h.elim And.left fun h =>
      absurd h.2.1 hmet⟩

end

/-- **The band for an age among the entries**: its threshold is the greatest that the age
    meets, and no earlier entry has the same one. -/
inductive Chosen (age : Int) (band : AgeBand) : List (List Char) → Prop
  | of {before e after} : BandText e band → band.threshold ≤ age →
      (∀ e ∈ before, ∀ b, BandText e b → b.threshold ≤ age → b.threshold < band.threshold) →
      (∀ e ∈ after, ∀ b, BandText e b → b.threshold ≤ age → b.threshold ≤ band.threshold) →
      Chosen age band (before ++ e :: after)

section
variable {age age' : Int} {band : AgeBand} {e : List Char} {entries : List (List Char)}

theorem not_chosen_nil : ¬ Chosen age band [] := by
  generalize hnil : ([] : List (List Char)) = entries
  rintro ⟨-, -, -, -⟩
  exact absurd hnil (by simp)

theorem chosen_cons_iff : Chosen age band (e :: entries) ↔
    (Chosen age band entries ∧
      ∀ b, BandText e b → b.threshold ≤ age → b.threshold < band.threshold) ∨
    (BandText e band ∧ band.threshold ≤ age ∧ ∀ e' ∈ entries, ∀ b, BandText e' b →
      b.threshold ≤ age → b.threshold ≤ band.threshold) := by
  constructor
  · generalize hcons : e :: entries = all
    rintro @⟨before, e', after, hband, hmet, hbefore, hafter⟩
    cases before with
    | nil =>
      obtain ⟨rfl, rfl⟩ := List.cons.inj hcons
      exact .inr ⟨hband, hmet, hafter⟩
    | cons d before =>
      obtain ⟨rfl, rfl⟩ := List.cons.inj hcons
      obtain ⟨hfirst, hbefore⟩ := List.forall_mem_cons.1 hbefore
      exact .inl ⟨.of hband hmet hbefore hafter, hfirst⟩
  · rintro (⟨@⟨before, e', after, hband, hmet, hbefore, hafter⟩, hfirst⟩ | ⟨hband, hmet, hafter⟩)
    · show Chosen age band ((e :: before) ++ e' :: after)
      exact .of hband hmet (List.forall_mem_cons.2 ⟨hfirst, hbefore⟩) hafter
    · show Chosen age band ([] ++ e :: entries)
      exact .of hband hmet (fun _ h => absurd h List.not_mem_nil) hafter

theorem mem_ofEntries_iff {b : AgeBand} : b ∈ ofEntries entries ↔ ∃ e ∈ entries, BandText e b := by
  simp only [ofEntries, List.mem_filterMap, parse?_eq_some_iff]

/-- **The first match of the sorted bands** is the one chosen among the entries. -/
theorem bandForAge?_descending_iff :
    bandForAge? age (descending (ofEntries entries)) = some band ↔ Chosen age band entries := by
  induction entries with
  | nil =>
    have hnone : bandForAge? age (descending (ofEntries [])) = none := by
      rw [ofEntries, List.filterMap_nil, descending, List.mergeSort_nil]
      rfl
    rw [hnone]
    exact iff_of_false (Option.some_ne_none band).symm not_chosen_nil
  | cons e entries ih =>
    rw [chosen_cons_iff, ← ih]
    rcases bandText_or_forall e with ⟨first, hfirst⟩ | hnone
    · have hunique : ∀ b, BandText e b ↔ b = first := by
        intro b
        rw [← parse?_eq_some_iff, parse?_eq_some_iff.2 hfirst, Option.some.injEq, eq_comm]
      rw [ofEntries_cons_of_bandText hfirst, bandForAge?_descending_cons_iff]
      simp only [hunique, forall_eq, mem_ofEntries_iff]
      refine or_congr_right (and_congr_right ?_)
      rintro rfl
      exact and_congr_right fun _ =>
        ⟨fun h e he b hb => h b ⟨e, he, hb⟩, fun h b ⟨e, he, hb⟩ => h e he b hb⟩
    · rw [ofEntries_cons_of_forall hnone]
      simp only [hnone, false_imp_iff, implies_true, and_true, false_and, or_false]

theorem bandForAge?_descending_eq_none_iff :
    bandForAge? age (descending (ofEntries entries)) = none ↔
      ∀ e ∈ entries, ∀ b, BandText e b → age < b.threshold := by
  simp only [bandForAge?_eq_none_iff, descending, List.mem_mergeSort, mem_ofEntries_iff]
  exact ⟨fun h e he b hb => h b ⟨e, he, hb⟩, fun h b ⟨e, he, hb⟩ => h e he b hb⟩

/-- A greater age has a band too, and its threshold is no smaller. -/
theorem bandForAge?_mono {bands : List AgeBand} (hle : age ≤ age')
    (h : bandForAge? age (descending bands) = some band) :
    ∃ band', bandForAge? age' (descending bands) = some band' ∧
      band.threshold ≤ band'.threshold := by
  obtain ⟨hmet, before, after, hsplit, hbefore⟩ := List.find?_eq_some_iff_append.1 h
  have hmet' : band.threshold ≤ age := of_decide_eq_true hmet
  have hsorted := List.pairwise_mergeSort descending_trans descending_total bands
  have hrest : bandForAge? age' (band :: after) = some band :=
    List.find?_cons_of_pos (decide_eq_true (Int.le_trans hmet' hle))
  rw [hsplit, bandForAge?_append, hrest]
  rw [← descending, hsplit] at hsorted
  cases hb : bandForAge? age' before with
  | none => exact ⟨band, rfl, Int.le_refl _⟩
  | some band' =>
    refine ⟨band', rfl, of_decide_eq_true ?_⟩
    exact (List.pairwise_append.1 hsorted).2.2 _ (bandForAge?_eq_some hb).1 _
      List.mem_cons_self

end

/-! ## The order of the entries -/

/-- **Bands in another order**: bands with distinct thresholds have moved past each other. -/
inductive Reordered : List AgeBand → List AgeBand → Prop
  | refl (bands) : Reordered bands bands
  | cons (b) {bands bands'} : Reordered bands bands' → Reordered (b :: bands) (b :: bands')
  | swap {a b : AgeBand} (bands) : a.threshold ≠ b.threshold →
      Reordered (a :: b :: bands) (b :: a :: bands)
  | trans {bands bands' bands''} : Reordered bands bands' → Reordered bands' bands'' →
      Reordered bands bands''

namespace Reordered

variable {age : Int} {bands bands' : List AgeBand}

theorem mem_iff (h : Reordered bands bands') (b : AgeBand) : b ∈ bands ↔ b ∈ bands' := by
  induction h with
  | refl _ => exact Iff.rfl
  | cons _ _ ih => rw [List.mem_cons, List.mem_cons, ih]
  | swap _ _ => rw [List.mem_cons, List.mem_cons, List.mem_cons, List.mem_cons, or_left_comm]
  | trans _ _ ih ih' => exact ih.trans ih'

/-- **The first match of the sorted bands** is the same in both orders. -/
theorem bandForAge?_eq (h : Reordered bands bands') :
    bandForAge? age (descending bands) = bandForAge? age (descending bands') := by
  induction h with
  | refl _ => rfl
  | cons b h ih =>
    refine Option.ext fun band => ?_
    rw [bandForAge?_descending_cons_iff, bandForAge?_descending_cons_iff, ih]
    simp only [h.mem_iff]
  | @swap a b bands hne =>
    refine Option.ext fun band => ?_
    simp only [bandForAge?_descending_cons_iff, List.forall_mem_cons]
    -- the two thresholds differ, so that "greater" and "no smaller" are the same for them
    have hab : a.threshold ≤ b.threshold ↔ a.threshold < b.threshold := by omega
    have hba : b.threshold ≤ a.threshold ↔ b.threshold < a.threshold := by omega
    rw [hab, hba]
    constructor
    · rintro (⟨⟨h, hb⟩ | ⟨rfl, hb, hall⟩, ha⟩ | ⟨rfl, ha, hb, hall⟩)
      · exact .inl ⟨.inl ⟨h, ha⟩, hb⟩
      · exact .inr ⟨rfl, hb, ha, hall⟩
      · exact .inl ⟨.inr ⟨rfl, ha, hall⟩, hb⟩
    · rintro (⟨⟨h, ha⟩ | ⟨rfl, ha, hall⟩, hb⟩ | ⟨rfl, hb, ha, hall⟩)
      · exact .inl ⟨.inl ⟨h, hb⟩, ha⟩
      · exact .inr ⟨rfl, ha, hb, hall⟩
      · exact .inl ⟨.inr ⟨rfl, hb, hall⟩, ha⟩
  | trans _ _ ih ih' => exact ih.trans ih'

end Reordered

/-! ## Lists of bands -/

/-- **The band that a text gives to an age** is the one with the greatest threshold that the
    age meets, the earliest written of equal ones; there is none exactly if the age meets no
    threshold. Entries that are no bands, and the order of distinct thresholds, are of no
    effect, and a greater age meets no smaller threshold. -/
theorem band_lists_give_the_greatest_threshold (text : String) :
    ∃ entries bands, (∀ es, Entries text es ↔ es = entries) ∧
      (∀ bs, Written entries bs ↔ bs = bands) ∧
      (∀ age band, bandForAge? age (parseList text) = some band ↔ Chosen age band entries) ∧
      (∀ age, bandForAge? age (parseList text) = none ↔
        ∀ e ∈ entries, ∀ b, BandText e b → age < b.threshold) ∧
      (∀ text' entries' bands', Entries text' entries' → Written entries' bands' →
        Reordered bands bands' → ∀ age,
          bandForAge? age (parseList text') = bandForAge? age (parseList text)) ∧
      (∀ age age' band, age ≤ age' → bandForAge? age (parseList text) = some band →
        ∃ band', bandForAge? age' (parseList text) = some band' ∧
          band.threshold ≤ band'.threshold) := by
  refine ⟨pieces ',' text.toList, ofEntries (pieces ',' text.toList), fun _ => entries_iff,
    fun _ => written_iff, fun _ _ => bandForAge?_descending_iff,
    fun _ => bandForAge?_descending_eq_none_iff, ?_, fun _ _ _ hle h => bandForAge?_mono hle h⟩
  intro text' entries' bands' hentries hwritten hmoved age
  obtain rfl := entries_iff.1 hentries
  obtain rfl := written_iff.1 hwritten
  rw [parseList_eq, parseList_eq, hmoved.bandForAge?_eq]

example : bandForAge? 100 (parseList "-5: blue,x,60: red ,60:green,120:grey,7:") =
    some ⟨60, "red"⟩ := by cbv

end AgeBand

end EventTable
