/-
  EventTable — cells made step by step.

  * `Step` is a step in the making of a cell, and `after` the cell after some steps,
    starting from a blank one;
  * `Step.sets?` says what a step sets a field to; a step sets one field, its own
    (`Step.field?`), but for a band, which only colours a cell that has no colour yet;
  * `get_apply`: that is what a step does, so that steps with different fields commute
    (`apply_comm`), and `get_after`: a field holds what it was set to last;
  * `Tidy` says that no annotation is a blank text; every step keeps it (`Tidy.apply`),
    and so it holds after any steps (`tidy_after`);
  * `steps_set_their_own_fields` puts these together.
-/
import EventTable.Cell
import Mathlib.Data.List.Induction

namespace EventTable.Cell

open Text

/-! ## Fields and steps -/

/-- The fields of a cell. -/
inductive Field where
  | text | filler | sortKey | foreground | background | link | image
  deriving DecidableEq, Repr

/-- What a field holds. -/
abbrev Field.Value : Field → Type
  | .sortKey => Option Float
  | .link => Option Link
  | .text | .filler | .foreground | .background | .image => Option String

/-- What a field of a cell holds. -/
def get (c : Cell) : (f : Field) → f.Value
  | .text => c.text
  | .filler => c.filler
  | .sortKey => c.sortKey
  | .foreground => c.foreground
  | .background => c.background
  | .link => c.link
  | .image => c.image

theorem eq_of_get {c c' : Cell} (h : ∀ f, c.get f = c'.get f) : c = c' := by
  obtain ⟨⟩ := c
  obtain ⟨⟩ := c'
  congr 1
  · exact h .text
  · exact h .filler
  · exact h .sortKey
  · exact h .foreground
  · exact h .background
  · exact h .link
  · exact h .image

/-- A step in the making of a cell. -/
inductive Step where
  | text (text : String)
  | filler (filler : String)
  | sortKey (key : Float)
  | foreground (color : String)
  | background (color : String)
  | link (url : String) (target : Option String)
  | image (url : String)
  | ageBand (band : Option AgeBand)
  deriving Repr

namespace Step

/-- The cell after a step. -/
def apply (c : Cell) : Step → Cell
  | text t => c.withText t
  | filler t => c.withFiller t
  | sortKey key => c.withSortKey key
  | foreground color => c.withForeground color
  | background color => c.withBackground color
  | link url target => c.withLink url target
  | image url => c.withImage url
  | ageBand band => c.withAgeBand band

/-- The field of a step; a band has none of its own. -/
def field? : Step → Option Field
  | text _ => some .text
  | filler _ => some .filler
  | sortKey _ => some .sortKey
  | foreground _ => some .foreground
  | background _ => some .background
  | link _ _ => some .link
  | image _ => some .image
  | ageBand _ => none

/-- **What a step sets a field to.**  Blank colours, links and images count as none. -/
def sets? : Step → (f : Field) → Option f.Value
  | text t, .text => some (some t)
  | filler t, .filler => some (some t)
  | sortKey key, .sortKey => some (some key)
  | foreground color, .foreground => some (if Text.isBlank color then none else some color)
  | background color, .background => some (if Text.isBlank color then none else some color)
  | link url target, .link =>
    some (if Text.isBlank url then none else some ⟨url, target.filter (!Text.isBlank ·)⟩)
  | image url, .image => some (if Text.isBlank url then none else some url)
  | _, _ => none

end Step

/-- The cell after some steps. -/
def after (steps : List Step) : Cell := steps.foldl Step.apply blank

theorem after_concat (steps : List Step) (s : Step) :
    after (steps ++ [s]) = s.apply (after steps) := by
  rw [after, List.foldl_append]
  rfl

/-! ## What a step does -/

section
variable {s t : Step} {f g : Field} {c : Cell}

theorem bind_nonBlank?_eq (o : Option String) : o.bind nonBlank? = o.filter (!Text.isBlank ·) := by
  cases o with
  | none => rfl
  | some t =>
    rw [Option.bind_some, nonBlank?, Option.filter_some]
    cases Text.isBlank t <;> rfl

/-- A step sets its own field and no other. -/
theorem get_apply (h : s.field? = some f) (c : Cell) (g : Field) :
    (s.apply c).get g = (s.sets? g).getD (c.get g) := by
  cases s with
  | ageBand band => cases h
  | link url target =>
    cases g with
    | link =>
      show (nonBlank? url).map _ = _
      rw [nonBlank?, bind_nonBlank?_eq]
      cases hb : Text.isBlank url <;> simp [Step.sets?, hb]
    | _ => rfl
  | _ => cases g <;> rfl

theorem sets?_eq_none (h : s.field? = some f) (hg : g ≠ f) : s.sets? g = none := by
  cases s with
  | ageBand band => cases h
  | _ => cases h; cases g <;> first | rfl | exact absurd rfl hg

theorem exists_sets?_eq_some (h : s.field? = some f) : ∃ v, s.sets? f = some v := by
  cases s with
  | ageBand band => cases h
  | _ => cases h; exact ⟨_, rfl⟩

/-- A band does nothing to a cell that has a colour. -/
theorem withAgeBand_of_ne_none (h : c.foreground ≠ none) (band : Option AgeBand) :
    c.withAgeBand band = c := by
  cases band with
  | none => rfl
  | some b => rw [withAgeBand, if_neg fun hnone => h (Option.isNone_iff_eq_none.1 hnone)]

/-- A band gives its colour, and nothing else, to a cell without one. -/
theorem withAgeBand_of_eq_none (h : c.foreground = none) (band : Option AgeBand) :
    c.withAgeBand band =
      { c with foreground := (band.map AgeBand.color).filter (!Text.isBlank ·) } := by
  cases band with
  | none => exact congrArg (fun color => { c with foreground := color }) h
  | some b =>
    rw [withAgeBand, if_pos (Option.isNone_iff_eq_none.2 h), ← bind_nonBlank?_eq]
    rfl

theorem get_withAgeBand (hf : f ≠ .foreground) (c : Cell) (band : Option AgeBand) :
    (c.withAgeBand band).get f = c.get f := by
  by_cases h : c.foreground = none
  · rw [withAgeBand_of_eq_none h]
    cases f <;> first | rfl | exact absurd rfl hf
  · rw [withAgeBand_of_ne_none h]

/-- Steps with different fields commute. -/
theorem apply_comm (hs : s.field? = some f) (ht : t.field? = some g) (h : f ≠ g) (c : Cell) :
    t.apply (s.apply c) = s.apply (t.apply c) := by
  refine eq_of_get fun k => ?_
  rw [get_apply ht, get_apply hs, get_apply hs, get_apply ht]
  by_cases hk : k = f
  · rw [sets?_eq_none ht (hk ▸ h)]
    rfl
  · rw [sets?_eq_none hs hk]
    rfl

end

/-! ## What steps leave in a cell -/

/-- What the last of the steps that set a field has set it to; without one, what a blank
    cell holds. -/
def lastSet (f : Field) (steps : List Step) : f.Value :=
  (steps.filterMap (·.sets? f)).getLast?.getD (blank.get f)

theorem lastSet_concat (f : Field) (steps : List Step) (s : Step) :
    lastSet f (steps ++ [s]) = (s.sets? f).getD (lastSet f steps) := by
  rw [lastSet, List.filterMap_append]
  cases hs : s.sets? f with
  | none => simp [hs, lastSet]
  | some v => simp [hs]

/-- A field that no band changes holds what it was set to last. -/
theorem get_after {f : Field} (hf : f ≠ .foreground) (steps : List Step) :
    (after steps).get f = lastSet f steps := by
  induction steps using List.reverseRecOn with
  | nil => rfl
  | append_singleton steps s ih =>
    rw [after_concat, lastSet_concat, ← ih]
    cases hs : s.field? with
    | some g => exact get_apply hs _ f
    | none =>
      cases s with
      | ageBand band =>
        cases f with
        | foreground => exact absurd rfl hf
        | _ => exact get_withAgeBand hf _ band
      | _ => cases hs

theorem value_after (steps : List Step) : (after steps).value =
    ((lastSet .text steps).filter (!Text.isBlank ·)).getD
      ((lastSet .filler steps).getD defaultFiller) := by
  have htext : (after steps).text = lastSet .text steps :=
    get_after (f := .text) nofun steps
  have hfiller : (after steps).filler = lastSet .filler steps :=
    get_after (f := .filler) nofun steps
  rw [value, bind_nonBlank?_eq, htext, hfiller]

/-- **No annotation is a blank text.** -/
structure Tidy (c : Cell) : Prop where
  foreground : ∀ color ∈ c.foreground, Text.isBlank color = false
  background : ∀ color ∈ c.background, Text.isBlank color = false
  image : ∀ url ∈ c.image, Text.isBlank url = false
  url : ∀ l ∈ c.link, Text.isBlank l.url = false
  target : ∀ l ∈ c.link, ∀ t ∈ l.target, Text.isBlank t = false

theorem tidy_blank : blank.Tidy := ⟨nofun, nofun, nofun, nofun, nofun⟩

theorem isBlank_of_nonBlank? {s t : String} (h : nonBlank? s = some t) :
    Text.isBlank t = false := by
  obtain ⟨hb, rfl⟩ := nonBlank?_eq_some_iff.1 h
  exact hb

theorem Tidy.withForeground {c : Cell} (h : c.Tidy) (color : String) :
    (c.withForeground color).Tidy :=
  { h with foreground := fun _ hc => isBlank_of_nonBlank? hc }

/-- Every step keeps a cell tidy. -/
theorem Tidy.apply {c : Cell} (h : c.Tidy) (s : Step) : (s.apply c).Tidy := by
  cases s with
  | text | filler | sortKey => exact { h with }
  | foreground color => exact h.withForeground color
  | background => exact { h with background := fun _ hc => isBlank_of_nonBlank? hc }
  | image => exact { h with image := fun _ hc => isBlank_of_nonBlank? hc }
  | link url target =>
    refine { h with url := fun l hl => ?_, target := fun l hl t ht => ?_ }
    all_goals obtain ⟨url', hurl, rfl⟩ := Option.map_eq_some_iff.1 hl
    · exact isBlank_of_nonBlank? hurl
    · obtain ⟨t', -, ht'⟩ := Option.bind_eq_some_iff.1 ht
      exact isBlank_of_nonBlank? ht'
  | ageBand band =>
    cases band with
    | none => exact h
    | some b =>
      show (if _ then _ else c : Cell).Tidy
      split
      · exact h.withForeground b.color
      · exact h

theorem tidy_after (steps : List Step) : (after steps).Tidy := by
  induction steps using List.reverseRecOn with
  | nil => exact tidy_blank
  | append_singleton steps s ih =>
    rw [after_concat]
    exact ih.apply s

/-- **Steps set their own fields.**  After any steps no annotation is a blank text.  A band
    leaves a cell with a colour as it is, and gives its colour, and nothing else, to one
    without; each other step sets one field, whatever was there, and steps with different
    fields commute; blank colours, links and images clear theirs.  The text shown is the
    last one given if that is not blank, and else the last filler, or the default one. -/
theorem steps_set_their_own_fields :
    (∀ steps, (after steps).Tidy) ∧
    (∀ (c : Cell) band, (c.foreground ≠ none → c.withAgeBand band = c) ∧
      (c.foreground = none → c.withAgeBand band =
        { c with foreground := (band.map AgeBand.color).filter (!Text.isBlank ·) })) ∧
    (∀ s : Step, (∃ band, s = .ageBand band) ∨ ∃ f v, s.field? = some f ∧ s.sets? f = some v ∧
      ∀ c : Cell, (s.apply c).get f = v ∧ ∀ g, g ≠ f → (s.apply c).get g = c.get g) ∧
    (∀ (s t : Step) f g, s.field? = some f → t.field? = some g → f ≠ g →
      ∀ c : Cell, t.apply (s.apply c) = s.apply (t.apply c)) ∧
    (∀ (c : Cell) t, Text.isBlank t = true → (c.withForeground t).foreground = none ∧
      (c.withBackground t).background = none ∧ (∀ target, (c.withLink t target).link = none) ∧
      (c.withImage t).image = none) ∧
    ∀ steps,
      (∀ t, lastSet .text steps = some t → Text.isBlank t = false → (after steps).value = t) ∧
      ((∀ t, lastSet .text steps = some t → Text.isBlank t = true) →
        (after steps).value = (lastSet .filler steps).getD defaultFiller) := by
  refine ⟨tidy_after, fun c band => ⟨fun h => withAgeBand_of_ne_none h band,
    fun h => withAgeBand_of_eq_none h band⟩, fun s => ?own, fun s t f g => apply_comm,
    fun c t ht => ?clear, fun steps => ?shown⟩
  case own =>
    cases hs : s.field? with
    | none =>
      cases s with
      | ageBand band => exact .inl ⟨band, rfl⟩
      | _ => cases hs
    | some f =>
      obtain ⟨v, hv⟩ := exists_sets?_eq_some hs
      refine .inr ⟨f, v, rfl, hv, fun c => ⟨?_, fun g hg => ?_⟩⟩
      · rw [get_apply hs, hv, Option.getD_some]
      · rw [get_apply hs, sets?_eq_none hs hg, Option.getD_none]
  case clear =>
    have hnone : nonBlank? t = none := nonBlank?_eq_none_iff.2 ht
    exact ⟨hnone, hnone, fun target => Option.map_eq_none_iff.2 hnone, hnone⟩
  case shown =>
    rw [value_after]
    refine ⟨fun t h ht => ?_, fun h => ?_⟩
    · rw [h, Option.filter_some, ht]
      rfl
    · have hnone : (lastSet .text steps).filter (!Text.isBlank ·) = none :=
        Option.filter_eq_none_iff.2 fun t ht => by simp [h t ht]
      rw [hnone, Option.getD_none]

/-- A blank colour makes room for the first of two bands, and a blank text for the
    filler. -/
theorem a_band_colors_what_was_cleared :
    let steps : List Step := [.text "12", .foreground "green", .foreground " ",
      .ageBand (some ⟨60, "#BB0000"⟩), .ageBand (some ⟨0, "#00AA00"⟩),
      .link "https://example.com" (some ""), .text "\u3000", .filler "n/a"]
    let cell := after steps
    let band : AgeBand := ⟨0, "white"⟩
    cell.foreground = some "#BB0000" ∧ cell.link = some ⟨"https://example.com", none⟩ ∧
      cell.Tidy ∧ cell.withAgeBand (some band) = cell ∧
      (blank.withAgeBand (some band)).foreground = some "white" ∧
      (Step.image "pin.png").apply ((Step.background "white").apply cell) =
        (Step.background "white").apply ((Step.image "pin.png").apply cell) ∧
      (cell.withForeground "\t").foreground = none ∧
      cell.value = "n/a" ∧ (after (.text "x" :: steps.take 2)).value = "12" := by
  intro steps cell band
  obtain ⟨htidy, hband, -, hcomm, hclear, hvalue⟩ := steps_set_their_own_fields
  have hforeground : cell.foreground = some "#BB0000" := by decide
  refine ⟨hforeground, by decide, htidy steps, (hband cell (some band)).1 ?_, ?_, ?_, ?_, ?_, ?_⟩
  · rw [hforeground]
    nofun
  · rw [(hband blank (some band)).2 rfl]
    decide
  · exact hcomm (.background "white") (.image "pin.png") .background .image rfl rfl nofun cell
  · exact (hclear cell "\t" (by decide)).1
  · refine (hvalue steps).2 fun t ht => ?_
    obtain rfl : "\u3000" = t := Option.some.inj ht
    decide
  · exact (hvalue (.text "x" :: steps.take 2)).1 "12" rfl (by decide)

end EventTable.Cell
