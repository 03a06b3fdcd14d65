/-
  EventTable — templates, read once from left to right.

  A template is a row of segments: texts that are kept, and placeholders.  How it is
  cut into them has nothing to do with the values that are filled in.

  * `Reading` says which segments a template has: the leftmost opening starts a
    placeholder whose name runs to the next closing brace, and one that no closing brace
    follows is kept with all that stands behind it;
  * `exists_reading` and `Reading.unique`: every template has one reading and no other;
  * `Reading.toList_expand`: the expansion fills the segments one by one, and
    `Reading.flatMap_written`: unfilled they are the template;
  * `placeholders_are_substituted_once` puts these together.
-/
import EventTable.Proofs.FilledTitles

namespace EventTable

namespace Text

/-! ## Segments -/

/-- A stretch of a template: a text that is kept, or the name of a placeholder. -/
inductive Segment where
  | kept (cs : List Char)
  | named (name : List Char)
  deriving DecidableEq

namespace Segment

/-- A segment as it stands in the template. -/
def written : Segment → List Char
  | kept cs => cs
  | named name => placeholder name

/-- A segment with its value, which stands in verbatim; a name without a value is left
    as written. -/
def filled (values : Values) : Segment → List Char
  | kept cs => cs
  | named name =>
    match values.lookup (String.ofList name) with
    | some value => value.toList
    | none => placeholder name

/-- Values that are placeholders of their own names fill nothing in. -/
theorem filled_eq_written {values : Values}
    (h : ∀ name value, values.lookup (String.ofList name) = some value →
      value = String.ofList (placeholder name)) (segment : Segment) :
    segment.filled values = segment.written := by
  cases segment with
  | kept cs => rfl
  | named name =>
    rw [filled, written]
    cases hv : values.lookup (String.ofList name) with
    | none => rfl
    | some value =>
      rw [h name value hv]
      exact String.toList_ofList

end Segment

/-- **How a template is read**, from its leftmost opening on. -/
inductive Reading : List Char → List Segment → Prop
  | plain {cs} : Plain cs → Reading cs [.kept cs]
  | unclosed {before r} : Plain before → '\x7d' ∉ r →
      Reading (before ++ (placeholderOpen ++ r)) [.kept (before ++ (placeholderOpen ++ r))]
  | placeholder {before name rest segments} : Plain before → '\x7d' ∉ name →
      Reading rest segments →
      Reading (before ++ (placeholder name ++ rest)) (.kept before :: .named name :: segments)

/-! ## The leftmost opening -/

/-- A text that is not plain has a leftmost opening. -/
theorem exists_leftmost {cs : List Char} (h : ¬ Plain cs) :
    ∃ before r, cs = before ++ (placeholderOpen ++ r) ∧ Plain before := by
  have hi : placeholderOpen <:+: cs := not_not.1 h
  induction cs with
  | nil => exact absurd (List.infix_nil.1 hi) (by decide)
  | cons c cs ih =>
    by_cases hc : placeholderOpen <+: c :: cs
    · obtain ⟨r, hr⟩ := hc
      exact ⟨[], r, hr.symm, plain_of_not_mem List.not_mem_nil⟩
    · have hi' : placeholderOpen <:+: cs := (List.infix_cons_iff.1 hi).resolve_left hc
      obtain ⟨before, r, rfl, hb⟩ := ih (not_not.2 hi') hi'
      refine ⟨c :: before, r, rfl, fun hb' => ?_⟩
      rcases List.infix_cons_iff.1 hb' with hp | hp
      · exact hc (hp.trans (List.prefix_append (c :: before) _))
      · exact hb hp

/-- An opening is no part of a plain text in front of it: its two characters differ. -/
theorem eq_nil_of_opening {b r s : List Char} (hb : Plain b)
    (h : placeholderOpen ++ r = b ++ (placeholderOpen ++ s)) : b = [] := by
  cases b with
  | nil => rfl
  | cons c b =>
    obtain ⟨rfl, htail⟩ := List.cons.inj h
    cases b with
    | nil => exact absurd (List.cons.inj htail).1 (by decide)
    | cons d b =>
      obtain ⟨rfl, -⟩ := List.cons.inj htail
      exact absurd (List.prefix_append placeholderOpen b).isInfix hb

/-- There is one leftmost opening only. -/
theorem leftmost_unique {a b r s : List Char} (ha : Plain a) (hb : Plain b)
    (h : a ++ (placeholderOpen ++ r) = b ++ (placeholderOpen ++ s)) : a = b ∧ r = s := by
  induction a generalizing b with
  | nil =>
    obtain rfl := eq_nil_of_opening hb h
    exact ⟨rfl, List.append_cancel_left h⟩
  | cons c a ih =>
    cases b with
    | nil => exact absurd (eq_nil_of_opening ha h.symm) (List.cons_ne_nil c a)
    | cons d b =>
      obtain ⟨rfl, hrest⟩ := List.cons.inj h
      have htail : ∀ {cs : List Char}, Plain (c :: cs) → Plain cs :=
        fun hp => hp.of_infix (List.suffix_cons ..).isInfix
      obtain ⟨rfl, rfl⟩ := ih (htail ha) (htail hb) hrest
      exact ⟨rfl, rfl⟩

theorem not_plain_of_opening (before r : List Char) :
    ¬ Plain (before ++ (placeholderOpen ++ r)) :=
  fun h => h ⟨before, r, by rw [List.append_assoc]⟩

theorem placeholder_append (name rest : List Char) :
    placeholder name ++ rest = placeholderOpen ++ (name ++ '\x7d' :: rest) := by
  simp [placeholder]

/-! ## Readings -/

/-- Every template has a reading. -/
theorem exists_reading (cs : List Char) : ∃ segments, Reading cs segments := by
  induction hn : cs.length using Nat.strongRecOn generalizing cs with
  | _ n ih =>
    by_cases hp : Plain cs
    · exact ⟨_, .plain hp⟩
    · obtain ⟨before, r, rfl, hb⟩ := exists_leftmost hp
      cases hcut : cut? '\x7d' r with
      | none => exact ⟨_, .unclosed hb (cut?_eq_none_iff.1 hcut)⟩
      | some parts =>
        obtain ⟨name, rest⟩ := parts
        obtain ⟨rfl, hname⟩ := cut?_eq_some_iff.1 hcut
        have hlt : rest.length < n := by
          simp only [← hn, List.length_append, List.length_cons]
          omega
        obtain ⟨segments, hrest⟩ := ih rest.length hlt rest rfl
        rw [← placeholder_append]
        exact ⟨_, .placeholder hb hname hrest⟩

/-- **A template has one reading only.** -/
theorem Reading.unique {cs : List Char} {segments segments' : List Segment}
    (h : Reading cs segments) (h' : Reading cs segments') : segments = segments' := by
  induction h generalizing segments' with
  | plain hp =>
    cases h' with
    | plain => rfl
    | unclosed => exact absurd hp (not_plain_of_opening _ _)
    | placeholder =>
      rw [placeholder_append] at hp
      exact absurd hp (not_plain_of_opening _ _)
  | @unclosed before r hb hr =>
    generalize hcs : before ++ (placeholderOpen ++ r) = cs at h'
    cases h' with
    | plain => rfl
    | unclosed => rfl
    | placeholder hb' =>
      rw [placeholder_append] at hcs
      obtain ⟨-, rfl⟩ := leftmost_unique hb hb' hcs
      exact absurd (List.mem_append_right _ List.mem_cons_self) hr
  | @placeholder before name rest segments hb hname _ ih =>
    rw [placeholder_append] at h'
    generalize hcs : before ++ (placeholderOpen ++ (name ++ '\x7d' :: rest)) = cs at h'
    cases h' with
    | plain hp =>
      rw [← hcs] at hp
      exact absurd hp (not_plain_of_opening _ _)
    | unclosed hb' hr =>
      obtain ⟨-, rfl⟩ := leftmost_unique hb hb' hcs
      exact absurd (List.mem_append_right _ List.mem_cons_self) hr
    | placeholder hb' hname' hrest =>
      rw [placeholder_append] at hcs
      obtain ⟨rfl, hr⟩ := leftmost_unique hb hb' hcs
      -- both names end at the first closing brace
      have hcut := cut?_eq_some_iff.2 ⟨hr, hname'⟩
      rw [cut?_eq_some_iff.2 ⟨rfl, hname⟩] at hcut
      obtain ⟨rfl, rfl⟩ := Prod.mk.inj (Option.some.inj hcut)
      rw [ih hrest]

/-- The segments of a template, as they are written, are the template. -/
theorem Reading.flatMap_written {cs : List Char} {segments : List Segment}
    (h : Reading cs segments) : segments.flatMap Segment.written = cs := by
  induction h with
  | plain => simp [Segment.written]
  | unclosed => simp [Segment.written]
  | placeholder _ _ _ ih => simp [Segment.written, ih]

/-! ## Expansions -/

variable {lookup : List Char → Option (List Char)}

/-- What stands in front of the leftmost opening is kept. -/
theorem expandChars_plain_append {before : List Char} (hb : Plain before) (r : List Char) :
    expandChars lookup (before ++ (placeholderOpen ++ r)) =
      before ++ expandChars lookup (placeholderOpen ++ r) := by
  induction before with
  | nil => rfl
  | cons c before ih =>
    have hc : ∀ s, c :: (before ++ (placeholderOpen ++ r)) ≠ placeholderOpen ++ s := by
      intro s hs
      have hs' : placeholderOpen ++ s = (c :: before) ++ (placeholderOpen ++ r) := hs.symm
      exact absurd (eq_nil_of_opening hb hs') (List.cons_ne_nil c before)
    rw [List.cons_append, List.cons_append, expandChars_cons hc,
      ih (hb.of_infix (List.suffix_cons ..).isInfix)]

/-- **The expansion of a template** fills its segments one by one. -/
theorem Reading.toList_expand {cs : List Char} {segments : List Segment} (h : Reading cs segments)
    (values : Values) : (expand values (String.ofList cs)).toList =
      segments.flatMap (Segment.filled values) := by
  rw [expand, String.toList_ofList, String.toList_ofList]
  induction h with
  | plain hp => simp [Segment.filled, hp.expandChars_eq]
  | unclosed hb hr =>
    rw [expandChars_plain_append hb, expandChars_unclosed hr]
    simp [Segment.filled]
  | @placeholder before name rest segments hb hname _ ih =>
    rw [placeholder_append, expandChars_plain_append hb, ← placeholder_append,
      expandChars_placeholder_append hname, ih, List.flatMap_cons, List.flatMap_cons]
    congr 2
    rw [Segment.filled]
    cases values.lookup (String.ofList name) with
    | none => rfl
    | some value => rfl

end Text

open Text

/-- **Placeholders are substituted once**, from left to right.  A template has exactly
    one reading, whatever values are filled in; the segments lose and repeat nothing of
    it, and its expansion consists of them, one by one, with the values in the places of
    the names.  So values that are placeholders of their own names, and an empty list of
    values, give the template back; and a title is expanded in the same way if its
    expansion is skipped for want of an opening. -/
theorem placeholders_are_substituted_once (template : String) :
    (∃ segments, (∀ segments', Reading template.toList segments' ↔ segments' = segments) ∧
      segments.flatMap Segment.written = template.toList ∧
      ∀ values, (expand values template).toList = segments.flatMap (Segment.filled values)) ∧
    (∀ values : Values, (∀ name value, values.lookup (String.ofList name) = some value →
        value = String.ofList (placeholder name)) → expand values template = template) ∧
    expand [] template = template ∧
    ∀ ctx : Context, ctx.expandTitle template = expand ctx.titleValues template := by
  obtain ⟨segments, hread⟩ := exists_reading template.toList
  have hfilled : ∀ values, (expand values template).toList =
      segments.flatMap (Segment.filled values) := by
    intro values
    rw [← hread.toList_expand values, String.ofList_toList]
  have hown : ∀ values : Values, (∀ name value, values.lookup (String.ofList name) = some value →
      value = String.ofList (placeholder name)) → expand values template = template := by
    intro values hvalues
    rw [← String.toList_inj, hfilled, ← hread.flatMap_written]
    exact congrArg segments.flatMap (funext (Segment.filled_eq_written hvalues))
  have hunique : ∀ segments', Reading template.toList segments' ↔ segments' = segments :=
    fun _ => ⟨fun h => h.unique hread, fun h => h ▸ hread⟩
  refine ⟨⟨segments, hunique, hread.flatMap_written, hfilled⟩, hown, ?_,
    fun ctx => ctx.expandTitle_eq template⟩
  refine hown [] fun name value hv => ?_
  exact absurd hv (by simp)

/-- Values with placeholders of their own, an unknown name, an empty one, a nested
    opening and one without an end. -/
theorem values_are_not_read_again :
    let values := [("a", "$\x7bb\x7d"), ("b", "B"), ("", "none")]
    let own := [("a", "$\x7ba\x7d")]
    let template := "$\x7ba\x7d$\x7bb\x7d$\x7b\x7d $\x7bc $\x7ba\x7d $\x7bb"
    expand values template = "$\x7bb\x7dBnone $\x7bc $\x7ba\x7d $\x7bb" ∧
      expand own template = template ∧ expand [] template = template := by
  intro values own template
  obtain ⟨-, hown, hnone, -⟩ := placeholders_are_substituted_once template
  refine ⟨by decide +kernel, hown own fun name value hv => ?_, hnone⟩
  by_cases hname : String.ofList name = "a"
  · have hvalue : own.lookup "a" = some value := hname ▸ hv
    obtain rfl : name = "a".toList := by rw [← hname, String.toList_ofList]
    exact (Option.some.inj hvalue).symm
  · have hnone : own.lookup (String.ofList name) = none := by simp [own, hname]
    exact absurd (hnone.symm.trans hv) (Option.some_ne_none value).symm

end EventTable
