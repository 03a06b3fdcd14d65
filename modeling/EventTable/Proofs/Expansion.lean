/-
  EventTable — what an expanded text hangs on.

  * `expandChars_placeholder_append`, `expandChars_unclosed` and `expandChars_cons`
    are the ways in which an expansion goes on, and `Template` is every text read
    in these ways;
  * `infix_append_cons_iff`: a word does not reach over the end of a line that it
    does not hold;
  * `expandChars_congr`: only the values of the placeholders that a text holds
    matter;
  * `Closed` holds of a text that leaves no placeholder open, and
    `expandChars_append_line`: what follows it on a line of its own is expanded by
    itself.
-/
import EventTable.Text.Placeholder
import Mathlib.Data.List.Infix

namespace EventTable.Text

/-- A word without `c` does not reach over a `c`. -/
theorem infix_append_cons_iff {p a b : List Char} {c : Char} (hc : c ∉ p) (hp : p ≠ []) :
    p <:+: a ++ c :: b ↔ p <:+: a ∨ p <:+: b := by
  rw [List.infix_append_iff, List.infix_cons_iff]
  have hstart : ∀ q, q <+: c :: b → c ∉ q → q = [] := by
    intro q hq hn
    rcases List.prefix_cons_iff.1 hq with rfl | ⟨q', rfl, -⟩
    · rfl
    · exact absurd List.mem_cons_self hn
  constructor
  · rintro (h | (h | h) | ⟨p₁, p₂, rfl, ha, h⟩)
    · exact .inl h
    · exact absurd (hstart p h hc) hp
    · exact .inr h
    · rw [hstart p₂ h fun hm => hc (List.mem_append_right p₁ hm), List.append_nil]
      exact .inl ha.isInfix
  · rintro (h | h)
    · exact .inl h
    · exact .inr (.inl (.inr h))

theorem dollar_mem_placeholder (name : List Char) : '$' ∈ placeholder name := List.mem_cons_self

/-- A placeholder stands in no other one. -/
theorem eq_of_infix_placeholder {a b : List Char} (ha : '\x7d' ∉ a) (hb : '\x7d' ∉ b)
    (hd : '$' ∉ b) (h : placeholder a <:+: placeholder b) : a = b := by
  have htail : ¬ placeholder a <:+: '\x7b' :: (b ++ ['\x7d']) := by
    intro hi
    have hm := hi.subset (dollar_mem_placeholder a)
    simp [hd] at hm
  rcases List.infix_cons_iff.1 h with ⟨t, ht⟩ | h
  · have ht : a ++ '\x7d' :: t = b ++ ['\x7d'] := by
      simpa [placeholder, placeholderOpen] using ht
    have hcut := cut?_eq_some_iff.2 ⟨ht, hb⟩
    have hcut' : cut? '\x7d' (a ++ '\x7d' :: t) = some (a, t) := cut?_eq_some_iff.2 ⟨rfl, ha⟩
    exact (Prod.mk.inj (Option.some.inj (hcut'.symm.trans hcut))).1
  · exact absurd h htail

/-! ## How an expansion goes on -/

variable {lookup lookup' : List Char → Option (List Char)}

theorem expandChars_nil : expandChars lookup [] = [] := by rw [expandChars]

/-- A character that opens no placeholder is kept. -/
theorem expandChars_cons {c : Char} {cs : List Char}
    (h : ∀ r, c :: cs ≠ placeholderOpen ++ r) :
    expandChars lookup (c :: cs) = c :: expandChars lookup cs := by
  cases cs with
  | nil => rw [expandChars, expandChars]
  | cons d r =>
    have hcd : ¬(c = '$' ∧ d = '\x7b') := by
      rintro ⟨rfl, rfl⟩
      exact h r rfl
    rw [expandChars, if_neg hcd]

/-- A placeholder is replaced. -/
theorem expandChars_placeholder_append {name : List Char} (h : '\x7d' ∉ name)
    (rest : List Char) : expandChars lookup (placeholder name ++ rest) =
      (lookup name).getD (placeholder name) ++ expandChars lookup rest := by
  have hcut : cut? '\x7d' (name ++ '\x7d' :: rest) = some (name, rest) :=
    cut?_eq_some_iff.2 ⟨rfl, h⟩
  have htext : placeholder name ++ rest = '$' :: '\x7b' :: (name ++ '\x7d' :: rest) := by
    simp [placeholder, placeholderOpen]
  rw [htext, expandChars, if_pos ⟨rfl, rfl⟩]
  split
  · rename_i hcut'
    obtain ⟨rfl, rfl⟩ := Prod.mk.inj (Option.some.inj (hcut.symm.trans hcut'))
    rfl
  · rename_i hcut'
    exact absurd (hcut.symm.trans hcut') (Option.some_ne_none _)

/-- An opening without a closing brace is kept, with all that follows. -/
theorem expandChars_unclosed {r : List Char} (h : '\x7d' ∉ r) :
    expandChars lookup (placeholderOpen ++ r) = placeholderOpen ++ r := by
  have hcut := cut?_eq_none_iff.2 h
  rw [placeholderOpen, List.cons_append, List.cons_append, List.nil_append, expandChars,
    if_pos ⟨rfl, rfl⟩]
  split
  · rename_i hcut'
    exact absurd (hcut'.symm.trans hcut) (Option.some_ne_none _)
  · rfl

/-- A text without a dollar sign is its own expansion. -/
theorem expandChars_of_not_mem {cs : List Char} (h : '$' ∉ cs) : expandChars lookup cs = cs := by
  induction cs with
  | nil => exact expandChars_nil
  | cons c cs ih =>
    rw [List.mem_cons, not_or] at h
    rw [expandChars_cons fun r hr => h.1 (List.cons.inj hr).1.symm, ih h.2]

/-- **How a text is read**: character by character, a placeholder at once, and all
    of the rest from an opening without a closing brace. -/
inductive Template : List Char → Prop
  | nil : Template []
  | placeholder {name rest} : '\x7d' ∉ name → Template rest →
      Template (Text.placeholder name ++ rest)
  | unclosed {r} : '\x7d' ∉ r → Template (placeholderOpen ++ r)
  | cons {c cs} : (∀ r, c :: cs ≠ placeholderOpen ++ r) → Template cs → Template (c :: cs)

theorem template (cs : List Char) : Template cs := by
  fun_induction expandChars (fun _ => none) cs with
  | case1 => exact .nil
  | case2 c => exact .cons (by simp [placeholderOpen]) .nil
  | case3 c d r hcd name rest hcut _ ih =>
    obtain ⟨rfl, rfl⟩ := hcd
    obtain ⟨rfl, hn⟩ := cut?_eq_some_iff.1 hcut
    have htext : '$' :: '\x7b' :: (name ++ '\x7d' :: rest) = placeholder name ++ rest := by
      simp [placeholder, placeholderOpen]
    rw [htext]
    exact .placeholder hn ih
  | case4 c d r hcd hcut =>
    obtain ⟨rfl, rfl⟩ := hcd
    exact .unclosed (cut?_eq_none_iff.1 hcut)
  | case5 c d r hcd ih =>
    refine .cons (fun r' h => hcd ?_) ih
    simp only [placeholderOpen, List.cons_append, List.cons.injEq] at h
    exact ⟨h.1, h.2.1⟩

/-! ## Two expansions, and two texts -/

/-- Only the values of the placeholders in a text matter. -/
theorem expandChars_congr {cs : List Char}
    (h : ∀ name, placeholder name <:+: cs → lookup name = lookup' name) :
    expandChars lookup cs = expandChars lookup' cs := by
  induction template cs with
  | nil => rw [expandChars_nil, expandChars_nil]
  | @placeholder name rest hn _ ih =>
    rw [expandChars_placeholder_append hn, expandChars_placeholder_append hn,
      h name (List.prefix_append ..).isInfix,
      ih fun name' h' => h name' (h'.trans (List.suffix_append ..).isInfix)]
  | unclosed hr => rw [expandChars_unclosed hr, expandChars_unclosed hr]
  | @cons c cs hc _ ih =>
    rw [expandChars_cons hc, expandChars_cons hc,
      ih fun name h' => h name (h'.trans (List.suffix_cons ..).isInfix)]

/-- A text with a closing brace behind every opening. -/
def Closed (cs : List Char) : Prop := ∀ a b, cs = a ++ placeholderOpen ++ b → '\x7d' ∈ b

theorem Closed.of_append {a b : List Char} (h : Closed (a ++ b)) : Closed b := by
  rintro c d rfl
  exact h (a ++ c) d (by simp)

/-- What follows a closed text on a line of its own is expanded by itself. -/
theorem expandChars_append_line {cs : List Char} (h : Closed cs) (line : List Char) :
    expandChars lookup (cs ++ '\n' :: line) =
      expandChars lookup cs ++ '\n' :: expandChars lookup line := by
  have hline : ∀ r, '\n' :: line ≠ placeholderOpen ++ r := by simp [placeholderOpen]
  induction template cs with
  | nil => rw [List.nil_append, expandChars_nil, expandChars_cons hline, List.nil_append]
  | placeholder hn _ ih =>
    rw [List.append_assoc, expandChars_placeholder_append hn, expandChars_placeholder_append hn,
      ih h.of_append, List.append_assoc]
  | unclosed hr => exact absurd (h [] _ rfl) hr
  | @cons c cs hc _ ih =>
    have hc' : ∀ r, c :: (cs ++ '\n' :: line) ≠ placeholderOpen ++ r := by
      intro r hr
      cases cs with
      | nil => simp [placeholderOpen] at hr
      | cons d cs =>
        simp only [placeholderOpen, List.cons_append, List.nil_append, List.cons.injEq] at hr
        obtain ⟨rfl, rfl, -⟩ := hr
        exact hc cs rfl
    rw [List.cons_append, expandChars_cons hc', expandChars_cons hc,
      ih (Closed.of_append (a := [c]) h), List.cons_append]

end EventTable.Text
