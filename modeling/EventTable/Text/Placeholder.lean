/-
  EventTable — placeholders: a dollar sign and a name in braces, replaced by
  the value of the name.

  * `expandChars lookup` (on strings `expand`) goes through a template once,
    from left to right: the name of a placeholder runs to the next closing
    brace; a name without a value, and an opening without a closing brace, are
    kept as written;
  * values are inserted verbatim and not gone through again;
  * `expandChars_of_not_occursIn`: a text without an opening is its own
    expansion.
-/
import EventTable.Text.Cut

namespace EventTable.Text

/-- The two characters that open a placeholder. -/
def placeholderOpen : List Char := ['$', '\x7b']

/-- A placeholder as it is written in a template. -/
def placeholder (name : List Char) : List Char := placeholderOpen ++ name ++ ['\x7d']

theorem length_lt_of_cut? {c : Char} {cs a b : List Char} (h : cut? c cs = some (a, b)) :
    b.length < cs.length := by
  rw [(cut?_eq_some_iff.1 h).1]; simp; omega

/-- The template with each placeholder replaced by the value of its name. -/
def expandChars (lookup : List Char → Option (List Char)) : List Char → List Char
  | [] => []
  | [c] => [c]
  | c :: d :: r =>
    if c = '$' ∧ d = '\x7b' then
      match h : cut? '\x7d' r with
      | some (name, rest) =>
        have := length_lt_of_cut? h
        (lookup name).getD (placeholder name) ++ expandChars lookup rest
      | none => c :: d :: r
    else c :: expandChars lookup (d :: r)
  termination_by cs => cs.length

/-- The values of the names that a template may use. -/
abbrev Values := List (String × String)

/-- The template with each placeholder replaced by the value of its name. -/
def expand (values : Values) (template : String) : String :=
  String.ofList <| expandChars
    (fun name => (values.lookup (String.ofList name)).map String.toList) template.toList

/-- A text in which no placeholder opens is its own expansion. -/
theorem expandChars_of_not_occursIn (lookup : List Char → Option (List Char)) {cs : List Char}
    (h : occursIn placeholderOpen cs = false) : expandChars lookup cs = cs := by
  fun_induction expandChars lookup cs with
  | case1 => rfl
  | case2 => rfl
  | case3 c d r hcd =>
    obtain ⟨rfl, rfl⟩ := hcd
    simp [occursIn, startsWith, placeholderOpen, afterLeading?] at h
  | case4 => rfl
  | case5 c d r _ ih =>
    rw [ih]
    simp only [occursIn, Bool.or_eq_false_iff] at h ⊢
    exact h.2

end EventTable.Text
