/-
  EventTable — texts cut at a separator, and joined again.

  * `split c p` cuts a text at the separator `c :: p`, from the left, and `pieces_eq_split`:
    `pieces` does so for a single character;
  * `split_intercalate`: texts without the first character of the separator are what their
    join is cut into;
  * `eq_pieces_iff`: the pieces at a character are the only texts without it whose join is
    the text;
  * `length_pieces`: there is one more of them than there are separators.
-/
import EventTable.Text.Cut

namespace EventTable.Text

theorem length_lt_of_afterLeading? {c : Char} {p cs r : List Char}
    (h : afterLeading? (c :: p) cs = some r) : r.length < cs.length := by
  rw [afterLeading?_eq_some_iff.1 h, List.length_append, List.length_cons]
  omega

/-- The texts between the occurrences of the separator `c :: p`, found from the left. -/
def split (c : Char) (p : List Char) : List Char → List (List Char)
  | [] => [[]]
  | d :: r =>
    match h : afterLeading? (c :: p) (d :: r) with
    | some rest =>
      have : rest.length < r.length + 1 := length_lt_of_afterLeading? h
      [] :: split c p rest
    | none => (split c p r).modifyHead (d :: ·)
  termination_by cs => cs.length

variable {c d : Char} {p a r cs : List Char} {texts : List (List Char)}

@[simp] theorem split_nil : split c p [] = [[]] := by rw [split]

theorem split_separator (c : Char) (p r : List Char) :
    split c p (c :: (p ++ r)) = [] :: split c p r := by
  have hleading : afterLeading? (c :: p) (c :: (p ++ r)) = some r :=
    afterLeading?_eq_some_iff.2 rfl
  rw [split]
  split
  · rename_i rest h
    rw [hleading] at h
    obtain rfl := Option.some.inj h
    rfl
  · rename_i h
    rw [hleading] at h
    cases h

theorem split_cons (h : d ≠ c) : split c p (d :: r) = (split c p r).modifyHead (d :: ·) := by
  have hleading : afterLeading? (c :: p) (d :: r) = none := by
    rw [afterLeading?, if_neg h.symm]
  rw [split]
  split
  · rename_i rest h
    rw [hleading] at h
    cases h
  · rfl

/-- Up to the first separator nothing is cut. -/
theorem split_append (h : c ∉ a) : split c p (a ++ c :: (p ++ r)) = a :: split c p r := by
  induction a with
  | nil => exact split_separator c p r
  | cons d a ih =>
    rw [List.mem_cons, not_or] at h
    rw [List.cons_append, split_cons (Ne.symm h.1), ih h.2]
    rfl

theorem split_of_notMem (h : c ∉ a) : split c p a = [a] := by
  induction a with
  | nil => exact split_nil
  | cons d a ih =>
    rw [List.mem_cons, not_or] at h
    rw [split_cons (Ne.symm h.1), ih h.2]
    rfl

/-- **Joined texts are cut where they were joined**, if the separator starts with a character
    that they do not hold. -/
theorem split_intercalate (hne : texts ≠ []) (h : ∀ a ∈ texts, c ∉ a) :
    split c p ((c :: p).intercalate texts) = texts := by
  induction texts with
  | nil => exact absurd rfl hne
  | cons a texts ih =>
    obtain ⟨ha, htexts⟩ := List.forall_mem_cons.1 h
    cases texts with
    | nil =>
      rw [List.intercalate_singleton]
      exact split_of_notMem ha
    | cons b texts =>
      rw [List.intercalate_cons_cons, List.append_assoc, List.cons_append, split_append ha,
        ih (List.cons_ne_nil _ _) htexts]

/-! ## Pieces -/

theorem pieces_eq_split (c : Char) (cs : List Char) : pieces c cs = split c [] cs := by
  induction cs with
  | nil => rw [split_nil, pieces]
  | cons d r ih =>
    by_cases hd : d = c
    · rw [pieces, if_pos hd, hd, ih]
      exact (split_separator c [] r).symm
    · rw [pieces, if_neg hd, split_cons hd, ih]

theorem notMem_of_mem_pieces (h : a ∈ pieces c cs) : c ∉ a := by
  induction cs generalizing a with
  | nil =>
    rw [pieces, List.mem_singleton] at h
    rw [h]
    exact List.not_mem_nil
  | cons d r ih =>
    obtain ⟨b, bs, hb⟩ := List.exists_cons_of_ne_nil (pieces_ne_nil c r)
    rw [hb] at ih
    rw [pieces, hb] at h
    split at h
    · rcases List.mem_cons.1 h with rfl | h
      · exact List.not_mem_nil
      · exact ih h
    · rename_i hd
      rcases List.mem_cons.1 h with rfl | h
      · rw [List.mem_cons, not_or]
        exact ⟨Ne.symm hd, ih List.mem_cons_self⟩
      · exact ih (List.mem_cons_of_mem b h)

/-- **The pieces of a text** are the only texts without the character whose join is the text. -/
theorem eq_pieces_iff : texts = pieces c cs ↔
    texts ≠ [] ∧ (∀ a ∈ texts, c ∉ a) ∧ [c].intercalate texts = cs := by
  constructor
  · rintro rfl
    exact ⟨pieces_ne_nil c cs, fun a => notMem_of_mem_pieces, intercalate_pieces c cs⟩
  · rintro ⟨hne, hnone, rfl⟩
    rw [pieces_eq_split, split_intercalate hne hnone]

/-- There is one more piece than there are separators. -/
theorem length_pieces (c : Char) (cs : List Char) : (pieces c cs).length = cs.count c + 1 := by
  induction cs with
  | nil => rfl
  | cons d r ih =>
    by_cases hd : d = c
    · rw [pieces, if_pos hd, List.length_cons, ih, hd, List.count_cons_self]
    · rw [pieces, if_neg hd, List.length_modifyHead, ih, List.count_cons_of_ne hd]

end EventTable.Text
