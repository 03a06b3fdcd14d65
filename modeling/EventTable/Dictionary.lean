/-
  EventTable — dictionaries: lists of keys with one value each.

  A dictionary is read with `List.lookup`.

  * `put` gives a key a value: the new value stands where the old one stood, a
    new key at the end;
  * `ofPairs` puts pairs one after the other, so that the last value of a key
    counts;
  * `lookup_put`: after `put` the key has the new value, and any other key the
    one it had.
-/
namespace EventTable.Dictionary

variable {κ α : Type} [DecidableEq κ]

/-- Gives the key the value. -/
def put (k : κ) (v : α) : List (κ × α) → List (κ × α)
  | [] => [(k, v)]
  | (k', v') :: r => if k' = k then (k, v) :: r else (k', v') :: put k v r

/-- The dictionary of pairs; the last value of a key counts. -/
def ofPairs (ps : List (κ × α)) : List (κ × α) := ps.foldl (fun d p => put p.1 p.2 d) []

/-- Whether some key stands in the list more than once. -/
def hasRepeats (ps : List (κ × α)) : Bool := !decide (ps.map Prod.fst).Nodup

theorem lookup_put [BEq κ] [LawfulBEq κ] (k : κ) (v : α) (d : List (κ × α)) (k' : κ) :
    (put k v d).lookup k' = if k' = k then some v else d.lookup k' := by
  induction d with
  | nil => by_cases h : k' = k <;> simp [put, h]
  | cons p r ih =>
    obtain ⟨k₁, v₁⟩ := p
    by_cases h : k' = k₁
    · subst h; by_cases h₁ : k' = k <;> simp [put, h₁]
    · have hb : (k' == k₁) = false := beq_eq_false_iff_ne.2 h
      by_cases h₁ : k₁ = k
      · subst h₁; simp [put, List.lookup_cons, hb, h]
      · simp [put, h₁, List.lookup_cons, hb, ih]

end EventTable.Dictionary
