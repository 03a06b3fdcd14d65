/-
  EventTable — cutting texts at separators, leading texts, and ASCII case.

  Texts are lists of characters here.

  * `cut? c` is the text before and after the first `c`, `cutLast? c` that
    around the last one, `pieces c` all the texts between the `c`s;
  * `afterLeading? p` is what follows a leading text `p`;
  * `occursIn p` asks whether `p` stands anywhere in a text;
  * `cut?_eq_some_iff` says where a text is cut, and `intercalate_pieces` that
    nothing of it is lost in `pieces`.
-/
namespace EventTable.Text

/-- The text before and the text after the first `c`, if there is a `c`. -/
def cut? (c : Char) : List Char → Option (List Char × List Char)
  | [] => none
  | d :: r => if d = c then some ([], r) else (cut? c r).map fun (a, b) => (d :: a, b)

/-- The text before and the text after the last `c`, if there is a `c`. -/
def cutLast? (c : Char) (cs : List Char) : Option (List Char × List Char) :=
  (cut? c cs.reverse).map fun (after, before) => (before.reverse, after.reverse)

/-- The texts between the occurrences of `c`: one more than there are `c`s. -/
def pieces (c : Char) : List Char → List (List Char)
  | [] => [[]]
  | d :: r => if d = c then [] :: pieces c r else (pieces c r).modifyHead (d :: ·)

/-- What follows the leading text `p`, if the text starts with `p`. -/
def afterLeading? : (p : List Char) → List Char → Option (List Char)
  | [], cs => some cs
  | _ :: _, [] => none
  | d :: p, c :: cs => if d = c then afterLeading? p cs else none

/-- Whether the text starts with `p`. -/
def startsWith (p cs : List Char) : Bool := (afterLeading? p cs).isSome

/-- Whether `p` stands anywhere in the text. -/
def occursIn (p : List Char) : List Char → Bool
  | [] => p.isEmpty
  | c :: cs => startsWith p (c :: cs) || occursIn p cs

/-- The text with its ASCII letters in lower case. -/
def lowerAscii (cs : List Char) : List Char := cs.map Char.toLower

/-- The text with its ASCII letters in upper case. -/
def upperAscii (cs : List Char) : List Char := cs.map Char.toUpper

/-- A text is cut at the first `c`, and only there. -/
theorem cut?_eq_some_iff {c : Char} {cs a b : List Char} :
    cut? c cs = some (a, b) ↔ cs = a ++ c :: b ∧ c ∉ a := by
  induction cs generalizing a with
  | nil => simp [cut?]
  | cons d r ih =>
    by_cases hd : d = c
    · subst hd
      cases a with
      | nil => simp [cut?, eq_comm]
      | cons e a => simp [cut?]; rintro rfl; simp
    · cases a with
      | nil => simp [cut?, hd]
      | cons e a =>
        simp only [cut?, hd, if_false, Option.map_eq_some_iff, Prod.exists, Prod.mk.injEq,
          List.cons.injEq, List.cons_append, List.mem_cons, not_or]
        constructor
        · rintro ⟨a', b', h, ⟨rfl, rfl⟩, rfl⟩
          obtain ⟨h1, h2⟩ := ih.1 h
          exact ⟨⟨rfl, h1⟩, fun h => hd h.symm, h2⟩
        · rintro ⟨⟨rfl, h1⟩, -, h2⟩
          exact ⟨a, b, ih.2 ⟨h1, h2⟩, ⟨rfl, rfl⟩, rfl⟩

theorem cut?_eq_none_iff {c : Char} {cs : List Char} : cut? c cs = none ↔ c ∉ cs := by
  induction cs with
  | nil => simp [cut?]
  | cons d r ih =>
    by_cases hd : d = c
    · simp [cut?, hd]
    · simp [cut?, hd, ih, Ne.symm hd]

theorem pieces_ne_nil (c : Char) (cs : List Char) : pieces c cs ≠ [] := by
  induction cs with
  | nil => simp [pieces]
  | cons d r ih => by_cases hd : d = c <;> simp [pieces, hd, ih]

/-- Joining the pieces again with `c` gives the text back. -/
theorem intercalate_pieces (c : Char) (cs : List Char) : [c].intercalate (pieces c cs) = cs := by
  induction cs with
  | nil => rfl
  | cons d r ih =>
    obtain ⟨p, ps, hp⟩ := List.exists_cons_of_ne_nil (pieces_ne_nil c r)
    rw [hp] at ih
    by_cases hd : d = c
    · rw [pieces, if_pos hd, hp, hd]; simpa [List.intercalate] using ih
    · cases ps <;> simp_all [pieces, List.intercalate]

/-- What follows a leading text is the rest of the text. -/
theorem afterLeading?_eq_some_iff {p cs r : List Char} :
    afterLeading? p cs = some r ↔ cs = p ++ r := by
  fun_induction afterLeading? p cs with
  | case1 => simp [eq_comm]
  | case2 => simp
  | case3 _ _ _ ih => simpa using ih
  | case4 d p c cs h => simp [Ne.symm h]

end EventTable.Text
