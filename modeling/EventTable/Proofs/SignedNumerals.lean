/-
  EventTable — which texts are read as whole numbers.

  * `Unsigned` and `SelfSigned` are the numerals: decimal digits, and digits with a sign of
    their own in front; `digitsOnly?_eq_some_iff` and `int?_eq_some_iff`: these are read;
  * `Readable` holds of both, as far as they are not negative, and
    `boundedInt?_eq_some_iff`: these are read up to a bound.
-/
import EventTable.Number.Numeral

namespace EventTable

open Text

namespace Number

/-- Decimal digits, and the number that they denote. -/
inductive Unsigned : List Char → Nat → Prop
  | digits {ds} : ds ≠ [] → (∀ c ∈ ds, c.isDigit = true) → Unsigned ds (natOfDigits ds)

/-- Decimal digits behind a sign of their own; behind a minus they denote zero. -/
inductive SelfSigned : List Char → Nat → Prop
  | plus {ds n} : Unsigned ds n → SelfSigned ('+' :: ds) n
  | minus {ds} : Unsigned ds 0 → SelfSigned ('-' :: ds) 0

/-- A number with or without a sign of its own. -/
def Readable (cs : List Char) (n : Nat) : Prop := Unsigned cs n ∨ SelfSigned cs n

variable {cs : List Char} {n : Nat}

theorem digitsOnly?_eq_some_iff : digitsOnly? cs = some n ↔ Unsigned cs n := by
  rw [digitsOnly?]
  constructor
  · intro h
    split at h
    · rename_i hcs
      obtain rfl := Option.some.inj h
      exact .digits hcs.1 (List.all_eq_true.1 hcs.2)
    · exact absurd h (by simp)
  · rintro ⟨hne, hdigits⟩
    rw [if_pos ⟨hne, List.all_eq_true.2 hdigits⟩]

theorem Unsigned.isDigit (h : Unsigned cs n) : ∀ c ∈ cs, c.isDigit = true := by
  cases h with
  | digits _ hdigits => exact hdigits

theorem int?_minus (ds : List Char) :
    int? ('-' :: ds) = (digitsOnly? ds).map fun n : Nat => -(n : Int) := by
  simp only [int?, signAndRest]
  cases digitsOnly? ds <;> rfl

theorem int?_plus (ds : List Char) :
    int? ('+' :: ds) = (digitsOnly? ds).map fun n : Nat => (n : Int) := by
  simp only [int?, signAndRest]
  cases digitsOnly? ds <;> rfl

theorem signAndRest_of_no_sign (hminus : ∀ ds, cs ≠ '-' :: ds) (hplus : ∀ ds, cs ≠ '+' :: ds) :
    signAndRest cs = (false, cs) := by
  unfold signAndRest
  split
  · exact absurd rfl (hminus _)
  · exact absurd rfl (hplus _)
  · rfl

theorem int?_of_no_sign (hminus : ∀ ds, cs ≠ '-' :: ds) (hplus : ∀ ds, cs ≠ '+' :: ds) :
    int? cs = (digitsOnly? cs).map fun n : Nat => (n : Int) := by
  simp only [int?, signAndRest_of_no_sign hminus hplus]
  cases digitsOnly? cs <;> rfl

/-- A whole number is digits, or a sign and digits. -/
theorem int?_eq_some_iff {k : Int} : int? cs = some k ↔
    (∃ n : Nat, Unsigned cs n ∧ k = n) ∨ (∃ ds, ∃ n : Nat, cs = '+' :: ds ∧ Unsigned ds n ∧ k = n) ∨
      ∃ ds, ∃ n : Nat, cs = '-' :: ds ∧ Unsigned ds n ∧ k = -n := by
  have hsign : ∀ {c : Char} {ds : List Char} {n : Nat}, Unsigned (c :: ds) n → c.isDigit = true :=
    fun h => h.isDigit _ List.mem_cons_self
  by_cases hminus : ∃ ds, cs = '-' :: ds
  · obtain ⟨ds, rfl⟩ := hminus
    simp only [int?_minus, Option.map_eq_some_iff, digitsOnly?_eq_some_iff]
    constructor
    · rintro ⟨n, hn, rfl⟩
      exact .inr (.inr ⟨ds, n, rfl, hn, rfl⟩)
    · rintro (⟨n, hn, -⟩ | ⟨ds', n, hcs, -⟩ | ⟨ds', n, hcs, hn, rfl⟩)
      · exact absurd (hsign hn) (by decide)
      · exact absurd (List.cons.inj hcs).1 (by decide)
      · obtain ⟨-, rfl⟩ := List.cons.inj hcs
        exact ⟨n, hn, rfl⟩
  by_cases hplus : ∃ ds, cs = '+' :: ds
  · obtain ⟨ds, rfl⟩ := hplus
    simp only [int?_plus, Option.map_eq_some_iff, digitsOnly?_eq_some_iff]
    constructor
    · rintro ⟨n, hn, rfl⟩
      exact .inr (.inl ⟨ds, n, rfl, hn, rfl⟩)
    · rintro (⟨n, hn, -⟩ | ⟨ds', n, hcs, hn, rfl⟩ | ⟨ds', n, hcs, -⟩)
      · exact absurd (hsign hn) (by decide)
      · obtain ⟨-, rfl⟩ := List.cons.inj hcs
        exact ⟨n, hn, rfl⟩
      · exact absurd (List.cons.inj hcs).1 (by decide)
  · rw [not_exists] at hminus hplus
    simp only [int?_of_no_sign hminus hplus, Option.map_eq_some_iff, digitsOnly?_eq_some_iff]
    constructor
    · rintro ⟨n, hn, rfl⟩
      exact .inl ⟨n, hn, rfl⟩
    · rintro (⟨n, hn, rfl⟩ | ⟨ds, n, hcs, -⟩ | ⟨ds, n, hcs, -⟩)
      · exact ⟨n, hn, rfl⟩
      · exact absurd hcs (hplus ds)
      · exact absurd hcs (hminus ds)

/-- A number up to a bound that is not negative. -/
theorem boundedInt?_eq_some_iff {hi : Nat} {k : Int} :
    boundedInt? 0 hi cs = some k ↔ ∃ n : Nat, k = n ∧ n ≤ hi ∧ Readable cs n := by
  simp only [boundedInt?, Option.filter_eq_some_iff, int?_eq_some_iff, Bool.and_eq_true,
    decide_eq_true_eq]
  constructor
  · rintro ⟨⟨n, hn, rfl⟩ | ⟨ds, n, rfl, hn, rfl⟩ | ⟨ds, n, rfl, hn, rfl⟩, hlo, hhi⟩
    · exact ⟨n, rfl, by omega, .inl hn⟩
    · exact ⟨n, rfl, by omega, .inr (.plus hn)⟩
    · -- the number behind a minus is not below zero, so it is zero
      obtain rfl : n = 0 := by omega
      exact ⟨0, rfl, by omega, .inr (.minus hn)⟩
  · rintro ⟨n, rfl, hn, h | h⟩
    · exact ⟨.inl ⟨n, h, rfl⟩, by omega, by omega⟩
    · cases h with
      | plus h => exact ⟨.inr (.inl ⟨_, n, rfl, h, rfl⟩), by omega, by omega⟩
      | minus h => exact ⟨.inr (.inr ⟨_, 0, rfl, h, rfl⟩), by omega, by omega⟩

/-- No number holds a colon. -/
theorem Readable.colon_not_mem (h : Readable cs n) : ':' ∉ cs := by
  have hdigits : ∀ {ds n}, Unsigned ds n → ':' ∉ ds :=
    fun h hm => absurd (h.isDigit ':' hm) (by decide)
  rcases h with h | ⟨h⟩ | ⟨h⟩
  · exact hdigits h
  · simpa using hdigits h
  · simpa using hdigits h

/-- A number in which no sign stands is unsigned. -/
theorem Readable.unsigned (h : Readable cs n) (hcs : ∀ c ∈ cs, c ≠ '+' ∧ c ≠ '-') :
    Unsigned cs n := by
  rcases h with h | ⟨h⟩ | ⟨h⟩
  · exact h
  · exact absurd rfl (hcs '+' List.mem_cons_self).1
  · exact absurd rfl (hcs '-' List.mem_cons_self).2

theorem readable_zero_iff : Readable ['0'] n ↔ n = 0 := by
  constructor
  · rintro (⟨-, -⟩ | h)
    · rfl
    · cases h
  · rintro rfl
    exact .inl (.digits (List.cons_ne_nil _ _) (List.forall_mem_singleton.2 rfl))

end Number

end EventTable
