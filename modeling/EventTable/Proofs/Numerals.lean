/-
  EventTable — written whole numbers, read back.

  * `exists_of_mem_toDigits`: a digit of a number is one of its base;
  * `hexDigits?_append`: hexadecimal digits are read one part after the other;
  * `nat?_digits` and `hexNat?_paddedHex`: what is written in decimal, or in hexadecimal
    with leading zeros, is read as the number it was;
  * `isDigit_of_mem_padded`, `isAlphanum_of_mem_digits` and `isAlphanum_of_mem_paddedHex`: no
    other characters are written.
-/
import EventTable.Number.Numeral

namespace EventTable

namespace Text

/-- A digit of a number is one of its base. -/
theorem exists_of_mem_toDigits {base n : Nat} (hb : 1 < base) {c : Char}
    (h : c ∈ Nat.toDigits base n) : ∃ d < base, c = Nat.digitChar d := by
  induction n using Nat.strongRecOn with
  | _ n ih =>
    by_cases hn : n < base
    · rw [Nat.toDigits_of_lt_base hn, List.mem_singleton] at h
      exact ⟨n, hn, h⟩
    · rw [Nat.toDigits_of_base_le hb (by omega), List.mem_append, List.mem_singleton] at h
      rcases h with h | h
      · exact ih (n / base) (Nat.div_lt_self (by omega) hb) h
      · exact ⟨n % base, Nat.mod_lt n (by omega), h⟩

theorem isAlphanum_of_mem_digits {n : Nat} {c : Char} (h : c ∈ digits n) :
    c.isAlphanum = true := by
  rw [Char.isAlphanum, isDigit_of_mem_digits h, Bool.or_true]

theorem digits_ne_nil (n : Nat) : digits n ≠ [] := Nat.toDigits_ne_nil

theorem eq_or_mem_of_mem_padLeft {c d : Char} {width : Nat} {cs : List Char}
    (h : d ∈ padLeft c width cs) : d = c ∨ d ∈ cs := by
  rw [padLeft, List.mem_append] at h
  exact h.imp_left List.eq_of_mem_replicate

theorem isDigit_of_mem_padded {width n : Nat} {c : Char} (h : c ∈ padded width n) :
    c.isDigit = true := by
  rcases eq_or_mem_of_mem_padLeft h with rfl | h
  · decide
  · exact isDigit_of_mem_digits h

theorem isAlphanum_of_mem_paddedHex {width n : Nat} {c : Char} (h : c ∈ paddedHex width n) :
    c.isAlphanum = true := by
  have hdigit : ∀ d < 16, (Nat.digitChar d).toUpper.isAlphanum = true := by decide
  rcases eq_or_mem_of_mem_padLeft h with rfl | h
  · decide
  · obtain ⟨c', hc', rfl⟩ := List.mem_map.1 h
    obtain ⟨d, hd, rfl⟩ := exists_of_mem_toDigits (by decide) hc'
    exact hdigit d hd

theorem paddedHex_ne_nil (width n : Nat) : paddedHex width n ≠ [] := by
  intro h
  rw [paddedHex, padLeft, List.append_eq_nil_iff, List.map_eq_nil_iff] at h
  exact Nat.toDigits_ne_nil h.2

end Text

namespace Number

open Text

variable {cs : List Char}

/-- A numeral is read as it is if no plus stands in front. -/
theorem afterPlus_of_isAlphanum (h : ∀ c ∈ cs, c.isAlphanum = true) : afterPlus cs = cs := by
  unfold afterPlus
  split
  · exact absurd (h _ List.mem_cons_self) (by decide)
  · rfl

/-! ## Decimal numbers -/

theorem nat?_digits (n : Nat) : nat? (digits n) = some n := by
  have hdigits : digits n ≠ [] ∧ (digits n).all Char.isDigit = true :=
    ⟨digits_ne_nil n, List.all_eq_true.2 fun _ h => isDigit_of_mem_digits h⟩
  rw [nat?, afterPlus_of_isAlphanum fun _ => isAlphanum_of_mem_digits, digitsOnly?, if_pos hdigits,
    natOfDigits_digits]

/-! ## Hexadecimal numbers -/

theorem hexDigits?_append (acc : Nat) (a b : List Char) :
    hexDigits? acc (a ++ b) = (hexDigits? acc a).bind fun n => hexDigits? n b := by
  induction a generalizing acc with
  | nil => rfl
  | cons c a ih =>
    rw [List.cons_append, hexDigits?, hexDigits?]
    cases hexValue? c with
    | none => rfl
    | some d => exact ih (16 * acc + d)

/-- Digits are written in upper case, and read in either. -/
theorem hexValue?_toUpper_digitChar {d : Nat} (h : d < 16) :
    hexValue? (Nat.digitChar d).toUpper = some d := by
  revert d
  decide

theorem hexDigits?_toDigits (n : Nat) :
    hexDigits? 0 ((Nat.toDigits 16 n).map Char.toUpper) = some n := by
  have hdigit : ∀ acc d : Nat, d < 16 →
      hexDigits? acc [(Nat.digitChar d).toUpper] = some (16 * acc + d) := by
    intro acc d hd
    rw [hexDigits?, hexValue?_toUpper_digitChar hd]
    rfl
  induction n using Nat.strongRecOn with
  | _ n ih =>
    by_cases hn : n < 16
    · rw [Nat.toDigits_of_lt_base hn, List.map_singleton, hdigit 0 n hn]
      congr 1
      omega
    · have hdiv : hexDigits? 0 ((Nat.toDigits 16 (n / 16)).map Char.toUpper) = some (n / 16) :=
        ih (n / 16) (by omega)
      rw [Nat.toDigits_of_base_le (by decide) (by omega), List.map_append, hexDigits?_append,
        hdiv, Option.bind_some, List.map_singleton, hdigit _ _ (Nat.mod_lt n (by decide))]
      congr 1
      omega

/-- Leading zeros do not change the number. -/
theorem hexDigits?_padLeft (width : Nat) (cs : List Char) :
    hexDigits? 0 (padLeft '0' width cs) = hexDigits? 0 cs := by
  have hzeros : ∀ k, hexDigits? 0 (List.replicate k '0') = some 0 := by
    intro k
    induction k with
    | zero => rfl
    | succ k ih => exact ih
  rw [padLeft, hexDigits?_append, hzeros, Option.bind_some]

theorem hexNat?_paddedHex (width n : Nat) : hexNat? (paddedHex width n) = some n := by
  unfold hexNat?
  rw [afterPlus_of_isAlphanum fun _ => isAlphanum_of_mem_paddedHex]
  split
  · rename_i h
    exact absurd h (paddedHex_ne_nil width n)
  · rw [paddedHex, hexDigits?_padLeft, hexDigits?_toDigits]

end Number

end EventTable
