/-
  EventTable — fields of digits, of which texts for spans of time and coordinates are made.

  * `LeadingField width cs n`: the digits in front of a text, as many as the number `n` needs
    and at least `width` of them;
  * `TwoDigits bound cs n`: two digits for a number below `bound`, which is at most 100;
  * `leadingField_padded` and `twoDigits_padded`: digits with zeros in front are such fields;
  * `TwoDigits.append_inj`: a text that ends in such a field is taken apart in one way.
-/
import EventTable.Proofs.NumberTexts

namespace EventTable.Text

/-- **The digits in front of a text**, for the number `n`: no zero stands in front of more than
    `width` digits. -/
structure LeadingField (width : ℕ) (cs : List Char) (n : ℕ) : Prop where
  isDigit : ∀ c ∈ cs, c.isDigit = true
  width_le : width ≤ cs.length
  head?_ne : width < cs.length → cs.head? ≠ some '0'
  value : natOfDigits cs = n

/-- **Two digits** for the number `n`, which is less than `bound`. -/
structure TwoDigits (bound : ℕ) (cs : List Char) (n : ℕ) : Prop where
  isDigit : ∀ c ∈ cs, c.isDigit = true
  length_eq : cs.length = 2
  value : natOfDigits cs = n
  lt : n < bound

theorem digits_eq_padded (n : ℕ) : digits n = padded 1 n := by
  have hlength : 1 - (digits n).length = 0 :=
    Nat.sub_eq_zero_of_le (List.length_pos_iff.2 (digits_ne_nil n))
  rw [padded, padLeft, hlength]
  rfl

theorem leadingField_padded {width : ℕ} (hwidth : 0 < width) (n : ℕ) :
    LeadingField width (padded width n) n := by
  refine ⟨fun _ => isDigit_of_mem_padded, ?_, ?_, natOfDigits_padded width n⟩
  · rw [padded, length_padLeft]
    exact Nat.le_max_left ..
  · intro hlong
    rw [padded, length_padLeft] at hlong
    have hnone : width - (digits n).length = 0 := by omega
    rw [padded, padLeft, hnone]
    refine head?_digits_ne (Nat.pos_of_ne_zero ?_)
    rintro rfl
    have hone : (digits 0).length = 1 := rfl
    omega

theorem leadingField_digits (n : ℕ) : LeadingField 1 (digits n) n := by
  rw [digits_eq_padded]
  exact leadingField_padded Nat.one_pos n

theorem twoDigits_padded {bound n : ℕ} (hn : n < bound) (hbound : bound ≤ 100) :
    TwoDigits bound (padded 2 n) n :=
  ⟨fun _ => isDigit_of_mem_padded, length_padded (by decide) (hn.trans_le hbound),
    natOfDigits_padded 2 n, hn⟩

/-- What stands in front of two digits, up to marks between them, and the digits can be told
    apart. -/
theorem TwoDigits.append_inj {bound n n' : ℕ} {a a' cs cs' : List Char}
    (h : TwoDigits bound cs n) (h' : TwoDigits bound cs' n') (marks : List Char)
    (heq : a ++ (marks ++ cs) = a' ++ (marks ++ cs')) : a = a' ∧ n = n' := by
  have hlength : (marks ++ cs).length = (marks ++ cs').length := by
    rw [List.length_append, List.length_append, h.length_eq, h'.length_eq]
  obtain ⟨ha, hcs⟩ := List.append_inj' heq hlength
  refine ⟨ha, ?_⟩
  rw [← h.value, ← h'.value, List.append_cancel_left hcs]

end EventTable.Text
