/-
  EventTable — percent encoding of the parts of a link.

  A letter, a digit and each of `-`, `_`, `.` and `~` stands for itself; any
  other character is written as its UTF-8 bytes, each as `%` and two upper-case
  hexadecimal digits.

  * `isUnreserved` are the characters that stand for themselves;
  * `encodeChars` (on strings `percentEncode`) writes a text;
  * `mem_encodeChars`: nothing but unreserved characters and `%` is written.
-/
namespace EventTable.Text

/-- The characters that percent encoding keeps. -/
def isUnreserved (c : Char) : Bool :=
  c.isAlphanum || c == '-' || c == '_' || c == '.' || c == '~'

/-- The upper-case hexadecimal digit of a number below 16. -/
def hexDigit (n : Nat) : Char :=
  if n < 10 then Char.ofNat ('0'.toNat + n) else Char.ofNat ('A'.toNat + (n - 10))

/-- One byte, percent encoded. -/
def encodeByte (b : UInt8) : List Char := ['%', hexDigit (b.toNat / 16), hexDigit (b.toNat % 16)]

/-- One character, percent encoded unless it is unreserved. -/
def encodeChar (c : Char) : List Char :=
  if isUnreserved c then [c] else (String.utf8EncodeChar c).flatMap encodeByte

/-- A text, percent encoded character by character. -/
def encodeChars (cs : List Char) : List Char := cs.flatMap encodeChar

/-- A string, percent encoded. -/
def percentEncode (s : String) : String := String.ofList (encodeChars s.toList)

theorem isUnreserved_hexDigit {n : Nat} (h : n < 16) : isUnreserved (hexDigit n) = true := by
  revert n; decide

/-- Encoded texts hold no separator: every character is unreserved or `%`. -/
theorem mem_encodeChars {cs : List Char} {d : Char} (h : d ∈ encodeChars cs) :
    isUnreserved d = true ∨ d = '%' := by
  simp only [encodeChars, List.mem_flatMap] at h
  obtain ⟨c, -, hd⟩ := h
  unfold encodeChar at hd
  split at hd
  next hc => simp at hd; exact .inl (hd ▸ hc)
  next =>
    simp only [List.mem_flatMap, encodeByte, List.mem_cons, List.not_mem_nil, or_false] at hd
    obtain ⟨b, -, rfl | rfl | rfl⟩ := hd
    · exact .inr rfl
    · exact .inl (isUnreserved_hexDigit (by have := b.toNat_lt; omega))
    · exact .inl (isUnreserved_hexDigit (by omega))

end EventTable.Text
