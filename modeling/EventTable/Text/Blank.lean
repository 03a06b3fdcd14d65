/-
  EventTable — blank characters, trimming, and texts that hold nothing to show.

  Blank characters are those of the Unicode property `White_Space`.  Every
  part of the program that trims a text, or asks whether there is anything in
  it to display, uses the definitions of this module.

  * `isBlankChar` is the property, as ranges of code points;
  * `trimChars` (on strings `trim`) drops blank characters at both ends;
  * `isBlank` holds of a text without any other character, and `nonBlank?`
    keeps a text, untrimmed, only if it is not blank;
  * `isBlank_iff`: a text is blank iff trimming leaves nothing.
-/
namespace EventTable.Text

/-- The characters with the Unicode property `White_Space`. -/
def isBlankChar (c : Char) : Bool :=
  let n := c.toNat
  (0x09 ≤ n && n ≤ 0x0D) || n == 0x20 || n == 0x85 || n == 0xA0 || n == 0x1680 ||
    (0x2000 ≤ n && n ≤ 0x200A) || n == 0x2028 || n == 0x2029 || n == 0x202F ||
    n == 0x205F || n == 0x3000

/-- Drops the blank characters at the end. -/
def trimEnd (cs : List Char) : List Char := (cs.reverse.dropWhile isBlankChar).reverse

/-- Drops the blank characters at both ends. -/
def trimChars (cs : List Char) : List Char := trimEnd (cs.dropWhile isBlankChar)

/-- Drops the blank characters at both ends of a string. -/
def trim (s : String) : String := String.ofList (trimChars s.toList)

/-- Holds of a text without any character other than blank ones. -/
def isBlank (s : String) : Bool := s.toList.all isBlankChar

/-- The text itself, untrimmed, if it is not blank. -/
def nonBlank? (s : String) : Option String := if isBlank s then none else some s

/-- The text itself if it is not blank, and `other` if it is. -/
def nonBlankOr (s other : String) : String := if isBlank s then other else s

@[simp] theorem toList_trim (s : String) : (trim s).toList = trimChars s.toList := by
  simp [trim]

theorem dropWhile_eq_nil_iff {p : Char → Bool} (cs : List Char) :
    cs.dropWhile p = [] ↔ ∀ c ∈ cs, p c := by
  induction cs with
  | nil => simp
  | cons c r ih => by_cases hc : p c <;> simp [hc, ih]

/-- Trimming leaves nothing exactly of a text of blank characters. -/
theorem trimChars_eq_nil_iff (cs : List Char) : trimChars cs = [] ↔ ∀ c ∈ cs, isBlankChar c := by
  rw [trimChars, trimEnd, List.reverse_eq_nil_iff, dropWhile_eq_nil_iff]
  induction cs with
  | nil => simp
  | cons c r ih =>
    by_cases hc : isBlankChar c
    · simpa [hc] using ih
    · simp [hc]

theorem isBlank_iff (s : String) : isBlank s = true ↔ trim s = "" := by
  rw [← String.toList_inj, toList_trim, isBlank, List.all_eq_true]
  simpa using (trimChars_eq_nil_iff s.toList).symm

theorem isBlank_eq_false_iff {s : String} :
    isBlank s = false ↔ ∃ c ∈ s.toList, isBlankChar c = false := by
  simp [isBlank]

theorem isBlank_nonBlankOr {other : String} (s : String) (h : isBlank other = false) :
    isBlank (nonBlankOr s other) = false := by
  rw [nonBlankOr]
  split
  · exact h
  · exact Bool.eq_false_iff.2 ‹_›

theorem nonBlank?_eq_some_iff {s t : String} : nonBlank? s = some t ↔ isBlank s = false ∧ s = t := by
  by_cases h : isBlank s = true <;> simp [nonBlank?, h]

theorem nonBlank?_eq_none_iff {s : String} : nonBlank? s = none ↔ isBlank s = true := by
  simp [nonBlank?]

end EventTable.Text
