/-
  EventTable — whole numbers as decimal and hexadecimal digits.

  * `digits n` are the decimal digits of `n`, without leading zeros;
  * `padLeft` fills a text up to a width, and `padded w n` writes `n` with at
    least `w` digits;
  * `signed` writes an integer;
  * `natOfDigits` is the number a text of digits denotes, and
    `natOfDigits_digits` that it undoes `digits`.
-/
namespace EventTable.Text

/-- The decimal digits of `n`. -/
def digits (n : Nat) : List Char := Nat.toDigits 10 n

/-- The text with copies of `c` in front, up to `width` characters. -/
def padLeft (c : Char) (width : Nat) (cs : List Char) : List Char :=
  List.replicate (width - cs.length) c ++ cs

/-- The decimal digits of `n` with leading zeros up to `width` digits. -/
def padded (width n : Nat) : List Char := padLeft '0' width (digits n)

/-- The upper-case hexadecimal digits of `n` with leading zeros up to `width` digits. -/
def paddedHex (width n : Nat) : List Char :=
  padLeft '0' width ((Nat.toDigits 16 n).map Char.toUpper)

/-- An integer, with a sign if it is negative. -/
def signed (n : Int) : List Char := if n < 0 then '-' :: digits n.natAbs else digits n.natAbs

/-- The number that a text of decimal digits denotes. -/
def natOfDigits (cs : List Char) : Nat := Nat.ofDigitChars 10 cs 0

/-- Reading the digits of a number gives the number back. -/
@[simp] theorem natOfDigits_digits (n : Nat) : natOfDigits (digits n) = n :=
  Nat.ofDigitChars_ten_toDigits

/-- Leading zeros do not change the number. -/
@[simp] theorem natOfDigits_padded (width n : Nat) : natOfDigits (padded width n) = n := by
  simp [natOfDigits, padded, padLeft, Nat.ofDigitChars_append, Nat.ofDigitChars_replicate_zero,
    digits]

theorem isDigit_of_mem_digits {n : Nat} {c : Char} (h : c ∈ digits n) : c.isDigit = true :=
  Nat.isDigit_of_mem_toDigits (by decide) (by decide) h

theorem length_padLeft (c : Char) (width : Nat) (cs : List Char) :
    (padLeft c width cs).length = max width cs.length := by
  simp [padLeft]; omega

end EventTable.Text
