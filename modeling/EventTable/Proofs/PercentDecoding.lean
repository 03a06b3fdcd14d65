/-
  EventTable — percent encoding, undone.

  * `bytesOf?` are the bytes that a percent encoded text stands for, and `percentDecode?` the
    text whose UTF-8 they are;
  * `bytesOf?_encodeChars`: an encoded text stands for the bytes of the text;
  * `percentDecode?_encodeChars`: so every text is decoded from what it is encoded as, whatever
    its characters.
-/
import EventTable.Number.Numeral
import EventTable.Text.Percent

namespace EventTable.Text

open Number

/-- The bytes of a percent encoded text: a percent sign and two hexadecimal digits are one byte,
    and any other character is its own UTF-8. -/
def bytesOf? : List Char → Option (List UInt8)
  | [] => some []
  | '%' :: high :: low :: r => do
    let high ← hexValue? high
    let low ← hexValue? low
    return .ofNat (16 * high + low) :: (← bytesOf? r)
  | '%' :: _ => none
  | c :: r => (bytesOf? r).map (String.utf8EncodeChar c ++ ·)

/-- The text that a percent encoded text stands for, if its bytes are UTF-8. -/
def percentDecode? (cs : List Char) : Option String :=
  (bytesOf? cs).bind fun bytes => String.fromUTF8? bytes.toByteArray

theorem hexValue?_hexDigit {n : Nat} (h : n < 16) : hexValue? (hexDigit n) = some n := by
  revert n
  decide

theorem bytesOf?_encodeByte (b : UInt8) (r : List Char) :
    bytesOf? (encodeByte b ++ r) = (bytesOf? r).map (b :: ·) := by
  have hhigh : b.toNat / 16 < 16 := by
    have := b.toNat_lt
    omega
  have hlow : b.toNat % 16 < 16 := Nat.mod_lt _ (by decide)
  have hbyte : UInt8.ofNat (16 * (b.toNat / 16) + b.toNat % 16) = b := by
    rw [Nat.div_add_mod, UInt8.ofNat_toNat]
  simp only [encodeByte, List.cons_append, List.nil_append, bytesOf?, hexValue?_hexDigit hhigh,
    hexValue?_hexDigit hlow, Option.bind_eq_bind, Option.bind_some, hbyte]
  cases bytesOf? r <;> rfl

theorem bytesOf?_flatMap_encodeByte (bytes : List UInt8) (r : List Char) :
    bytesOf? (bytes.flatMap encodeByte ++ r) = (bytesOf? r).map (bytes ++ ·) := by
  induction bytes with
  | nil => exact (Option.map_id' ..).symm
  | cons b bytes ih =>
    rw [List.flatMap_cons, List.append_assoc, bytesOf?_encodeByte, ih, Option.map_map]
    rfl

theorem bytesOf?_cons {c : Char} (hc : c ≠ '%') (r : List Char) :
    bytesOf? (c :: r) = (bytesOf? r).map (String.utf8EncodeChar c ++ ·) := by
  rw [bytesOf?] <;> simp [hc]

/-- A character stands for its bytes, encoded or not. -/
theorem bytesOf?_encodeChar (c : Char) (r : List Char) :
    bytesOf? (encodeChar c ++ r) = (bytesOf? r).map (String.utf8EncodeChar c ++ ·) := by
  rw [encodeChar]
  split
  · rename_i hc
    have hpercent : c ≠ '%' := by
      rintro rfl
      exact absurd hc (by decide)
    exact bytesOf?_cons hpercent r
  · exact bytesOf?_flatMap_encodeByte _ r

theorem bytesOf?_encodeChars (cs : List Char) :
    bytesOf? (encodeChars cs) = some (cs.flatMap String.utf8EncodeChar) := by
  induction cs with
  | nil => rfl
  | cons c cs ih =>
    rw [encodeChars, List.flatMap_cons, bytesOf?_encodeChar, ← encodeChars, ih]
    rfl

/-- **Every text is decoded from what it is encoded as.** -/
theorem percentDecode?_encodeChars (s : String) :
    percentDecode? (encodeChars s.toList) = some s := by
  have hbytes : (s.toList.flatMap String.utf8EncodeChar).toByteArray = s.toByteArray :=
    String.utf8Encode_toList
  rw [percentDecode?, bytesOf?_encodeChars, Option.bind_some, hbytes, String.fromUTF8?,
    dif_pos s.isValidUTF8]
  rfl

end EventTable.Text
