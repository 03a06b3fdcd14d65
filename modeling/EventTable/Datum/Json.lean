/-
  EventTable — values as JSON texts.

  * `Datum.toJson` writes a value without blanks;
  * a float is written with the fewest digits that read back: positionally,
    with at least one digit after the point, from `1e-5` to below `1e16`, and
    in scientific notation beyond (`writeFloat`);
  * in a string, quotes, backslashes and control characters are escaped
    (`writeString`), everything else stands for itself.
-/
import EventTable.Datum.Basic
import EventTable.Number.Shortest

namespace EventTable.Datum

open Text Number

/-- A float that reads back; infinities and NaN have no JSON form but `null`. -/
def writeFloat (x : Float) : List Char :=
  match Exact.ofFloat? x with
  | none => "null".toList
  | some v =>
    let sign := if v.negative then ['-'] else []
    if v.mantissa = 0 then sign ++ "0.0".toList
    else
      let d := shortest v
      sign ++ if -5 < d.exponent ∧ d.exponent ≤ 16 then positional 1 d else scientific true d

/-- A character within a string. -/
def escapeChar (c : Char) : List Char :=
  match c with
  | '"' => ['\\', '"']
  | '\\' => ['\\', '\\']
  | '\n' => ['\\', 'n']
  | '\r' => ['\\', 'r']
  | '\t' => ['\\', 't']
  | '\x08' => ['\\', 'b']
  | '\x0c' => ['\\', 'f']
  | c =>
    if c.toNat < 0x20 then '\\' :: 'u' :: padLeft '0' 4 (Nat.toDigits 16 c.toNat) else [c]

/-- A string, quoted. -/
def writeString (s : String) : List Char := '"' :: s.toList.flatMap escapeChar ++ ['"']

mutual

/-- The characters of the JSON form. -/
def write : Datum → List Char
  | .null | .unusable => "null".toList
  | .bool b => (if b then "true" else "false").toList
  | .int n => signed n
  | .float x => writeFloat x
  | .text s => writeString s
  | .list xs => '[' :: writeList xs ++ [']']
  | .table fs => '\x7b' :: writeFields fs ++ ['\x7d']

/-- Elements, with commas between them. -/
def writeList : List Datum → List Char
  | [] => []
  | [d] => write d
  | d :: e :: r => write d ++ ',' :: writeList (e :: r)

/-- Names and values, with commas between them. -/
def writeFields : List (String × Datum) → List Char
  | [] => []
  | [(n, d)] => writeString n ++ ':' :: write d
  | (n, d) :: f :: r => writeString n ++ ':' :: write d ++ ',' :: writeFields (f :: r)

end

/-- The JSON form. -/
def toJson (d : Datum) : String := String.ofList (write d)

end EventTable.Datum
