/-
  EventTable — reading JSON texts.

  `readJson?` reads one value with nothing but blanks around it, by the JSON
  grammar: no comma after the last element, no leading zeros, no control
  characters within strings.

  * a number without point and exponent is an integer if it fits into 64 bits,
    signed or unsigned; any other number, and `-0`, is the nearest double;
  * a number beyond the doubles and a string with half a surrogate pair are
    well formed but `unusable`; so is a table with such a name;
  * every reading function takes the text and gives back what it leaves.
-/
import EventTable.Datum.Basic
import EventTable.Number.Exact
import EventTable.Number.Numeral

namespace EventTable.Datum

open Text Number

/-- Blanks between the tokens of a JSON text. -/
def isJsonBlank (c : Char) : Bool := c == ' ' || c == '\n' || c == '\t' || c == '\r'

/-- The text without the blanks in front. -/
def skipBlanks (cs : List Char) : List Char := cs.dropWhile isJsonBlank

/-! ## Numbers -/

/-- The number with the given digits, in JSON's number grammar. -/
def numberOf (negative : Bool) (whole fraction : List Char) (exponent : Option Int) : Datum :=
  let asFloat :=
    let x := ofDecimal negative (natOfDigits (whole ++ fraction))
      (exponent.getD 0 - fraction.length)
    if x.isFinite then float x else unusable
  if fraction.isEmpty && exponent.isNone then
    let n := natOfDigits whole
    if negative then if 0 < n ∧ n ≤ twoPow 63 then int (-n) else asFloat
    else if n < twoPow 64 then int n else asFloat
  else asFloat

/-- The digits in front. -/
def digitsAndRest (cs : List Char) : List Char × List Char :=
  (cs.takeWhile Char.isDigit, cs.dropWhile Char.isDigit)

/-- An exponent, if there is one. -/
def readExponent? : List Char → Option (Option Int × List Char)
  | 'e' :: r | 'E' :: r =>
    let (negative, r) := signAndRest r
    let (ds, r) := digitsAndRest r
    if ds.isEmpty then none
    else some (some (if negative then -(natOfDigits ds : Int) else natOfDigits ds), r)
  | cs => some (none, cs)

/-- Fraction digits, if there is a point. -/
def readFraction? : List Char → Option (List Char × List Char)
  | '.' :: r =>
    let (ds, r) := digitsAndRest r
    if ds.isEmpty then none else some (ds, r)
  | cs => some ([], cs)

/-- A number. -/
def readNumber? (cs : List Char) : Option (Datum × List Char) := do
  let (negative, r) := match cs with
    | '-' :: r => (true, r)
    | _ => (false, cs)
  let (whole, r) := digitsAndRest r
  if whole.isEmpty || (whole.length > 1 && whole.head? == some '0') then none
  else
    let (fraction, r) ← readFraction? r
    let (exponent, r) ← readExponent? r
    return (numberOf negative whole fraction exponent, r)

/-! ## Strings -/

/-- Four hexadecimal digits. -/
def readHex4? : List Char → Option (Nat × List Char)
  | a :: b :: c :: d :: r => (hexDigits? 0 [a, b, c, d]).map (·, r)
  | _ => none

/-- A part of a string: a character, or half of a surrogate pair. -/
inductive StringPart where
  | char (c : Char)
  | half

/-- What a backslash and the following characters stand for. -/
def readEscape? : List Char → Option (StringPart × List Char)
  | '"' :: r => some (.char '"', r)
  | '\\' :: r => some (.char '\\', r)
  | '/' :: r => some (.char '/', r)
  | 'b' :: r => some (.char '\x08', r)
  | 'f' :: r => some (.char '\x0c', r)
  | 'n' :: r => some (.char '\n', r)
  | 'r' :: r => some (.char '\r', r)
  | 't' :: r => some (.char '\t', r)
  | 'u' :: r => do
    let (high, r) ← readHex4? r
    if 0xD800 ≤ high ∧ high < 0xDC00 then
      match r with
      | '\\' :: 'u' :: r' => do
        let (low, r'') ← readHex4? r'
        if 0xDC00 ≤ low ∧ low < 0xE000 then
          return (.char (Char.ofNat (0x10000 + (high - 0xD800) * 0x400 + (low - 0xDC00))), r'')
        else return (.half, r)
      | _ => return (.half, r)
    else if 0xDC00 ≤ high ∧ high < 0xE000 then return (.half, r)
    else return (.char (Char.ofNat high), r)
  | _ => none

/-- The characters of a string up to its closing quote; the result is none of
    a string with half a surrogate pair. -/
def readString? : (fuel : Nat) → List Char → Option (Option (List Char) × List Char)
  | 0, _ => none
  | _ + 1, [] => none
  | _ + 1, '"' :: r => some (some [], r)
  | fuel + 1, '\\' :: r => do
    let (part, r) ← readEscape? r
    let (cs, r) ← readString? fuel r
    match part with
    | .char c => return (cs.map (c :: ·), r)
    | .half => return (none, r)
  | fuel + 1, c :: r =>
    if c.toNat < 0x20 then none
    else do
      let (cs, r) ← readString? fuel r
      return (cs.map (c :: ·), r)

/-! ## Values -/

mutual

/-- A value, after blanks. -/
def readValue? : (fuel : Nat) → List Char → Option (Datum × List Char)
  | 0, _ => none
  | fuel + 1, cs =>
    match skipBlanks cs with
    | '"' :: r => do
      let (s, r) ← readString? fuel r
      return (match s with
        | some s => text (String.ofList s)
        | none => unusable, r)
    | '[' :: r =>
      match skipBlanks r with
      | ']' :: r => some (list [], r)
      | r => do
        let (xs, r) ← readElements? fuel r
        return (list xs, r)
    | '\x7b' :: r =>
      match skipBlanks r with
      | '\x7d' :: r => some (table [], r)
      | r => do
        let (fs, r) ← readFields? fuel r
        return (match fs with
          | some fs => table fs
          | none => unusable, r)
    | 't' :: 'r' :: 'u' :: 'e' :: r => some (bool true, r)
    | 'f' :: 'a' :: 'l' :: 's' :: 'e' :: r => some (bool false, r)
    | 'n' :: 'u' :: 'l' :: 'l' :: r => some (null, r)
    | cs => readNumber? cs

/-- The elements of a list up to its closing bracket. -/
def readElements? : (fuel : Nat) → List Char → Option (List Datum × List Char)
  | 0, _ => none
  | fuel + 1, cs => do
    let (d, r) ← readValue? fuel cs
    match skipBlanks r with
    | ',' :: r => do
      let (ds, r) ← readElements? fuel r
      return (d :: ds, r)
    | ']' :: r => return ([d], r)
    | _ => none

/-- The fields of a table up to its closing brace; none of a table with an
    unusable name. -/
def readFields? : (fuel : Nat) → List Char → Option (Option (List (String × Datum)) × List Char)
  | 0, _ => none
  | fuel + 1, cs =>
    match skipBlanks cs with
    | '"' :: r => do
      let (name, r) ← readString? fuel r
      match skipBlanks r with
      | ':' :: r => do
        let (d, r) ← readValue? fuel r
        let field := name.map fun n => (String.ofList n, d)
        match skipBlanks r with
        | ',' :: r => do
          let (fs, r) ← readFields? fuel r
          return (do let f ← field; let fs ← fs; return f :: fs, r)
        | '\x7d' :: r => return (field.map ([·]), r)
        | _ => none
      | _ => none
    | _ => none

end

/-- The value of a JSON text. -/
def readJson? (text : String) : Option Datum := do
  let cs := text.toList
  let (d, r) ← readValue? (2 * cs.length + 2) cs
  if (skipBlanks r).isEmpty then some d else none

end EventTable.Datum
