/-
  EventTable — reading TOML texts.

  `readToml?` reads a text by the rules of a version of TOML.  The result is a
  table; its dates and times are values of their own (`ofMoment`).

  * numbers keep their values: integers must fit into 64 signed bits, floats
    are the nearest doubles and must not exceed them;
  * lists and inline tables are nested only so deep, and keys have only so many
    parts (`TomlRules.deepest`);
  * every reading function takes the text and gives back what it leaves.
-/
import EventTable.Datum.TomlMoment
import EventTable.Datum.TomlRules
import EventTable.Datum.TomlTable
import EventTable.Number.Exact
import EventTable.Number.Numeral

namespace EventTable.Datum

open Text Number

/-! ## Blanks, comments and line ends -/

/-- Blanks within a line. -/
def isTomlBlank (c : Char) : Bool := c == ' ' || c == '\t'

/-- Characters that may stand in comments and strings. -/
def isTomlText (c : Char) : Bool := c == '\t' || (0x20 ≤ c.toNat && c != '\x7f')

/-- The text without the blanks in front. -/
def skipTomlBlanks (cs : List Char) : List Char := cs.dropWhile isTomlBlank

/-- What follows a line end. -/
def afterNewline? : List Char → Option (List Char)
  | '\n' :: r => some r
  | '\r' :: '\n' :: r => some r
  | _ => none

/-- The line end in front of a text as it counts within a string, and what
    follows it. -/
def readNewline? (rules : TomlRules) : List Char → Option (List Char × List Char)
  | '\n' :: r => some (['\n'], r)
  | '\r' :: '\n' :: r => some (if rules.keepsLineEnds then ['\r', '\n'] else ['\n'], r)
  | _ => none

/-- What follows a comment, if there is one. -/
def skipComment : List Char → List Char
  | '#' :: r => r.dropWhile isTomlText
  | cs => cs

/-- What follows blanks, an optional comment and a line end or the end of the
    text. -/
def endLine? (cs : List Char) : Option (List Char) :=
  match skipComment (skipTomlBlanks cs) with
  | [] => some []
  | r => afterNewline? r

/-- Skips blanks, comments and line ends; a comment must end with its line. -/
def skipLines? : (fuel : Nat) → List Char → Option (List Char)
  | 0, cs => some cs
  | fuel + 1, cs =>
    match skipTomlBlanks cs with
    | '#' :: r => do skipLines? fuel (← afterNewline? (r.dropWhile isTomlText))
    | r =>
      match afterNewline? r with
      | some r => skipLines? fuel r
      | none => some r

/-- Skips what may stand between the parts of an inline table. -/
def skipInline? (rules : TomlRules) (cs : List Char) : Option (List Char) :=
  if rules.inlineLines then skipLines? cs.length cs else some (skipTomlBlanks cs)

/-! ## Strings -/

/-- A character given by `count` hexadecimal digits. -/
def readCodePoint? (count : Nat) (cs : List Char) : Option (Char × List Char) := do
  if (cs.take count).length = count then
    let n ← hexDigits? 0 (cs.take count)
    if n < 0xD800 ∨ (0xE000 ≤ n ∧ n < 0x110000) then some (Char.ofNat n, cs.drop count) else none
  else none

/-- The character that an escape sequence stands for. -/
def readTomlEscape? (rules : TomlRules) : List Char → Option (Char × List Char)
  | 'b' :: r => some ('\x08', r)
  | 't' :: r => some ('\t', r)
  | 'n' :: r => some ('\n', r)
  | 'f' :: r => some ('\x0c', r)
  | 'r' :: r => some ('\r', r)
  | '"' :: r => some ('"', r)
  | '\\' :: r => some ('\\', r)
  | 'u' :: r => readCodePoint? 4 r
  | 'U' :: r => readCodePoint? 8 r
  | 'e' :: r => if rules.shortEscapes then some ('\x1b', r) else none
  | 'x' :: r => if rules.shortEscapes then readCodePoint? 2 r else none
  | _ => none

/-- The rest of a string on one line. -/
def readBasic? (rules : TomlRules) :
    (fuel : Nat) → List Char → Option (List Char × List Char)
  | 0, _ => none
  | _ + 1, [] => none
  | _ + 1, '"' :: r => some ([], r)
  | fuel + 1, '\\' :: r => do
    let (c, r) ← readTomlEscape? rules r
    let (s, r) ← readBasic? rules fuel r
    return (c :: s, r)
  | fuel + 1, c :: r =>
    if isTomlText c then (readBasic? rules fuel r).map fun (s, r) => (c :: s, r) else none

/-- The rest of a literal string on one line. -/
def readLiteral? : List Char → Option (List Char × List Char)
  | [] => none
  | c :: r =>
    if c = '\'' then some ([], r)
    else if isTomlText c then (readLiteral? r).map fun (s, r) => (c :: s, r) else none

/-- Skips blanks and line ends. -/
def skipBlankLines : (fuel : Nat) → List Char → List Char
  | 0, cs => cs
  | fuel + 1, cs =>
    match afterNewline? (skipTomlBlanks cs) with
    | some r => skipBlankLines fuel r
    | none => skipTomlBlanks cs

/-- The number of copies of `c` in front. -/
def runLength (c : Char) (cs : List Char) : Nat := (cs.takeWhile (· == c)).length

/-- The rest of a string over several lines, up to three quotes; one or two
    quotes are part of it.  A backslash at a line end skips to the next
    character that is not blank (`escapes`). -/
def readLines? (rules : TomlRules) (quote : Char) (escapes : Bool) :
    (fuel : Nat) → List Char → Option (List Char × List Char)
  | 0, _ => none
  | _ + 1, [] => none
  | fuel + 1, c :: r =>
    if c = quote then
      let n := runLength quote (c :: r)
      if 3 ≤ n then
        let inside := min (n - 3) 2
        some (List.replicate inside quote, (c :: r).drop (inside + 3))
      else (readLines? rules quote escapes fuel r).map fun (s, r) => (c :: s, r)
    else if escapes && c == '\\' then
      match afterNewline? (skipTomlBlanks r) with
      | some r' => readLines? rules quote escapes fuel (skipBlankLines r'.length r')
      | none => do
        let (c, r) ← readTomlEscape? rules r
        let (s, r) ← readLines? rules quote escapes fuel r
        return (c :: s, r)
    else
      match readNewline? rules (c :: r) with
      | some (newline, r') =>
        (readLines? rules quote escapes fuel r').map fun (s, r) => (newline ++ s, r)
      | none =>
        if isTomlText c then (readLines? rules quote escapes fuel r).map fun (s, r) => (c :: s, r)
        else none

/-- A line end directly after the opening quotes is not part of a string. -/
def skipFirstNewline (cs : List Char) : List Char := (afterNewline? cs).getD cs

/-- A string, from its opening quote on. -/
def readTomlString? (rules : TomlRules) (cs : List Char) : Option (List Char × List Char) :=
  match cs with
  | '"' :: '"' :: '"' :: r => readLines? rules '"' true cs.length (skipFirstNewline r)
  | '\'' :: '\'' :: '\'' :: r => readLines? rules '\'' false cs.length (skipFirstNewline r)
  | '"' :: r => readBasic? rules cs.length r
  | '\'' :: r => readLiteral? r
  | _ => none

/-! ## Keys -/

/-- Characters of a key without quotes. -/
def isBareKeyChar (c : Char) : Bool := c.isAlphanum || c == '_' || c == '-'

/-- A key without quotes in front of a text. -/
def readBareKey? (cs : List Char) : Option (String × List Char) :=
  let key := cs.takeWhile isBareKeyChar
  if key.isEmpty then none else some (String.ofList key, cs.dropWhile isBareKeyChar)

/-- One part of a key. -/
def readKeyPart? (rules : TomlRules) (cs : List Char) : Option (String × List Char) :=
  match cs with
  | '"' :: r => (readBasic? rules cs.length r).map fun (s, r) => (String.ofList s, r)
  | '\'' :: r => (readLiteral? r).map fun (s, r) => (String.ofList s, r)
  | _ => readBareKey? cs

/-- A key of some parts at most, with blanks around them: the path, and the
    last part. -/
def readKeyParts? (rules : TomlRules) :
    (parts : Nat) → List Char → Option ((List String × String) × List Char)
  | 0, _ => none
  | parts + 1, cs => do
    let (part, r) ← readKeyPart? rules (skipTomlBlanks cs)
    match skipTomlBlanks r with
    | '.' :: r => do
      let ((path, last), r) ← readKeyParts? rules parts r
      return ((part :: path, last), r)
    | r => return (([], part), r)

/-- A key: the path, and the last part. -/
def readKey? (rules : TomlRules) (cs : List Char) :
    Option ((List String × String) × List Char) :=
  readKeyParts? rules rules.deepest cs

/-! ## Numbers -/

/-- Digits of a kind, with single underscores between them. -/
def readDigits? (isDigit : Char → Bool) : List Char → Option (List Char × List Char)
  | [] => none
  | c :: r =>
    if isDigit c then
      match r with
      | '_' :: r' => (readDigits? isDigit r').map fun (ds, r) => (c :: ds, r)
      | d :: r' => if isDigit d then (readDigits? isDigit (d :: r')).map fun (ds, r) => (c :: ds, r)
          else some ([c], d :: r')
      | [] => some ([c], [])
    else none

/-- The value of digits in base 2, 8 or 16. -/
def inBase (base : Nat) (ds : List Char) : Nat :=
  ds.foldl (fun n c => base * n + (hexValue? c).getD 0) 0

/-- An integer, if it fits. -/
def fittingInt? (n : Int) : Option Datum :=
  if minInt64 ≤ n ∧ n ≤ maxInt64 then some (int n) else none

/-- A float; it must not exceed the doubles. -/
def fittingFloat? (rules : TomlRules) (x : Float) : Option Datum :=
  if x.isInf && !(rules.negativeOverflow && x < 0.0) then none else some (float x)

/-- An exponent, if there is one. -/
def readTomlExponent? : List Char → Option (Option Int × List Char)
  | 'e' :: r | 'E' :: r => do
    let (negative, r) := signAndRest r
    let (ds, r) ← readDigits? Char.isDigit r
    return (some (if negative then -(natOfDigits ds : Int) else natOfDigits ds), r)
  | cs => some (none, cs)

/-- A number in decimal. -/
def readDecimal? (rules : TomlRules) (cs : List Char) : Option (Datum × List Char) := do
  let (negative, r) := signAndRest cs
  if startsWith "inf".toList r then
    return (float (if negative then -infinity else infinity), r.drop 3)
  else if startsWith "nan".toList r then
    return (float nan, r.drop 3)
  else
    let (whole, r) ← match r with
      | '0' :: r => some (['0'], r)
      | r => readDigits? Char.isDigit r
    let (fraction, r) ← match r with
      | '.' :: r => (readDigits? Char.isDigit r).map fun (ds, r) => (some ds, r)
      | r => some (none, r)
    let (exponent, r) ← readTomlExponent? r
    if fraction.isNone && exponent.isNone then
      let n : Int := natOfDigits whole
      return (← fittingInt? (if negative then -n else n), r)
    else
      let fraction := fraction.getD []
      let x := ofDecimal negative (natOfDigits (whole ++ fraction))
        (exponent.getD 0 - fraction.length)
      return (← fittingFloat? rules x, r)

/-- A number in decimal, or an integer in base 16, 8 or 2. -/
def readTomlNumber? (rules : TomlRules) : List Char → Option (Datum × List Char)
  | '0' :: 'x' :: r => do
    let (ds, r) ← readDigits? (fun c => (hexValue? c).isSome) r
    return (← fittingInt? (inBase 16 ds), r)
  | '0' :: 'o' :: r => do
    let (ds, r) ← readDigits? (fun c => '0' ≤ c && c ≤ '7') r
    return (← fittingInt? (inBase 8 ds), r)
  | '0' :: 'b' :: r => do
    let (ds, r) ← readDigits? (fun c => c == '0' || c == '1') r
    return (← fittingInt? (inBase 2 ds), r)
  | cs => readDecimal? rules cs

/-! ## Values -/

mutual

/-- A value, from its first character on; `depth` is how deep it may be
    nested. -/
def readTomlValue? (rules : TomlRules) :
    (fuel depth : Nat) → List Char → Option (Datum × List Char)
  | 0, _, _ => none
  | fuel + 1, depth, cs =>
    match cs with
    | '"' :: _ | '\'' :: _ =>
      (readTomlString? rules cs).map fun (s, r) => (text (String.ofList s), r)
    | '[' :: r =>
      if depth = 0 then none
      else (readTomlElements? rules fuel (depth - 1) r).map fun (xs, r) => (list xs, r)
    | '\x7b' :: r =>
      if depth = 0 then none
      else do
        match ← skipInline? rules r with
        | '\x7d' :: r => return (table [], r)
        | r => do
          let (fs, r) ← readInline? rules fuel (depth - 1) [] r
          return (table (TomlNode.fieldsToDatum fs), r)
    | 't' :: 'r' :: 'u' :: 'e' :: r => some (bool true, r)
    | 'f' :: 'a' :: 'l' :: 's' :: 'e' :: r => some (bool false, r)
    | _ =>
      match readMoment? rules cs with
      | some (s, r) => some (ofMoment s, r)
      | none => readTomlNumber? rules cs

/-- The elements of a list up to its closing bracket. -/
def readTomlElements? (rules : TomlRules) :
    (fuel depth : Nat) → List Char → Option (List Datum × List Char)
  | 0, _, _ => none
  | fuel + 1, depth, cs => do
    match ← skipLines? cs.length cs with
    | ']' :: r => return ([], r)
    | r => do
      let (d, r) ← readTomlValue? rules fuel depth r
      match ← skipLines? r.length r with
      | ',' :: r => do
        let (ds, r) ← readTomlElements? rules fuel depth r
        return (d :: ds, r)
      | ']' :: r => return ([d], r)
      | _ => none

/-- The keys and values of an inline table up to its closing brace, from a key
    on, added to the ones before. -/
def readInline? (rules : TomlRules) :
    (fuel depth : Nat) → TomlFields → List Char → Option (TomlFields × List Char)
  | 0, _, _, _ => none
  | fuel + 1, depth, fs, cs => do
    let ((path, key), r) ← readKey? rules cs
    let r ← after? '=' (← skipInline? rules r)
    let (d, r) ← readTomlValue? rules fuel depth (← skipInline? rules r)
    let fs ← assign? rules path key d .header fs
    match ← skipInline? rules r with
    | ',' :: r => do
      match ← skipInline? rules r with
      | '\x7d' :: r => if rules.inlineLines then return (fs, r) else none
      | r => readInline? rules fuel depth fs r
    | '\x7d' :: r => return (fs, r)
    | _ => none

end

/-! ## Texts -/

/-- Reads line after line; `current` is the path of the table that the keys
    belong to. -/
def readTomlLines? (rules : TomlRules) :
    (fuel : Nat) → (current : List String) → TomlFields → List Char → Option TomlFields
  | 0, _, _, _ => none
  | fuel + 1, current, root, cs =>
    match skipTomlBlanks cs with
    | [] => some root
    | '#' :: _ | '\n' :: _ | '\r' :: _ => do
      readTomlLines? rules fuel current root (← endLine? cs)
    | '[' :: '[' :: r => do
      let ((path, key), r) ← readKey? rules r
      let r ← endLine? (← after? ']' (← after? ']' r))
      readTomlLines? rules fuel (path ++ [key]) (← openElement? path key root) r
    | '[' :: r => do
      let ((path, key), r) ← readKey? rules r
      let r ← endLine? (← after? ']' r)
      readTomlLines? rules fuel (path ++ [key]) (← openTable? path key root) r
    | r => do
      let ((path, key), r) ← readKey? rules r
      let r := skipTomlBlanks (← after? '=' r)
      let (d, r) ← readTomlValue? rules (2 * r.length + 2) rules.deepest r
      let root ← changeAt? .header (assign? rules path key d) current .header root
      readTomlLines? rules fuel current root (← endLine? r)

/-- The table that a TOML text describes. -/
def readToml? (rules : TomlRules) (text : String) : Option Datum :=
  let cs := match text.toList with
    | '\uFEFF' :: r => r
    | cs => cs
  (readTomlLines? rules (cs.length + 1) [] [] cs).map fun fs =>
    table (TomlNode.fieldsToDatum fs)

end EventTable.Datum
