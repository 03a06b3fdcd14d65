/-
  EventTable — patterns for dates and times, such as `%Y/%m/%d %H:%M:%S`.

  A percent sign starts a specifier; everything else stands for itself.  A
  numeric specifier may have `-`, `_` or `0` after the percent sign: no
  padding, blanks or zeros.

  * `Item` is what a specifier stands for, and `items?` reads a pattern; an
    unknown or incomplete specifier makes the whole pattern unreadable;
  * `Item.write` shows an item of a time;
  * `format?` shows a time by a pattern.
-/
import EventTable.Calendar.Zone

namespace EventTable.Calendar

open Text

/-- How a number is filled up to its width. -/
inductive Padding where
  | none | zeros | blanks
  deriving DecidableEq, Repr

/-- The numbers of a time. -/
inductive NumberItem where
  | year | century | yearOfCentury | isoYear | isoYearOfCentury | quarter | month | day
  | weekFromSunday | weekFromMonday | isoWeek | weekdayFromSunday | weekdayFromMonday | dayOfYear
  | hour | hour12 | minute | second | nanosecond | timestamp
  deriving DecidableEq, Repr

/-- What a specifier stands for. -/
inductive Item where
  | literal (c : Char)
  | number (n : NumberItem) (padding : Padding)
  | monthName (short : Bool)
  | weekdayName (short : Bool)
  /-- Before or after noon. -/
  | halfOfDay (lower : Bool)
  /-- A fraction of a second with so many digits, after a point or not. -/
  | fraction (point : Bool) (places : Nat)
  /-- The offset of the zone. -/
  | offset (minutes seconds colons : Bool)
  deriving DecidableEq, Repr

/-! ## Writing -/

/-- A number below 100 in two places. -/
def twoPlaces (p : Padding) (n : Nat) : List Char :=
  let ones := Char.ofNat ('0'.toNat + n % 10)
  if n / 10 = 0 then
    match p with
    | .none => [ones]
    | .blanks => [' ', ones]
    | .zeros => ['0', ones]
  else [Char.ofNat ('0'.toNat + n / 10), ones]

/-- An integer, filled up to a width; `plus` asks for a sign in any case, which
    takes a place of its own. -/
def fill (p : Padding) (width : Nat) (plus : Bool) (n : Int) : List Char :=
  let sign := if n < 0 then ['-'] else if plus then ['+'] else []
  let width := if plus then width + 1 else width
  match p with
  | .none => sign ++ digits n.natAbs
  | .zeros => sign ++ padded (width - sign.length) n.natAbs
  | .blanks => padLeft ' ' width (sign ++ digits n.natAbs)

/-- A year in four places, with a sign before year 0 and after year 9999. -/
def writeYear (p : Padding) (year : Int) : List Char :=
  fill p 4 (!(0 ≤ year && year < 10000)) year

/-- A number of a time, filled up. -/
def NumberItem.write (n : NumberItem) (p : Padding) (m : Moment) : List Char :=
  let d := m.date
  match n with
  | year => writeYear p d.year
  | century => twoPlaces p (d.year / 100 % 256).toNat
  | yearOfCentury => twoPlaces p (d.year % 100).toNat
  | isoYear => writeYear p d.isoWeek.1
  | isoYearOfCentury => twoPlaces p (d.isoWeek.1 % 100).toNat
  | quarter => digits d.quarter
  | month => twoPlaces p d.month
  | day => twoPlaces p d.day
  | weekFromSunday => twoPlaces p (d.weekFrom 6)
  | weekFromMonday => twoPlaces p (d.weekFrom 0)
  | isoWeek => twoPlaces p d.isoWeek.2
  | weekdayFromSunday => digits (d.daysSince 6)
  | weekdayFromMonday => digits (d.weekday + 1)
  | dayOfYear => fill p 3 false d.ordinal
  | hour => twoPlaces p m.hour
  | hour12 => twoPlaces p m.hour12
  | minute => twoPlaces p m.minute
  | second => twoPlaces p m.second
  | nanosecond => fill p 9 false 0
  | timestamp => fill p 9 false m.timestamp

def monthNames : List String :=
  ["January", "February", "March", "April", "May", "June", "July", "August", "September",
    "October", "November", "December"]

def weekdayNames : List String :=
  ["Monday", "Tuesday", "Wednesday", "Thursday", "Friday", "Saturday", "Sunday"]

/-- The name with a given number, or its first three letters. -/
def nameOf (names : List String) (short : Bool) (n : Nat) : List Char :=
  let name := (names.getD n "").toList
  if short then name.take 3 else name

/-- An offset with sign and hours, and minutes and seconds if asked for. -/
def writeOffset (minutes seconds colons : Bool) (offset : Int) : List Char :=
  let n := offset.natAbs
  let colon := if colons then [':'] else []
  (if offset < 0 then '-' else '+') :: padded 2 (n / 3600) ++
    (if minutes then colon ++ padded 2 (n / 60 % 60) else []) ++
    (if seconds then colon ++ padded 2 (n % 60) else [])

/-- An item of a time.  Times are whole seconds, so that a fraction has only
    zeros. -/
def Item.write (m : Moment) : Item → List Char
  | literal c => [c]
  | number n p => n.write p m
  | monthName short => nameOf monthNames short (m.date.month - 1)
  | weekdayName short => nameOf weekdayNames short m.date.weekday
  | halfOfDay lower =>
    match lower, decide (m.hour < 12) with
    | true, true => ['a', 'm']
    | true, false => ['p', 'm']
    | false, true => ['A', 'M']
    | false, false => ['P', 'M']
  | fraction point places => (if point then ['.'] else []) ++ List.replicate places '0'
  | offset minutes seconds colons => writeOffset minutes seconds colons m.offset

/-! ## Reading -/

/-- The number that a letter stands for, and its usual padding. -/
def numberOf? : Char → Option (NumberItem × Padding)
  | 'Y' => some (.year, .zeros)
  | 'C' => some (.century, .zeros)
  | 'y' => some (.yearOfCentury, .zeros)
  | 'G' => some (.isoYear, .zeros)
  | 'g' => some (.isoYearOfCentury, .zeros)
  | 'q' => some (.quarter, .none)
  | 'm' => some (.month, .zeros)
  | 'd' => some (.day, .zeros)
  | 'e' => some (.day, .blanks)
  | 'U' => some (.weekFromSunday, .zeros)
  | 'W' => some (.weekFromMonday, .zeros)
  | 'V' => some (.isoWeek, .zeros)
  | 'w' => some (.weekdayFromSunday, .none)
  | 'u' => some (.weekdayFromMonday, .none)
  | 'j' => some (.dayOfYear, .zeros)
  | 'H' => some (.hour, .zeros)
  | 'k' => some (.hour, .blanks)
  | 'I' => some (.hour12, .zeros)
  | 'l' => some (.hour12, .blanks)
  | 'M' => some (.minute, .zeros)
  | 'S' => some (.second, .zeros)
  | 'f' => some (.nanosecond, .zeros)
  | 's' => some (.timestamp, .none)
  | _ => none

/-- Numbers in two places with a character between them. -/
def joined (separator : Char) : List NumberItem → List Item
  | [] => []
  | [n] => [.number n .zeros]
  | n :: r => .number n .zeros :: .literal separator :: joined separator r

/-- Hours, minutes and seconds. -/
def clockItems : List Item := joined ':' [.hour, .minute, .second]

/-- What any other letter stands for. -/
def lettered? : Char → Option (List Item)
  | 'A' => some [.weekdayName false]
  | 'a' => some [.weekdayName true]
  | 'B' => some [.monthName false]
  | 'b' | 'h' => some [.monthName true]
  | 'p' => some [.halfOfDay false]
  | 'P' => some [.halfOfDay true]
  | 'Z' => some [.offset true false true]
  | 'z' => some [.offset true false false]
  | 'n' => some [.literal '\n']
  | 't' => some [.literal '\t']
  | '%' => some [.literal '%']
  | 'D' | 'x' => some (joined '/' [.month, .day, .yearOfCentury])
  | 'F' => some (joined '-' [.year, .month, .day])
  | 'R' => some (joined ':' [.hour, .minute])
  | 'T' | 'X' => some clockItems
  | 'r' => some (joined ':' [.hour12, .minute, .second] ++ [.literal ' ', .halfOfDay false])
  | 'v' => some [.number .day .blanks, .literal '-', .monthName true, .literal '-',
      .number .year .zeros]
  | 'c' => some ([.weekdayName true, .literal ' ', .monthName true, .literal ' ',
      .number .day .blanks, .literal ' '] ++ clockItems ++ [.literal ' ', .number .year .zeros])
  | '+' => some (joined '-' [.year, .month, .day] ++ .literal 'T' :: clockItems ++
      [.offset true false true])
  | _ => none

/-- What the characters after a percent sign stand for, and what follows them. -/
def specifier? : List Char → Option (List Item × List Char)
  | [] => none
  | '-' :: c :: r => (numberOf? c).map fun (n, _) => ([.number n .none], r)
  | '_' :: c :: r => (numberOf? c).map fun (n, _) => ([.number n .blanks], r)
  | '0' :: c :: r => (numberOf? c).map fun (n, _) => ([.number n .zeros], r)
  | ':' :: ':' :: ':' :: 'z' :: r => some ([.offset false false false], r)
  | ':' :: ':' :: 'z' :: r => some ([.offset true true true], r)
  | ':' :: 'z' :: r => some ([.offset true false true], r)
  | '.' :: 'f' :: r => some ([], r)
  | '.' :: '3' :: 'f' :: r => some ([.fraction true 3], r)
  | '.' :: '6' :: 'f' :: r => some ([.fraction true 6], r)
  | '.' :: '9' :: 'f' :: r => some ([.fraction true 9], r)
  | '3' :: 'f' :: r => some ([.fraction false 3], r)
  | '6' :: 'f' :: r => some ([.fraction false 6], r)
  | '9' :: 'f' :: r => some ([.fraction false 9], r)
  | c :: r =>
    match numberOf? c with
    | some (n, p) => some ([.number n p], r)
    | none => (lettered? c).map (·, r)

theorem length_lt_of_specifier? {cs r : List Char} {is : List Item}
    (h : specifier? cs = some (is, r)) : r.length < cs.length := by
  revert h
  fun_cases specifier? cs <;> intro h <;> simp_all
  all_goals grind

/-- The items of a pattern. -/
def items? : List Char → Option (List Item)
  | [] => some []
  | c :: r =>
    if c = '%' then
      match h : specifier? r with
      | some (is, r') =>
        have := length_lt_of_specifier? h
        (items? r').map (is ++ ·)
      | none => none
    else (items? r).map (.literal c :: ·)
  termination_by cs => cs.length

/-- A time, shown by a pattern; none if the pattern is not readable. -/
def format? (m : Moment) (pattern : List Char) : Option (List Char) :=
  (items? pattern).map fun is => is.flatMap (Item.write m)

end EventTable.Calendar
