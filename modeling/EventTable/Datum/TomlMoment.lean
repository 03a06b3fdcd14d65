/-
  EventTable — dates and times of TOML texts.

  A moment is a date, a time of day, or both with an optional offset.  Its
  normal text has a `T` between date and time, and fraction digits (nine at
  most) without zeros at the end.

  * `readMoment?` reads one in front of a text and gives its normal text;
  * `ofMoment` is the value of a moment, told from texts by its only key;
  * `momentsAsTexts?` makes texts of the moments in a value.
-/
import EventTable.Datum.Basic
import EventTable.Datum.TomlRules
import EventTable.Text.Digits

namespace EventTable.Datum

open Text

/-- A number of exactly `count` digits within bounds. -/
def readFixed? (count lo hi : Nat) (cs : List Char) : Option (Nat × List Char) :=
  let ds := cs.take count
  let n := natOfDigits ds
  if ds.length = count ∧ ds.all Char.isDigit ∧ lo ≤ n ∧ n ≤ hi then some (n, cs.drop count)
  else none

/-- The rest of the text after a given character. -/
def after? (c : Char) : List Char → Option (List Char)
  | d :: r => if d = c then some r else none
  | [] => none

/-- The number of days of a month of the Gregorian calendar. -/
def daysOfMonth (year month : Nat) : Nat :=
  if month = 2 then
    if year % 4 = 0 ∧ (year % 100 ≠ 0 ∨ year % 400 = 0) then 29 else 28
  else if month ∈ [4, 6, 9, 11] then 30 else 31

/-- A date. -/
def readDate? (cs : List Char) : Option (List Char × List Char) := do
  let (year, r) ← readFixed? 4 0 9999 cs
  let (month, r) ← readFixed? 2 1 12 (← after? '-' r)
  let (day, r) ← readFixed? 2 1 (daysOfMonth year month) (← after? '-' r)
  return (padded 4 year ++ '-' :: padded 2 month ++ '-' :: padded 2 day, r)

/-- Fraction digits of a second, without zeros at the end. -/
def readSecondFraction (rules : TomlRules) : List Char → List Char × List Char
  | '.' :: r =>
    let ds := r.takeWhile Char.isDigit
    let shown := ((ds.take 9).reverse.dropWhile (· == '0')).reverse
    if ds.isEmpty then ([], '.' :: r)
    else if !shown.isEmpty then ('.' :: shown, r.dropWhile Char.isDigit)
    else (if rules.freeSeconds then ['.', '0'] else [], r.dropWhile Char.isDigit)
  | cs => ([], cs)

/-- A time of day. -/
def readTime? (rules : TomlRules) (cs : List Char) : Option (List Char × List Char) := do
  let (hour, r) ← readFixed? 2 0 23 cs
  let (minute, r) ← readFixed? 2 0 59 (← after? ':' r)
  let shown := padded 2 hour ++ ':' :: padded 2 minute
  match after? ':' r with
  | some r => do
    let (second, r) ← readFixed? 2 0 60 r
    let (fraction, r) := readSecondFraction rules r
    return (shown ++ ':' :: padded 2 second ++ fraction, r)
  | none => if rules.freeSeconds then return (shown, r) else none

/-- An offset from universal time, after a date and a time. -/
def readOffset? : List Char → Option (List Char × List Char)
  | 'Z' :: r | 'z' :: r => some (['Z'], r)
  | c :: r =>
    if c = '+' ∨ c = '-' then do
      let (hour, r) ← readFixed? 2 0 23 r
      let (minute, r) ← readFixed? 2 0 59 (← after? ':' r)
      let sign := if c = '-' ∧ 0 < hour + minute then '-' else '+'
      return (sign :: padded 2 hour ++ ':' :: padded 2 minute, r)
    else some ([], c :: r)
  | [] => some ([], [])

/-- A moment in front of a text, and what follows it. -/
def readMoment? (rules : TomlRules) (cs : List Char) : Option (String × List Char) :=
  match readDate? cs with
  | some (date, r) =>
    match r with
    | 'T' :: r' | 't' :: r' | ' ' :: r' =>
      match readTime? rules r' with
      | some (time, r') => (readOffset? r').map fun (offset, r') =>
          (String.ofList (date ++ 'T' :: time ++ offset), r')
      | none => some (String.ofList date, r)
    | _ => some (String.ofList date, r)
  | none => (readTime? rules cs).map fun (time, r) => (String.ofList time, r)

/-! ## Moments as values -/

/-- The key that tells a moment from other tables. -/
def momentKey : String := "$__toml_private_datetime"

/-- The value of the moment with a normal text. -/
def ofMoment (s : String) : Datum := .table [(momentKey, .text s)]

/-- The normal text of a text that is a moment. -/
def momentText? (rules : TomlRules) : Datum → Option Datum
  | .text s =>
    match readMoment? rules s.toList with
    | some (t, []) => some (.text t)
    | _ => none
  | _ => none

mutual

/-- Makes texts of the moments in a value.  A table is one if the key of
    moments comes first among its keys. -/
def momentsAsTexts? (rules : TomlRules) : Datum → Option Datum
  | .table fs =>
    match fs.lookup momentKey with
    | some d =>
      if fs.all fun f => decide (momentKey ≤ f.1) then momentText? rules d
      else (momentsInFields? rules fs).map .table
    | none => (momentsInFields? rules fs).map .table
  | .list ds => (momentsInList? rules ds).map .list
  | d => some d

def momentsInList? (rules : TomlRules) : List Datum → Option (List Datum)
  | [] => some []
  | d :: r => do
    let d ← momentsAsTexts? rules d
    let r ← momentsInList? rules r
    return d :: r

def momentsInFields? (rules : TomlRules) :
    List (String × Datum) → Option (List (String × Datum))
  | [] => some []
  | (k, d) :: r => do
    let d ← momentsAsTexts? rules d
    let r ← momentsInFields? rules r
    return (k, d) :: r

end

end EventTable.Datum
