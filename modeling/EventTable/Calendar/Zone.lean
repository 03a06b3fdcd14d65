/-
  EventTable — time zones with a fixed offset from universal time.

  * `Zone.parse?` reads a zone: `UTC`, `GMT`, `Z`, or an offset such as
    `+02:00`, `-0530`, `+2` or `GMT+2`;
  * `offsetLabel` writes an offset, and is the label of a zone that was given
    as one;
  * `Moment` is a time on the clock of a zone.
-/
import EventTable.Calendar.Date
import EventTable.Number.Numeral
import EventTable.Text.Blank

namespace EventTable.Calendar

open Text Number

/-- A fixed offset, in seconds to the east, and the label that titles show. -/
structure Zone where
  offset : Int := 0
  label : String := "UTC"
  deriving DecidableEq, Repr

/-- Sign, hours and minutes of an offset. -/
def offsetLabel (offset : Int) : String :=
  String.ofList <| (if offset < 0 then '-' else '+') ::
    padded 2 (offset.natAbs / 3600) ++ ':' :: padded 2 (offset.natAbs / 60 % 60)

namespace Zone

/-- What follows a leading `UTC` or `GMT`, or all if there is none. -/
def afterName (cs : List Char) : List Char :=
  ((afterLeading? "UTC".toList cs).or (afterLeading? "GMT".toList cs)).getD cs

/-- The parts of an offset for hours and for minutes: on both sides of a colon,
    two digits each, or hours only. -/
def hoursAndMinutes (cs : List Char) : List Char × List Char :=
  match cut? ':' cs with
  | some parts => parts
  | none => if cs.length = 4 then (cs.take 2, cs.drop 2) else (cs, ['0'])

/-- The zone of an offset with the given sign. -/
def ofOffset? (sign : Int) (cs : List Char) : Option Zone := do
  let (hours, minutes) := hoursAndMinutes cs
  let hours ← boundedInt? 0 23 hours
  let minutes ← boundedInt? 0 59 minutes
  let offset := sign * (hours * 3600 + minutes * 60)
  return ⟨offset, offsetLabel offset⟩

/-- Reads a zone, trimmed and in any case. -/
def parse? (text : String) : Option Zone :=
  match afterName (upperAscii (trimChars text.toList)) with
  | [] | ['Z'] => some {}
  | '+' :: r => ofOffset? 1 r
  | '-' :: r => ofOffset? (-1) r
  | _ => none

end Zone

/-- A time, to the second, on the clock of a zone. -/
structure Moment where
  /-- Seconds since the epoch. -/
  timestamp : Int
  /-- The zone's offset in seconds to the east. -/
  offset : Int
  deriving DecidableEq, Repr

namespace Moment

/-- The times that have a date are those of the years -262143 to 262142. -/
def earliest : Int := -8334601228800

def latest : Int := 8210266876799

/-- A time as the zone shows it, if it has a date. -/
def ofTimestamp? (zone : Zone) (timestamp : Int) : Option Moment :=
  if earliest ≤ timestamp ∧ timestamp ≤ latest then some ⟨timestamp, zone.offset⟩ else none

/-- Seconds since the epoch, as the clock of the zone shows them. -/
def clock (m : Moment) : Int := m.timestamp + m.offset

def date (m : Moment) : Date := .ofDays (m.clock / 86400)

/-- The second of the day. -/
def secondOfDay (m : Moment) : Nat := (m.clock % 86400).toNat

def hour (m : Moment) : Nat := m.secondOfDay / 3600

def minute (m : Moment) : Nat := m.secondOfDay / 60 % 60

def second (m : Moment) : Nat := m.secondOfDay % 60

/-- The hour on a dial of twelve. -/
def hour12 (m : Moment) : Nat := if m.hour % 12 = 0 then 12 else m.hour % 12

end Moment

end EventTable.Calendar
