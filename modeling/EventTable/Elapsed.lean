/-
  EventTable — spans of time in seconds, in the formats that columns ask for.

  * `ElapsedFormat.ofArgument` is the format that a column argument names, by
    a leading digit or by a pattern word;
  * `ElapsedFormat.write` shows a span; a negative span is shown as zero;
  * hours are never capped, and take two digits at least where minutes follow.
-/
import EventTable.Number.Render

namespace EventTable

open Text Number

/-- The ways to show a span of time. -/
inductive ElapsedFormat where
  /-- Seconds, as in `3661`. -/
  | seconds
  /-- Hours, minutes and seconds, as in `01:01:01`. -/
  | hoursMinutesSeconds
  /-- Hours and whole minutes, as in `01:01`. -/
  | hoursMinutes
  /-- Hours with two places, as in `1.02`. -/
  | hoursHundredths
  /-- Hours with one place, as in `1.0`. -/
  | hoursTenths
  deriving DecidableEq, Repr

namespace ElapsedFormat

/-- The words, in lower case, that name a format. -/
def words : List (String × ElapsedFormat) :=
  [("ss", seconds), ("s", seconds), ("hhmmss", hoursMinutesSeconds),
    ("hms", hoursMinutesSeconds), ("hh:mm:ss", hoursMinutesSeconds), ("hhmm", hoursMinutes),
    ("hm", hoursMinutes), ("hh:mm", hoursMinutes), ("hhh.hh", hoursHundredths),
    ("hh.hh", hoursHundredths), ("h.hh", hoursHundredths), ("hhh.h", hoursTenths),
    ("hh.h", hoursTenths), ("h.h", hoursTenths)]

/-- The format that a word names; every word with the start `sec` means
    seconds. -/
def ofWord? (word : List Char) : Option ElapsedFormat :=
  if startsWith "sec".toList word then some seconds else words.lookup (String.ofList word)

/-- The format that an argument names, by its first characters or as a word;
    `default` if it is blank or names none. -/
def ofArgument (argument : String) (default : ElapsedFormat) : ElapsedFormat :=
  match trimChars argument.toList with
  | '-' :: '1' :: _ => seconds
  | '0' :: _ => hoursMinutesSeconds
  | '1' :: _ => hoursMinutes
  | '2' :: _ => hoursHundredths
  | '3' :: _ => hoursTenths
  | cs => (ofWord? (lowerAscii cs)).getD default

/-- Seconds as a fraction of hours. -/
def hours (n : Nat) : Float := Float.ofNat n / 3600.0

/-- Hours and minutes. -/
def writeHoursMinutes (n : Nat) : List Char :=
  padded 2 (n / 3600) ++ ':' :: padded 2 (n % 3600 / 60)

/-- A span of `n` seconds. -/
def writeNat (n : Nat) : ElapsedFormat → String
  | seconds => String.ofList (digits n)
  | hoursMinutesSeconds => String.ofList (writeHoursMinutes n ++ ':' :: padded 2 (n % 60))
  | hoursMinutes => String.ofList (writeHoursMinutes n)
  | hoursHundredths => formatNumber (hours n) "2" "0.00"
  | hoursTenths => formatNumber (hours n) "1" "0.0"

/-- A span in seconds; a negative one is shown as zero. -/
def write (f : ElapsedFormat) (span : Int) : String := f.writeNat span.toNat

end ElapsedFormat

end EventTable
