/-
  EventTable — colour bands for ages.

  A band gives a colour to every age from its threshold on.  Bands are written
  as a list such as `3600:#BB0000,1200:#550000`.

  * `AgeBand.parse?` reads one entry and `AgeBand.parseList` a list, the
    greatest threshold first and equal ones in the order written; entries that
    are no bands are left out;
  * `bandForAge?` is the first band, in the order given, that the age meets.
-/
import EventTable.Text.Blank
import EventTable.Number.Exact
import EventTable.Number.Numeral

namespace EventTable

open Text Number

/-- From `threshold` seconds on, the colour is `color`. -/
structure AgeBand where
  threshold : Int
  color : String
  deriving DecidableEq, Repr

namespace AgeBand

/-- One entry: a 64-bit number of seconds, a colon and a colour that is not
    blank, all trimmed. -/
def parse? (entry : List Char) : Option AgeBand := do
  let (seconds, color) ← cut? ':' entry
  let threshold ← boundedInt? minInt64 maxInt64 (trimChars seconds)
  let color := trimChars color
  if color.isEmpty then none else some ⟨threshold, String.ofList color⟩

/-- The bands of a list, the greatest threshold first. -/
def parseList (text : String) : List AgeBand :=
  ((pieces ',' text.toList).filterMap fun entry => parse? (trimChars entry)).mergeSort
    fun a b => b.threshold ≤ a.threshold

end AgeBand

/-- The first band whose threshold the age meets or exceeds. -/
def bandForAge? (age : Int) (bands : List AgeBand) : Option AgeBand :=
  bands.find? fun b => b.threshold ≤ age

/-- The band for the age that a time has at `now`; the difference wraps around
    where it does not fit in 64 bits. -/
def bandForTime? (now time : Int) (bands : List AgeBand) : Option AgeBand :=
  bandForAge? (wrapInt64 (now - time)) bands

end EventTable
