/-
  EventTable — the versions of TOML.

  `TomlRules` are the points in which texts of TOML 1.0 and TOML 1.1 are read
  differently; all else is common to them.
-/
namespace EventTable.Datum

/-- What a version of TOML allows, and how its texts are understood. -/
structure TomlRules where
  /-- The escape sequences `\e` for the escape character and `\x` with two
      hexadecimal digits. -/
  shortEscapes : Bool
  /-- Inline tables may go over several lines and end with a comma. -/
  inlineLines : Bool
  /-- A time of day may do without seconds, and a fraction of a second that was
      given is shown with one digit at least. -/
  freeSeconds : Bool
  /-- Line ends within strings stay as they are written; otherwise each becomes
      a single line feed. -/
  keepsLineEnds : Bool
  /-- Dotted keys may add to a table that so far only stands in the headers of
      its parts, which then counts as made by them. -/
  joinsImplied : Bool
  /-- Negative numbers beyond the doubles are minus infinity. -/
  negativeOverflow : Bool
  /-- How deep lists and inline tables may be nested, and how many parts a key
      may have. -/
  deepest : Nat

namespace TomlRules

/-- TOML 1.0. -/
def v1_0 : TomlRules where
  shortEscapes := false
  inlineLines := false
  freeSeconds := false
  keepsLineEnds := false
  joinsImplied := false
  negativeOverflow := true
  deepest := 79

/-- TOML 1.1. -/
def v1_1 : TomlRules where
  shortEscapes := true
  inlineLines := true
  freeSeconds := true
  keepsLineEnds := true
  joinsImplied := true
  negativeOverflow := false
  deepest := 80

end TomlRules

end EventTable.Datum
