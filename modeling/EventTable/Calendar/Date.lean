/-
  EventTable — dates of the Gregorian calendar, for any day before or after
  the epoch.

  * `Date.ofDays` is the date so many days after 1 January 1970;
  * `Date.weekday` counts from Monday, `Date.ordinal` is the day of the year;
  * `Date.weekFrom` is the week of the year, with weeks that start on a given
    weekday; `Date.isoWeek` is the year and week of ISO 8601, where a week
    belongs to the year that holds its Thursday.
-/
namespace EventTable.Calendar

/-- A day of the Gregorian calendar, continued backward. -/
structure Date where
  year : Int
  month : Nat
  day : Nat
  /-- Days after 1 January 1970. -/
  days : Int
  deriving DecidableEq, Repr

def isLeapYear (year : Int) : Bool := year % 4 == 0 && (year % 100 != 0 || year % 400 == 0)

/-- The days of the year before the first of each month, in a common year. -/
def daysBeforeMonth : List Nat := [0, 31, 59, 90, 120, 151, 181, 212, 243, 273, 304, 334]

namespace Date

/-- The date so many days after 1 January 1970.  Years are counted from March,
    so that a leap day is the last of its year, and in eras of 400 years. -/
def ofDays (days : Int) : Date :=
  let shifted := days + 719468
  let era := shifted / 146097
  let dayOfEra := (shifted % 146097).toNat
  let yearOfEra := (dayOfEra - dayOfEra / 1460 + dayOfEra / 36524 - dayOfEra / 146096) / 365
  let dayOfYear := dayOfEra - (365 * yearOfEra + yearOfEra / 4 - yearOfEra / 100)
  let monthFromMarch := (5 * dayOfYear + 2) / 153
  let month := if monthFromMarch < 10 then monthFromMarch + 3 else monthFromMarch - 9
  { year := era * 400 + yearOfEra + (if month ≤ 2 then 1 else 0)
    month
    day := dayOfYear - (153 * monthFromMarch + 2) / 5 + 1
    days }

/-- The day of the week, from Monday (0) to Sunday (6). -/
def weekday (d : Date) : Nat := ((d.days + 3) % 7).toNat

/-- The day of the year, from 1. -/
def ordinal (d : Date) : Nat :=
  daysBeforeMonth.getD (d.month - 1) 0 + d.day +
    (if 2 < d.month ∧ isLeapYear d.year then 1 else 0)

/-- The number of days since the last day with the given weekday. -/
def daysSince (d : Date) (weekday : Nat) : Nat := (d.weekday + 7 - weekday) % 7

/-- The week of the year, with weeks that start on the given weekday; the days
    before the first such day are week 0. -/
def weekFrom (d : Date) (weekday : Nat) : Nat := (d.ordinal + 6 - d.daysSince weekday) / 7

/-- The number of ISO weeks of a year whose first day is the given weekday. -/
def isoWeeksOfYear (year : Int) (firstWeekday : Nat) : Nat :=
  if firstWeekday = 3 ∨ (firstWeekday = 2 ∧ isLeapYear year) then 53 else 52

/-- The year and the week of ISO 8601. -/
def isoWeek (d : Date) : Int × Nat :=
  let firstWeekday := (d.weekday + 7 * 53 - (d.ordinal - 1)) % 7
  let week := (d.ordinal + 9 - d.weekday) / 7
  if week = 0 then
    let before := if isLeapYear (d.year - 1) then 366 else 365
    (d.year - 1, isoWeeksOfYear (d.year - 1) ((firstWeekday + 7 * 53 - before) % 7))
  else if isoWeeksOfYear d.year firstWeekday < week then (d.year + 1, 1)
  else (d.year, week)

/-- The quarter of the year, from 1. -/
def quarter (d : Date) : Nat := (d.month - 1) / 3 + 1

end Date

end EventTable.Calendar
