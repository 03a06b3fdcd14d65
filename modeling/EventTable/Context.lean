/-
  EventTable — contexts: all that a column reads besides the event.

  A context is fixed for one table: preferences, texts, colours, links, the
  present time and a directory.

  * `Context.text` is a text of the string table, `Context.unitText` the label
    of the preferred unit of a quantity;
  * `Context.formatNumber` shows a number with the separators of the locale;
  * `Context.formatDate`, `formatTime` and `formatDateTime` show a time in the
    zone of the context; an unreadable pattern is replaced by the default one;
  * `Context.expandTitle` fills the placeholders of a title
    (`Context.titleValues`);
  * `Context.device?` and `Context.lastEvent?` are the look-ups; without a
    directory there is no device.
-/
import EventTable.AgeBand
import EventTable.Calendar.Pattern
import EventTable.Cell
import EventTable.Directory
import EventTable.Event
import EventTable.Locale
import EventTable.Quantity
import EventTable.Text.Placeholder

namespace EventTable

open Text Number Calendar

namespace Default

def dateFormat : String := "%Y/%m/%d"

def timeFormat : String := "%H:%M:%S"

def gpsAgeBands : String := "3600:#BB0000,1200:#550000"

def creationAgeBands : String := ""

def checkinAgeBands : String := "86400:#BB0000"

end Default

/-- What a table is made with. -/
structure Context where
  /-- The present time, in seconds since the epoch. -/
  now : Int
  now_fits : FitsInt64 now := by decide
  units : UnitPreferences := {}
  locale : Locale := {}
  zone : Zone := {}
  dateFormat : String := Default.dateFormat
  timeFormat : String := Default.timeFormat
  filler : String := Cell.defaultFiller
  /-- Localized texts by key. -/
  strings : List (String × String) := []
  gpsAgeBands : List AgeBand := AgeBand.parseList Default.gpsAgeBands
  creationAgeBands : List AgeBand := AgeBand.parseList Default.creationAgeBands
  checkinAgeBands : List AgeBand := AgeBand.parseList Default.checkinAgeBands
  statusStyles : List (StatusCode × StatusStyle) := []
  mapUrl : Option String := none
  deviceAdminUrl : Option String := none
  attachmentUrl : Option String := none
  directory : Option Directory := none

namespace Context

/-- The text of the string table under a key, or `default`. -/
def text (c : Context) (key default : String) : String := (c.strings.lookup key).getD default

/-- The text of a label. -/
def labelText (c : Context) (l : Label) : String := c.text l.key l.default

/-- The label of the preferred unit of a quantity. -/
def unitText (c : Context) (q : Quantity) : String := c.labelText (c.units.unit q).label

/-- The separators of numbers. -/
def symbols (c : Context) : Symbols := c.locale.symbols

/-- A number with the separators of the locale. -/
def formatNumber (c : Context) (x : Float) (argument default : String) : String :=
  formatNumberWith x argument default c.symbols

/-- How long ago a time is; the difference wraps around where it does not fit
    in 64 bits. -/
def ageOf (c : Context) (time : Int) : Int := wrapInt64 (c.now - time)

/-! ## Dates and times -/

/-- A time on the clock of the zone, if it has a date. -/
def moment? (c : Context) (time : Int) : Option Moment := Moment.ofTimestamp? c.zone time

/-- A time, shown by a pattern, or by another one if that is not readable. -/
def formatTimestamp? (c : Context) (time : Int) (pattern fallback : List Char) : Option String := do
  let m ← c.moment? time
  return String.ofList (← (format? m pattern).or (format? m fallback))

def formatDate? (c : Context) (time : Int) : Option String :=
  c.formatTimestamp? time c.dateFormat.toList Default.dateFormat.toList

def formatTime? (c : Context) (time : Int) : Option String :=
  c.formatTimestamp? time c.timeFormat.toList Default.timeFormat.toList

/-- The patterns of date and time, joined by a blank, as one pattern. -/
def formatDateTime? (c : Context) (time : Int) : Option String :=
  c.formatTimestamp? time (c.dateFormat.toList ++ ' ' :: c.timeFormat.toList)
    (Default.dateFormat.toList ++ ' ' :: Default.timeFormat.toList)

/-! ## Titles -/

/-- The values of the placeholders in titles. -/
def titleValues (c : Context) : Values :=
  [("distanceUnits", c.unitText .distance), ("speedUnits", c.unitText .speed),
    ("volumeUnits", c.unitText .volume), ("pressureUnits", c.unitText .pressure),
    ("economyUnits", c.unitText .economy), ("altitudeUnits", c.unitText .altitude),
    ("accuracyUnits", c.unitText .altitude), ("temperatureUnits", c.unitText .temperature),
    ("timezone", c.zone.label)]

/-- A title with its placeholders filled. -/
def expandTitle (c : Context) (title : String) : String :=
  if occursIn placeholderOpen title.toList then expand c.titleValues title else title

/-! ## Look-ups -/

/-- The style of a status code. -/
def statusStyle? (c : Context) (code : StatusCode) : Option StatusStyle :=
  c.statusStyles.lookup code

/-- The device of an account. -/
def device? (c : Context) (accountId deviceId : String) :
    Except DirectoryError (Option Device) :=
  match c.directory with
  | some d => d.device accountId deviceId
  | none => .ok none

/-- The time of the newest event of a device. -/
def lastEvent? (c : Context) (accountId deviceId : String) : Except DirectoryError (Option Int) :=
  match c.directory with
  | some d => d.lastEvent accountId deviceId
  | none => .ok none

end Context

end EventTable
