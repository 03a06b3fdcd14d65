/-
  EventTable — settings, and the contexts made of them.

  * `Settings` is what a user configures, as texts; every setting has a
    default;
  * `StringTree` is the string table as configured, with groups of texts
    within groups, and `StringTree.flatten` the table with dotted keys;
  * `Settings.toContext` checks the time zone, then the status codes, and
    reads the colour bands.
-/
import EventTable.Context

namespace EventTable

open Text Calendar

/-! ## Texts in groups -/

/-- A text, or a group of named texts and groups. -/
inductive StringTree where
  | text (s : String)
  | group (entries : List (String × StringTree))
  deriving Repr

namespace StringTree

/-- The key of an entry within a group. -/
def joinKey (group name : String) : String :=
  if group.isEmpty then name else group ++ "." ++ name

mutual

/-- The texts of a tree under a key, with the keys that lead to them. -/
def pairs (key : String) : StringTree → List (String × String)
  | .text s => [(key, s)]
  | .group entries => entryPairs key entries

/-- The texts of the entries of a group. -/
def entryPairs (group : String) : List (String × StringTree) → List (String × String)
  | [] => []
  | (name, t) :: r => pairs (joinKey group name) t ++ entryPairs group r

end

/-- The table of all texts, by dotted keys. -/
def flatten (entries : List (String × StringTree)) : List (String × String) :=
  Dictionary.ofPairs (entryPairs "" entries)

end StringTree

/-! ## Settings -/

/-- What a user configures. -/
structure Settings where
  locale : Locale := {}
  timezone : String := "UTC"
  dateFormat : String := Default.dateFormat
  timeFormat : String := Default.timeFormat
  filler : String := Cell.defaultFiller
  units : UnitPreferences := {}
  gpsAgeBands : String := Default.gpsAgeBands
  creationAgeBands : String := Default.creationAgeBands
  checkinAgeBands : String := Default.checkinAgeBands
  mapUrl : Option String := none
  deviceAdminUrl : Option String := none
  attachmentUrl : Option String := none
  strings : List (String × String) := []
  /-- By status code, in decimal or hexadecimal. -/
  statusStyles : List (String × StatusStyle) := []
  deriving DecidableEq, Repr

/-- Why settings do not make a context. -/
inductive SettingsError where
  | invalidTimezone (text : String)
  | invalidStatusCode (text : String)
  deriving DecidableEq, Repr

def SettingsError.message : SettingsError → String
  | invalidTimezone text =>
    "invalid timezone '" ++ text ++ "', expected UTC or an offset such as +02:00"
  | invalidStatusCode text =>
    "invalid status code '" ++ text ++ "', expected decimal or 0x-prefixed hex"

namespace Settings

/-- The styles by status code; the first text that is no code is an error. -/
def stylesByCode : List (String × StatusStyle) →
    Except SettingsError (List (StatusCode × StatusStyle))
  | styles => styles.foldlM (fun byCode (text, style) =>
      match parseStatusCode? text with
      | some code => .ok (Dictionary.put code style byCode)
      | none => .error (.invalidStatusCode text)) []

/-- The context for a table made at `now`, a 64-bit time. -/
def toContext (s : Settings) (now : Int) (directory : Option Directory) :
    Except SettingsError Context := do
  let zone ← match Zone.parse? s.timezone with
    | some zone => .ok zone
    | none => .error (.invalidTimezone s.timezone)
  let statusStyles ← stylesByCode s.statusStyles
  return {
    now := Number.wrapInt64 now
    now_fits := Number.fitsInt64_wrapInt64 now
    units := s.units
    locale := s.locale
    zone
    dateFormat := nonBlankOr s.dateFormat Default.dateFormat
    timeFormat := nonBlankOr s.timeFormat Default.timeFormat
    filler := nonBlankOr s.filler Cell.defaultFiller
    strings := s.strings
    gpsAgeBands := AgeBand.parseList s.gpsAgeBands
    creationAgeBands := AgeBand.parseList s.creationAgeBands
    checkinAgeBands := AgeBand.parseList s.checkinAgeBands
    statusStyles
    mapUrl := s.mapUrl
    deviceAdminUrl := s.deviceAdminUrl
    attachmentUrl := s.attachmentUrl
    directory }

end Settings

end EventTable
