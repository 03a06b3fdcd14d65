/-
  EventTable — reading settings and table definitions.

  * `Settings.ofDatum?` reads settings from data of a format, and
    `Settings.ofToml?` from a TOML text;
  * `TableDefinition` is a name and a list of columns, each in short or long
    form; `TableDefinition.ofDatum?` and `TableDefinition.ofToml?` read one.
-/
import EventTable.ColumnRequest
import EventTable.Datum.TomlReader
import EventTable.Settings.Basic

namespace EventTable

open Datum

mutual

/-- Texts in groups; of repeated names in a group the last one counts. -/
def StringTree.ofDatum? : Datum → Option StringTree
  | .text s => some (.text s)
  | .table fs => (StringTree.entries? fs).map fun entries => .group (Dictionary.ofPairs entries)
  | _ => none

/-- The entries of a group. -/
def StringTree.entries? : List (String × Datum) → Option (List (String × StringTree))
  | [] => some []
  | (name, d) :: r => do
    let t ← StringTree.ofDatum? d
    let r ← StringTree.entries? r
    return (name, t) :: r

end

/-- A string table, with dotted keys. -/
def stringTable? : Datum → Option (List (String × String))
  | .table fs =>
    (StringTree.entries? fs).map fun entries => StringTree.flatten (Dictionary.ofPairs entries)
  | _ => none

def StatusStyle.ofDatum? (s : Strictness) (d : Datum) : Option StatusStyle := do
  let r ← d.record? s ["description", "foreground", "background"]
  return {
    description := ← r.get? "description" (text? s) ""
    foreground := ← r.get? "foreground" (option? (text? s)) none
    background := ← r.get? "background" (option? (text? s)) none }

def UnitPreferences.ofDatum? (s : Strictness) (d : Datum) : Option UnitPreferences := do
  let r ← d.record? s ["distance", "speed", "volume", "pressure", "temperature", "economy",
    "altitude", "lat_lon"]
  return {
    distance := ← r.get? "distance" (choice? s DistanceUnit.names) .kilometers
    speed := ← r.get? "speed" (choice? s SpeedUnit.names) .kilometersPerHour
    volume := ← r.get? "volume" (choice? s VolumeUnit.names) .liters
    pressure := ← r.get? "pressure" (choice? s PressureUnit.names) .kilopascals
    temperature := ← r.get? "temperature" (choice? s TemperatureUnit.names) .celsius
    economy := ← r.get? "economy" (choice? s EconomyUnit.names) .kilometersPerLiter
    altitude := ← r.get? "altitude" (choice? s AltitudeUnit.names) .meters
    coordinates := ← r.get? "lat_lon" (choice? s CoordinateStyle.names) .decimal }

namespace Settings

/-- The names of the settings. -/
def fieldNames : List String :=
  ["locale", "timezone", "date_format", "time_format", "blank_filler", "units",
    "gps_age_colors", "creation_age_colors", "checkin_age_colors", "map_url",
    "device_admin_url", "attachment_url", "strings", "status_styles"]

/-- Reads settings from data. -/
def ofDatum? (s : Strictness) (d : Datum) : Option Settings := do
  let r ← d.record? s fieldNames
  let defaults : Settings := {}
  return {
    locale := ⟨← r.get? "locale" (text? s) defaults.locale.tag⟩
    timezone := ← r.get? "timezone" (text? s) defaults.timezone
    dateFormat := ← r.get? "date_format" (text? s) defaults.dateFormat
    timeFormat := ← r.get? "time_format" (text? s) defaults.timeFormat
    filler := ← r.get? "blank_filler" (text? s) defaults.filler
    units := ← r.get? "units" (UnitPreferences.ofDatum? s) defaults.units
    gpsAgeBands := ← r.get? "gps_age_colors" (text? s) defaults.gpsAgeBands
    creationAgeBands := ← r.get? "creation_age_colors" (text? s) defaults.creationAgeBands
    checkinAgeBands := ← r.get? "checkin_age_colors" (text? s) defaults.checkinAgeBands
    mapUrl := ← r.get? "map_url" (option? (text? s)) none
    deviceAdminUrl := ← r.get? "device_admin_url" (option? (text? s)) none
    attachmentUrl := ← r.get? "attachment_url" (option? (text? s)) none
    strings := ← r.get? "strings" stringTable? []
    statusStyles := ← r.get? "status_styles" (dictionary? (StatusStyle.ofDatum? s)) [] }

/-- Reads settings from a TOML text. -/
def ofToml? (text : String) : Option Settings :=
  (readToml? .v1_0 text).bind (ofDatum? .toml)

end Settings

/-- A named list of columns. -/
structure TableDefinition where
  name : String := ""
  columns : List ColumnRequest
  deriving DecidableEq, Repr

namespace TableDefinition

/-- A column in short form, a text, or in long form.  The long form is read
    by the same rules in every format. -/
def column? : Datum → Option ColumnRequest
  | .text s => some (ColumnRequest.parse s)
  | d => ColumnRequest.ofDatum? .json d

/-- Reads a definition from data. -/
def ofDatum? (s : Strictness) (d : Datum) : Option TableDefinition := do
  let r ← d.record? s ["name", "columns"]
  return {
    name := ← r.get? "name" (text? s) ""
    columns := ← r.require? "columns" (list? column?) }

/-- Reads a definition from a TOML text. -/
def ofToml? (text : String) : Option TableDefinition :=
  (readToml? .v1_0 text).bind (ofDatum? .toml)

end TableDefinition

end EventTable
