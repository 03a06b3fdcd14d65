/-
  EventTable — settings in layers: a file, and environment variables above it.

  * the file is found under its path, or with the ending `.toml` or `.json`
    added to it (`settingsFile?`);
  * the keys at the top of the file are paths;
  * a variable `FLEET_REPORT__UNITS__SPEED` sets `units.speed`; names are
    compared without case, and a double underscore leads into a group;
  * `Settings.ofLayers?` reads the settings that the layers make.
-/
import EventTable.Datum.JsonReader
import EventTable.Settings.Path
import EventTable.Settings.Reader

namespace EventTable

open Text Datum

/-! ## Files -/

/-- The parts of a path up to the name it leads to: empty parts and single
    points after it do not count. -/
def namedParts (path : String) : List (List Char) :=
  ((pieces '/' path.toList).reverse.dropWhile fun part => part.isEmpty || part == ['.']).reverse

/-- The name that a path leads to; the way to the folder above is none. -/
def nameOf? (path : String) : Option (List Char) :=
  (namedParts path).getLast?.filter (· != ['.', '.'])

/-- The ending of the name that a path leads to: what follows its last point,
    unless the name starts with that point. -/
def endingOf? (path : String) : Option String := do
  let (stem, ending) ← cutLast? '.' (← nameOf? path)
  if stem.isEmpty then none else some (String.ofList ending)

/-- A text without a byte order mark in front. -/
def withoutMark (text : String) : String :=
  match text.toList with
  | '\uFEFF' :: r => String.ofList r
  | _ => text

/-- A JSON text of settings, its lists and tables nested less than 128 deep. -/
def readSettingsJson? (text : String) : Option Datum := do
  let d ← readJson? text
  if d.depth < 128 then d.tidied? else none

/-- A TOML text of settings; its dates and times are texts. -/
def readSettingsToml? (text : String) : Option Datum :=
  (readToml? .v1_1 text).bind (momentsAsTexts? .v1_1)

/-- What a file holds, by the ending of its name. -/
def readSettingsText? (path content : String) : Option Datum :=
  match endingOf? path with
  | some "toml" => readSettingsToml? (withoutMark content)
  | some "json" => readSettingsJson? (withoutMark content)
  | _ => none

/-- What the endings of settings files are added to.  A name that has an ending
    already keeps its whole path, and after a slash the name is `.placeholder`;
    any other name ends its path. -/
def pathStem? (path : String) : Option String :=
  (nameOf? path).map fun _ =>
    if (endingOf? path).isNone then String.ofList (['/'].intercalate (namedParts path))
    else if path.toList.getLast? = some '/' then path ++ ".placeholder"
    else path

/-- The paths that a settings file may have: the one given, or one with an
    ending. -/
def candidatePaths (path : String) : List String :=
  match pathStem? path with
  | some stem => [path, stem ++ ".toml", stem ++ ".json"]
  | none => [path]

/-- The table that the settings file holds; `file?` gives the text of a file,
    if there is one. -/
def settingsFile? (file? : String → Option String) (path : String) : Option Datum :=
  match (candidatePaths path).findSome? fun name => (file? name).map (name, ·) with
  | some (name, content) =>
    match readSettingsText? name content with
    | some (.table fs) => some (.table fs)
    | _ => none
  | none => none

/-! ## Variables -/

/-- What the names of the variables start with. -/
def variableStart : List Char := "fleet_report__".toList

/-- Cuts a text at every double underscore. -/
def cutDoubleUnderscores : List Char → List Char
  | '_' :: '_' :: r => '.' :: cutDoubleUnderscores r
  | c :: r => c :: cutDoubleUnderscores r
  | [] => []

/-- A character of a variable's name in lower case.  Beside the letters of
    ASCII only the Kelvin sign has a lower-case form there; a name with any
    other letter is that of no setting. -/
def lowerNameChar (c : Char) : Char := if c = '\u212A' then 'k' else c.toLower

/-- The path that a variable sets, if its name starts as it must. -/
def variablePath? (name : String) : Option SettingPath :=
  (afterLeading? variableStart (name.toList.map lowerNameChar)).map fun r =>
    SettingPath.ofText (String.ofList (cutDoubleUnderscores r))

/-- Sets what a variable sets. -/
def setVariable (target : Datum) (v : String × String) : Datum :=
  match variablePath? v.1 with
  | some path => putAt (.text v.2) path target
  | none => target

/-! ## Layers -/

/-- The path of the settings file unless another one is given. -/
def defaultSettingsPath : String := "config/report"

/-- The settings of a file with variables above it. -/
def Settings.ofLayers? (file? : String → Option String) (path : String)
    (environment : List (String × String)) : Option Settings := do
  let file ← settingsFile? file? path
  let lower := file.fields.foldl (fun d f => putAt f.2 (.ofText f.1) d) (.table [])
  Settings.ofDatum? .layered (environment.foldl setVariable lower)

end EventTable
