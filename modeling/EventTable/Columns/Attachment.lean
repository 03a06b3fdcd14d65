/-
  EventTable — columns about what is attached to an event: a link to it, and
  its free properties.

  The argument of `attachProp` is the name of a property and, after a colon, a
  letter for the kind of value, followed by an argument for its format.

  * `extensionOf` is the file ending for a MIME type;
  * `propertyText`, `propertyNumber` and `propertySeconds` read a property;
  * `propertyCell` shows it: a measured value by the same quantity as the
    columns of its own, `PropertyKind` by `PropertyKind`.
-/
import EventTable.Columns.Measure
import EventTable.Coordinate
import EventTable.Elapsed

namespace EventTable.Columns

open Text Number

/-! ## The link -/

/-- The file ending of texts, and of everything that has no other. -/
def defaultExtension : String := "txt"

/-- The MIME types with an ending of their own. -/
def extensions : List (String × String) :=
  [("image/jpeg", "jpg"), ("image/jpg", "jpg"), ("image/pjpeg", "jpg"), ("image/png", "png"),
    ("image/gif", "gif"), ("image/bmp", "bmp"), ("image/x-ms-bmp", "bmp"),
    ("image/tiff", "tif"), ("application/pdf", "pdf"), ("application/xml", "xml"),
    ("text/xml", "xml"), ("text/html", "html"), ("text/csv", "csv"),
    ("text/plain", defaultExtension)]

/-- The ending for a MIME type without parameters: a known one, else its part
    after the slash if that is made of letters and digits. -/
def extensionOfType (mime : List Char) : String :=
  match extensions.lookup (String.ofList mime) with
  | some extension => extension
  | none =>
    match cut? '/' mime with
    | some (_, subtype) =>
      if !subtype.isEmpty && subtype.all Char.isAlphanum then String.ofList subtype
      else defaultExtension
    | none => defaultExtension

/-- The file ending for a MIME type; case and parameters do not matter. -/
def extensionOf (mime : String) : String :=
  extensionOfType (lowerAscii (trimChars (mime.toList.takeWhile (· != ';'))))

/-- Whether a MIME type is that of an image. -/
def isImage (mime : String) : Bool := startsWith "image/".toList (lowerAscii mime.toList)

/-- A link to what is attached; an image is also shown. -/
def attachUrlCell (ctx : Context) (e : Event) : Cell :=
  match (e.attachmentType.map trim).filter (· ≠ "") with
  | none => .blank
  | some mime =>
    let extension := extensionOf mime
    let url := linkUrl (ctx.attachmentUrl.getD "./Attach" ++ "." ++ extension)
      [("d", e.deviceId), ("ts", intText e.timestamp), ("sc", hexCode e.statusCode)]
    let cell := (Cell.ofText extension).withLink url (some "Attachment")
    if isImage mime then cell.withImage url else cell

/-! ## Properties -/

/-- The properties of an event. -/
abbrev Properties := List (String × Datum)

/-- The name of a property and the format, both trimmed. -/
def splitPropertyArgument (argument : String) : String × List Char :=
  let cs := trimChars argument.toList
  match cut? ':' cs with
  | some (name, format) => (String.ofList (trimChars name), trimChars format)
  | none => (String.ofList cs, [])

/-- A property as a text; anything but a text is written as JSON. -/
def propertyText (properties : Properties) (name : String) : String :=
  match properties.lookup name with
  | some (.text s) => s
  | some .null | none => ""
  | some d => d.toJson

/-- A property as a number: a number, a text that holds one, or a truth value. -/
def propertyNumber (properties : Properties) (name : String) : Float :=
  match properties.lookup name with
  | some (.int n) => Float.ofInt n
  | some (.float x) => x
  | some (.text s) => parseNumber s
  | some (.bool b) => if b then 1.0 else 0.0
  | _ => 0.0

/-- A property as a span of time: with a point in its text it is a number of
    hours, without one a number of seconds. -/
def propertySeconds (properties : Properties) (name : String) : Int :=
  let text := propertyText properties name
  if text.toList.contains '.' then roundToInt64 (parseNumber text * 3600.0)
  else (boundedInt? minInt64 maxInt64 (trimChars text.toList)).getD 0

/-- A point: two numbers with a slash, or else a comma, between them. -/
def parsePoint? (text : String) : Option (Float × Float) := do
  let (latitude, longitude) ← (cut? '/' text.toList).or (cut? ',' text.toList)
  let latitude ← float? (trimChars latitude)
  let longitude ← float? (trimChars longitude)
  if isValidPoint latitude longitude then some (latitude, longitude) else none

/-- What a property is shown as. -/
inductive PropertyKind where
  /-- The text of the property. -/
  | text
  /-- A number without a unit. -/
  | number
  /-- A measured value. -/
  | measure (q : Quantity)
  /-- A position. -/
  | point
  /-- A span of time. -/
  | elapsed
  deriving DecidableEq, Repr

/-- The kind that a letter stands for, in upper case. -/
def PropertyKind.ofLetter : Char → PropertyKind
  | 'N' | 'M' | 'F' | 'R' | 'C' => number
  | 'K' => measure .distance
  | 'S' => measure .speed
  | 'E' => measure .economy
  | 'V' => measure .volume
  | 'P' => measure .pressure
  | 'A' => measure .altitude
  | 'T' => measure .temperature
  | 'L' => point
  | 'H' => elapsed
  | _ => text

/-- A measured value; distances and temperatures follow the rules of their own
    columns for values that count as not reported. -/
def propertyMeasureCell (ctx : Context) (q : Quantity) (x : Float) (argument : String) : Cell :=
  match q with
  | .distance => positiveCell x (measureCell ctx .distance x argument "0")
  | .temperature => temperatureCell ctx (some x) argument
  | .pressure => measureCell ctx .pressure x argument "0.0"
  | q => measureCell ctx q x argument "0"

/-- A whole number, sorted by itself. -/
def wholeCell (x : Float) : Cell :=
  (Cell.ofText (intText (truncateToInt64 x))).withSortKey (truncate x)

/-- A property, shown by a format: a letter and an argument. -/
def propertyCell (ctx : Context) (properties : Properties) (name : String) :
    (format : List Char) → Cell
  | [] => .ofText (propertyText properties name)
  | letter :: rest =>
    let argument := String.ofList rest
    match PropertyKind.ofLetter letter.toUpper with
    | .text => .ofText (propertyText properties name)
    | .number =>
      let x := propertyNumber properties name
      if letter.toUpper = 'N' ∧ rest = [] then wholeCell x else numberCell ctx x argument "0"
    | .measure q => propertyMeasureCell ctx q (propertyNumber properties name) argument
    | .point =>
      match parsePoint? (propertyText properties name) with
      | some (latitude, longitude) =>
        .ofText (formatPoint latitude longitude (.ofArgument argument ctx.units.coordinates)
          ctx.symbols)
      | none => .blank
    | .elapsed =>
      let seconds := propertySeconds properties name
      let format := ElapsedFormat.ofArgument argument .hoursMinutesSeconds
      (Cell.ofText (format.write seconds)).withSortKey (Float.ofInt seconds)

/-- The name of the property, or a general title. -/
def attachPropTitle (ctx : Context) (argument : String) : String :=
  let (name, _) := splitPropertyArgument argument
  if name.isEmpty then ctx.text "col.attachProp" "Value" else name

/-- A property of what is attached; blank if no name is given. -/
def attachPropCell (ctx : Context) (argument : String) (e : Event) : Cell :=
  let (name, format) := splitPropertyArgument argument
  match e.attachmentProperties with
  | some properties => if name.isEmpty then .blank else propertyCell ctx properties name format
  | none => .blank

/-- Link and properties. -/
def attachmentColumns : List (Column Event) :=
  [column "attachURL" (fixedTitle "col.attachURL" "Attachment") fun _ ctx _ =>
      attachUrlCell ctx,
    column "attachProp" attachPropTitle fun _ => attachPropCell]

end EventTable.Columns
