/-
  EventTable — the row number, and columns about the vehicle of an event.

  * `index` numbers the rows, from one unless the argument starts with `0`,
    and is sorted by the place of the row in the records;
  * all other columns but `deviceId` show what the directory knows.
-/
import EventTable.Columns.Measure

namespace EventTable.Columns

open Text Number

/-- Whether an argument, in any case, is one of the words. -/
def isOneOf (argument : String) (words : List String) : Bool :=
  words.contains (String.ofList (lowerAscii (trimChars argument.toList)))

/-- The number of a row, an unsigned 64-bit one, with a link to its place on the map
    if asked for. -/
def indexCell (row : Nat) (ctx : Context) (argument : String) : Cell :=
  let number := intText (wrapNat64 (row + 1))
  if isOneOf argument ["map", "maplink"] then
    let cell := (Cell.ofText number).withSortKey (Float.ofNat row)
    match ctx.mapUrl with
    | some url =>
      cell.withLink (linkUrl url [("showpp", number), ("zoompp", number)]) (some "ReportMap")
    | none => cell
  else
    let shown := if startsWith ['0'] (trimChars argument.toList) then intText row else number
    (Cell.ofText shown).withSortKey (Float.ofNat row)

/-- Whether an argument asks for a link to the administration of the device. -/
def wantsAdmin (argument : String) : Bool :=
  startsWith "admin".toList (lowerAscii (trimChars argument.toList))

/-- The device, with a link to its administration if asked for. -/
def deviceIdCell (ctx : Context) (argument : String) (e : Event) : Cell :=
  let cell := Cell.ofText e.deviceId
  match ctx.deviceAdminUrl with
  | some url =>
    if wantsAdmin argument then
      let submit := if isOneOf argument ["adminedit"] then ("d_subedit", "edit")
        else ("d_subview", "view")
      cell.withLink (linkUrl url [("device", e.deviceId), ("page_cmd", "selectDev"), submit])
        (some "_self")
    else cell
  | none => cell

/-- A text of the device. -/
def deviceTextCell (text : Device → String) : Context → String → Event → Option Device → Cell :=
  fun _ _ _ d => (d.map fun d => Cell.ofText (text d)).getD .blank

/-- The last known level of the device's battery. -/
def lastBatteryCell : Context → String → Event → Option Device → Cell :=
  fun _ _ _ d => (d.map fun d => percentCell d.lastBatteryLevel).getD .blank

/-- A free attribute of the device. -/
def customFieldCell : Context → String → Event → Option Device → Cell :=
  fun _ argument _ d => ((d.bind (·.customAttribute? argument)).map Cell.ofText).getD .blank

/-- Titles with more characters are broken at their last blank. -/
def wrapLength : Nat := 12

/-- A title, broken into two lines if it is long. -/
def wrapTitle (title : String) : String :=
  if title.toList.length ≤ wrapLength then title
  else match cutLast? ' ' title.toList with
    | some (before, after) =>
      if before.isEmpty then title else String.ofList (before ++ '\n' :: after)
    | none => title

/-- The configured name of a free attribute, or a general title. -/
def customFieldTitle (ctx : Context) (argument : String) : String :=
  match ctx.strings.lookup ("deviceInfo.custom." ++ trim argument) with
  | some name => wrapTitle name
  | none => ctx.text "col.customField" "Custom\nAttribute"

/-- The row number, and what identifies the vehicle. -/
def vehicleColumns : List (Column Event) :=
  [column "index" (fixedTitle "col.index" "#") fun row ctx argument _ =>
      indexCell row ctx argument,
    column "deviceId" (fixedTitle "col.deviceId" "Device-ID") fun _ => deviceIdCell,
    deviceColumn "deviceDesc" (fixedTitle "col.deviceDesc" "Device\nDescription")
      (deviceTextCell (·.description)),
    deviceColumn "deviceVehicleID" (fixedTitle "col.deviceVehicleID" "Vehicle ID")
      (deviceTextCell (·.vehicleId)),
    deviceColumn "groupId" (fixedTitle "col.groupId" "Group-ID") (deviceTextCell (·.groupId)),
    deviceColumn "deviceBattery" (fixedTitle "col.deviceBattery" "Last\nBattery")
      lastBatteryCell,
    deviceColumn "lastBatteryPercent" (fixedTitle "col.lastBatteryPercent" "Latest\nBatt %")
      lastBatteryCell,
    deviceColumn "customField" customFieldTitle customFieldCell]

end EventTable.Columns
