/-
  EventTable — directories: where columns look up the device of an event.

  * `Directory` is two look-ups that may fail;
  * `DeviceStore` keeps devices and times in memory, one each for a pair of
    account and device; the last one stored counts;
  * `DeviceStore.directory` answers from what is stored and never fails.
-/
import EventTable.Datum.JsonReader
import EventTable.Device

namespace EventTable

/-- Why a look-up failed. -/
inductive DirectoryError where
  | lookup (accountId deviceId reason : String)
  | unavailable (reason : String)
  deriving DecidableEq, Repr

def DirectoryError.message : DirectoryError → String
  | lookup accountId deviceId reason =>
    "device lookup failed for " ++ accountId ++ "/" ++ deviceId ++ ": " ++ reason
  | unavailable reason => "device directory unavailable: " ++ reason

/-- Look-ups by account and device. -/
structure Directory where
  /-- The device, if there is one. -/
  device : (accountId deviceId : String) → Except DirectoryError (Option Device)
  /-- The time of the newest event of the device, if there is one. -/
  lastEvent : (accountId deviceId : String) → Except DirectoryError (Option Int)

/-- A directory without any device. -/
def Directory.empty : Directory := ⟨fun _ _ => .ok none, fun _ _ => .ok none⟩

/-- An account, and a device of it. -/
abbrev DeviceKey := String × String

/-- Devices and times of newest events, in memory. -/
structure DeviceStore where
  devices : List (DeviceKey × Device) := []
  lastEvents : List (DeviceKey × Int) := []

namespace DeviceStore

/-- Stores a device under its own account and identity. -/
def withDevice (s : DeviceStore) (d : Device) : DeviceStore :=
  { s with devices := Dictionary.put (d.accountId, d.deviceId) d s.devices }

/-- Stores the time of the newest event of a device. -/
def withLastEvent (s : DeviceStore) (accountId deviceId : String) (time : Int) : DeviceStore :=
  { s with lastEvents := Dictionary.put (accountId, deviceId) time s.lastEvents }

/-- The number of devices. -/
def size (s : DeviceStore) : Nat := s.devices.length

def isEmpty (s : DeviceStore) : Bool := s.devices.isEmpty

/-- The look-ups in what is stored. -/
def directory (s : DeviceStore) : Directory where
  device accountId deviceId := .ok (s.devices.lookup (accountId, deviceId))
  lastEvent accountId deviceId := .ok (s.lastEvents.lookup (accountId, deviceId))

/-- The store of devices, added one after the other. -/
def ofDevices (ds : List Device) : DeviceStore := ds.foldl withDevice {}

/-- Reads a JSON list of devices. -/
def ofJson? (text : String) : Option DeviceStore := do
  return ofDevices (← (← Datum.readJson? text).list? Device.ofDatum?)

end DeviceStore

end EventTable
