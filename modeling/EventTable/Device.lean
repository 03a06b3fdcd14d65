/-
  EventTable — devices: what is known about the vehicle behind an event.

  * `Device.customAttribute?` is a free attribute with a text that is not
    blank;
  * `Device.hasConnectTime` holds of a device with a plausible time of its
    last connection, after the year 1999;
  * `Device.ofDatum?` reads a device.
-/
import EventTable.Datum.Record
import EventTable.Text.Blank

namespace EventTable

open Text

/-- A device and the vehicle that it is built into. -/
structure Device where
  accountId : String := ""
  deviceId : String := ""
  description : String := ""
  vehicleId : String := ""
  groupId : String := ""
  /-- A fraction of the full level up to 1, and a percentage above. -/
  lastBatteryLevel : Float := 0.0
  fuelCapacityLiters : Float := 0.0
  /-- Seconds since the epoch, and 0 if unknown. -/
  lastConnectTime : Int := 0
  odometerOffsetKm : Float := 0.0
  engineHoursOffset : Float := 0.0
  custom : List (String × String) := []
  deriving DecidableEq, Repr

namespace Device

/-- The first second of the year 2000; times up to it count as unknown. -/
def earliestConnectTime : Int := 946684800

/-- A free attribute, by its trimmed name. -/
def customAttribute? (d : Device) (name : String) : Option String :=
  (d.custom.lookup (trim name)).bind nonBlank?

/-- Whether the time of the last connection is plausible. -/
def hasConnectTime (d : Device) : Bool := earliestConnectTime < d.lastConnectTime

/-- The names of the fields. -/
def fieldNames : List String :=
  ["account_id", "device_id", "description", "vehicle_id", "group_id", "last_battery_level",
    "fuel_capacity_liters", "last_connect_time", "odometer_offset_km", "engine_hours_offset",
    "custom"]

open Datum in
/-- Reads the fields of a device. -/
def ofDatum? (d : Datum) : Option Device := do
  let r ← d.record? .json fieldNames
  return {
    accountId := ← r.get? "account_id" (text? .json) ""
    deviceId := ← r.get? "device_id" (text? .json) ""
    description := ← r.get? "description" (text? .json) ""
    vehicleId := ← r.get? "vehicle_id" (text? .json) ""
    groupId := ← r.get? "group_id" (text? .json) ""
    lastBatteryLevel := ← r.get? "last_battery_level" float? 0.0
    fuelCapacityLiters := ← r.get? "fuel_capacity_liters" float? 0.0
    lastConnectTime := ← r.get? "last_connect_time" int64? 0
    odometerOffsetKm := ← r.get? "odometer_offset_km" float? 0.0
    engineHoursOffset := ← r.get? "engine_hours_offset" float? 0.0
    custom := ← r.get? "custom" (dictionary? (text? .json)) [] }

end Device

end EventTable
