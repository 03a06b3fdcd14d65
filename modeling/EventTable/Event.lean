/-
  EventTable — events: what a vehicle reported at one moment.

  Measurements are metric.  Zero usually means that nothing was reported; each
  column says what it makes of zero and negative values.

  * `Event.creationTime`, `Event.creationAge`, `Event.engineRpm` and
    `Event.thermo?` are derived from the fields;
  * `Event.identityOnly` is an event of which nothing but its device, time and
    status is known;
  * `isValidTemperature` leaves out the noise of temperature sensors;
  * `Event.ofDatum?` and `Event.ofJson?` read an event.
-/
import EventTable.Datum.JsonReader
import EventTable.Datum.Record
import EventTable.Status

namespace EventTable

/-- One event. -/
structure Event where
  accountId : String := ""
  deviceId : String := ""
  /-- Seconds since the epoch. -/
  timestamp : Int := 0
  /-- When the event was stored, in milliseconds since the epoch. -/
  creationMillis : Int := 0
  statusCode : StatusCode := 0
  latitude : Float := 0.0
  longitude : Float := 0.0
  /-- Seconds since the position was taken. -/
  gpsAge : Int := 0
  altitudeMeters : Float := 0.0
  accuracyMeters : Float := 0.0
  satelliteCount : Int := 0
  address : String := ""
  city : String := ""
  speedKph : Float := 0.0
  speedLimitKph : Float := 0.0
  heading : Float := 0.0
  distanceKm : Float := 0.0
  odometerKm : Float := 0.0
  reportDistanceKm : Float := 0.0
  /-- A fraction of the full level up to 1, and volts above. -/
  batteryLevel : Float := 0.0
  batteryVolts : Float := 0.0
  batteryTempC : Option Float := none
  /-- A fraction of the full level; negative if the sensor is not available. -/
  fuelLevel : Float := 0.0
  fuelTotalLiters : Float := 0.0
  fuelRemainLiters : Float := 0.0
  fuelEconomyKpl : Float := 0.0
  fuelPressureKpa : Float := 0.0
  reportedRpm : Option Int := none
  engineHours : Float := 0.0
  idleHours : Float := 0.0
  coolantTempC : Option Float := none
  oilPressureKpa : Float := 0.0
  tirePressuresKpa : List Float := []
  tireTempsC : List Float := []
  ambientTempC : Option Float := none
  barometerKpa : Float := 0.0
  /-- One reading per sensor. -/
  thermoReadings : List (Option Float) := []
  /-- The MIME type of what is attached. -/
  attachmentType : Option String := none
  /-- Free properties, sorted by name. -/
  attachmentProperties : Option (List (String × Datum)) := none

namespace Event

/-- When the event was stored, in seconds. -/
def creationTime (e : Event) : Int := e.creationMillis.tdiv 1000

/-- How long after its time the event was stored; the difference wraps around
    where it does not fit in 64 bits. -/
def creationAge (e : Event) : Int :=
  if 0 < e.creationTime then Number.wrapInt64 (e.creationTime - e.timestamp) else 0

/-- Revolutions per minute; negative if not reported. -/
def engineRpm (e : Event) : Int := e.reportedRpm.getD (-1)

/-- The reading of a temperature sensor, counted from zero. -/
def thermo? (e : Event) (sensor : Nat) : Option Float := e.thermoReadings[sensor]?.join

/-- The event with nothing but its device, time and status. -/
def identityOnly (e : Event) : Event :=
  { accountId := e.accountId, deviceId := e.deviceId, timestamp := e.timestamp,
    statusCode := e.statusCode }

/-- The names of the fields. -/
def fieldNames : List String :=
  ["account_id", "device_id", "timestamp", "creation_millis", "status_code", "latitude",
    "longitude", "gps_age", "altitude_meters", "horz_accuracy_meters", "satellite_count",
    "address", "city", "speed_kph", "speed_limit_kph", "heading", "distance_km",
    "odometer_km", "report_distance_km", "battery_level", "battery_volts", "battery_temp_c",
    "fuel_level", "fuel_total_liters", "fuel_remain_liters", "fuel_economy_kpl",
    "fuel_pressure_kpa", "engine_rpm", "engine_hours", "idle_hours", "coolant_temp_c",
    "oil_pressure_kpa", "tire_pressures_kpa", "tire_temps_c", "ambient_temp_c",
    "barometer_kpa", "thermo_c", "attachment_type", "attachment_properties"]

/-- Reads free properties. -/
def properties? (d : Datum) : Option (List (String × Datum)) :=
  match d.tidied? with
  | some (.table fs) => some fs
  | _ => none

open Datum in
/-- Reads an event from the fields that were given. -/
def ofRecord? (r : Record) : Option Event := do
  return {
    accountId := ← r.get? "account_id" (text? .json) ""
    deviceId := ← r.get? "device_id" (text? .json) ""
    timestamp := ← r.get? "timestamp" int64? 0
    creationMillis := ← r.get? "creation_millis" int64? 0
    statusCode := UInt32.ofNat (← r.get? "status_code" (int? 0 0xFFFFFFFF) 0).toNat
    latitude := ← r.get? "latitude" float? 0.0
    longitude := ← r.get? "longitude" float? 0.0
    gpsAge := ← r.get? "gps_age" int64? 0
    altitudeMeters := ← r.get? "altitude_meters" float? 0.0
    accuracyMeters := ← r.get? "horz_accuracy_meters" float? 0.0
    satelliteCount := ← r.get? "satellite_count" (int? (-0x80000000) 0x7FFFFFFF) 0
    address := ← r.get? "address" (text? .json) ""
    city := ← r.get? "city" (text? .json) ""
    speedKph := ← r.get? "speed_kph" float? 0.0
    speedLimitKph := ← r.get? "speed_limit_kph" float? 0.0
    heading := ← r.get? "heading" float? 0.0
    distanceKm := ← r.get? "distance_km" float? 0.0
    odometerKm := ← r.get? "odometer_km" float? 0.0
    reportDistanceKm := ← r.get? "report_distance_km" float? 0.0
    batteryLevel := ← r.get? "battery_level" float? 0.0
    batteryVolts := ← r.get? "battery_volts" float? 0.0
    batteryTempC := ← r.get? "battery_temp_c" (option? float?) none
    fuelLevel := ← r.get? "fuel_level" float? 0.0
    fuelTotalLiters := ← r.get? "fuel_total_liters" float? 0.0
    fuelRemainLiters := ← r.get? "fuel_remain_liters" float? 0.0
    fuelEconomyKpl := ← r.get? "fuel_economy_kpl" float? 0.0
    fuelPressureKpa := ← r.get? "fuel_pressure_kpa" float? 0.0
    reportedRpm := ← r.get? "engine_rpm" (option? int64?) none
    engineHours := ← r.get? "engine_hours" float? 0.0
    idleHours := ← r.get? "idle_hours" float? 0.0
    coolantTempC := ← r.get? "coolant_temp_c" (option? float?) none
    oilPressureKpa := ← r.get? "oil_pressure_kpa" float? 0.0
    tirePressuresKpa := ← r.get? "tire_pressures_kpa" (list? float?) []
    tireTempsC := ← r.get? "tire_temps_c" (list? float?) []
    ambientTempC := ← r.get? "ambient_temp_c" (option? float?) none
    barometerKpa := ← r.get? "barometer_kpa" float? 0.0
    thermoReadings := ← r.get? "thermo_c" (list? (option? float?)) []
    attachmentType := ← r.get? "attachment_type" (option? (text? .json)) none
    attachmentProperties := ← r.get? "attachment_properties" (option? properties?) none }

/-- Reads an event. -/
def ofDatum? (d : Datum) : Option Event := (d.record? .json fieldNames).bind ofRecord?

/-- Free properties within an event are nested at most this deep. -/
def propertyDepthLimit : Nat := 126

/-- Reads an event from a JSON text. -/
def ofJson? (text : String) : Option Event := do
  let r ← (← Datum.readJson? text).record? .json fieldNames
  if ((r.lookup "attachment_properties").getD .null).depth ≤ propertyDepthLimit then ofRecord? r
  else none

end Event

/-- Readings outside this open range are the noise of a sensor. -/
def isValidTemperature (celsius : Float) : Bool :=
  celsius.isFinite && -126.0 < celsius && celsius < 126.0

end EventTable
