/-
  EventTable — which preference of units a column reads.

  * `Preference.keys` lists the columns of each preference, and
    `Context.DifferIn` relates contexts that are equal but for one preference;
  * `ReadsUnits` says that a column reads no preference, or only the one that it
    is listed with, or is that of the properties;
  * `readsUnits_of_mem`: all columns over events are such columns;
  * `changes_iff`: so a preference changes the cells of the columns listed with it
    and of the properties, and of no others.
-/
import EventTable.EventCatalog
import Mathlib.Tactic.ByContra

namespace EventTable

/-! ## Preferences -/

/-- What a reader prefers: the unit of a quantity, or the style of coordinates. -/
inductive Preference where
  | unit (q : Quantity)
  | coordinates
  deriving DecidableEq, Repr

namespace Preference

/-- The preferences `u`, with this one taken from `v`. -/
def replace (u v : UnitPreferences) : Preference → UnitPreferences
  | unit .distance => { u with distance := v.distance }
  | unit .speed => { u with speed := v.speed }
  | unit .volume => { u with volume := v.volume }
  | unit .pressure => { u with pressure := v.pressure }
  | unit .temperature => { u with temperature := v.temperature }
  | unit .economy => { u with economy := v.economy }
  | unit .altitude => { u with altitude := v.altitude }
  | coordinates => { u with coordinates := v.coordinates }

/-- The columns of a preference. -/
def keys : Preference → List String
  | unit .distance => ["distance", "odometer", "reportDistance"]
  | unit .speed => ["speed", "speedLimit", "speedH", "speedU"]
  | unit .volume => ["fuelLevelVolume", "fuelTotal", "fuelRemain"]
  | unit .pressure => ["oilPressure", "tirePressure", "fuelPressure"]
  | unit .temperature => ["coolantTemp", "tireTemp", "ambientTemp", "batteryTemp", "thermo1",
      "thermo2", "thermo3", "thermo4", "thermo5", "thermo6", "thermo7", "thermo8"]
  | unit .economy => ["fuelEconomy"]
  | unit .altitude => ["altitude", "accuracy"]
  | coordinates => ["latitude", "longitude", "geoPoint"]

/-- All preferences but this one are the same after it is replaced. -/
theorem replace_replace_of_ne {p p' : Preference} (h : p ≠ p') (u v w : UnitPreferences) :
    p.replace w (p'.replace u v) = p.replace w u := by
  cases p with
  | coordinates =>
    cases p' with
    | coordinates => exact absurd rfl h
    | unit q => cases q <;> rfl
  | unit q =>
    cases p' with
    | coordinates => cases q <;> rfl
    | unit q' => cases q <;> cases q' <;> first | rfl | exact absurd rfl h

end Preference

/-- **The contexts are equal but for one preference.** -/
def Context.DifferIn (p : Preference) (ctx ctx' : Context) : Prop :=
  ctx' = { ctx with units := p.replace ctx.units ctx'.units }

/-! ## The cells of columns -/

/-- **What a column reads of the units**: nothing, the preference that it is listed
    with, or, by the format in its argument, any of them. -/
inductive ReadsUnits (column : Column Event) : Prop
  | nothing : (∀ row (ctx : Context),
      column.value row { ctx with units := {} } = column.value row ctx) → ReadsUnits column
  | listed (p : Preference) : column.key ∈ p.keys → (∀ row (ctx : Context),
      column.value row { ctx with units := p.replace {} ctx.units } = column.value row ctx) →
      ReadsUnits column
  | property : column.key = "attachProp" → ReadsUnits column

theorem ReadsUnits.value_eq {column : Column Event} (h : ReadsUnits column) {p : Preference}
    {ctx ctx' : Context} (hctx : ctx.DifferIn p ctx') (hk : column.key ∉ p.keys)
    (hp : column.key ≠ "attachProp") (row : Nat) : column.value row ctx' = column.value row ctx := by
  cases h with
  | nothing hv => rw [← hv row ctx', ← hv row ctx, hctx]
  | listed p' hk' hv =>
    have hne : p' ≠ p := by
      rintro rfl
      exact hk hk'
    rw [← hv row ctx', ← hv row ctx, hctx]
    simp only [Preference.replace_replace_of_ne hne]
  | property hk' => exact absurd hk' hp

/-! ## All columns -/

open Columns

theorem readsUnits_vehicleColumns : ∀ column ∈ vehicleColumns, ReadsUnits column := by
  simp only [vehicleColumns, List.forall_mem_cons, List.not_mem_nil, false_imp_iff,
    implies_true, and_true]
  refine ⟨.nothing ?_, .nothing ?_, .nothing ?_, .nothing ?_, .nothing ?_, .nothing ?_,
    .nothing ?_, .nothing ?_⟩
  all_goals exact fun _ _ => rfl

theorem readsUnits_timeColumns : ∀ column ∈ timeColumns, ReadsUnits column := by
  simp only [timeColumns, List.forall_mem_cons, List.not_mem_nil, false_imp_iff, implies_true,
    and_true]
  refine ⟨.nothing ?_, .nothing ?_, .nothing ?_, .nothing ?_, .nothing ?_, .nothing ?_,
    .nothing ?_, .nothing ?_, .nothing ?_⟩
  all_goals exact fun _ _ => rfl

theorem readsUnits_placeColumns : ∀ column ∈ placeColumns, ReadsUnits column := by
  simp only [placeColumns, List.forall_mem_cons, List.not_mem_nil, false_imp_iff, implies_true,
    and_true]
  refine ⟨.listed .coordinates (by decide) ?_, .listed .coordinates (by decide) ?_,
    .listed .coordinates (by decide) ?_, .nothing ?_, .listed (.unit .altitude) (by decide) ?_,
    .listed (.unit .altitude) (by decide) ?_, .nothing ?_, .nothing ?_, .nothing ?_⟩
  all_goals exact fun _ _ => rfl

theorem readsUnits_movementColumns : ∀ column ∈ movementColumns, ReadsUnits column := by
  simp only [movementColumns, List.forall_mem_cons, List.not_mem_nil, false_imp_iff, implies_true,
    and_true]
  refine ⟨.listed (.unit .speed) (by decide) ?_, .listed (.unit .speed) (by decide) ?_,
    .listed (.unit .speed) (by decide) ?_, .listed (.unit .speed) (by decide) ?_, .nothing ?_,
    .listed (.unit .distance) (by decide) ?_, .listed (.unit .distance) (by decide) ?_,
    .listed (.unit .distance) (by decide) ?_⟩
  all_goals exact fun _ _ => rfl

theorem readsUnits_statusColumns : ∀ column ∈ statusColumns, ReadsUnits column := by
  simp only [statusColumns, List.forall_mem_cons, List.not_mem_nil, false_imp_iff, implies_true,
    and_true]
  refine ⟨.nothing ?_, .nothing ?_⟩
  all_goals exact fun _ _ => rfl

theorem readsUnits_fuelColumns : ∀ column ∈ fuelColumns, ReadsUnits column := by
  simp only [fuelColumns, List.forall_mem_cons, List.not_mem_nil, false_imp_iff, implies_true,
    and_true]
  refine ⟨.nothing ?_, .listed (.unit .volume) (by decide) ?_,
    .listed (.unit .volume) (by decide) ?_, .listed (.unit .volume) (by decide) ?_,
    .listed (.unit .economy) (by decide) ?_, .listed (.unit .pressure) (by decide) ?_⟩
  all_goals exact fun _ _ => rfl

theorem readsUnits_engineColumns : ∀ column ∈ engineColumns, ReadsUnits column := by
  simp only [engineColumns, List.forall_mem_cons, List.not_mem_nil, false_imp_iff, implies_true,
    and_true]
  refine ⟨.nothing ?_, .nothing ?_, .nothing ?_, .listed (.unit .temperature) (by decide) ?_,
    .listed (.unit .pressure) (by decide) ?_, .listed (.unit .pressure) (by decide) ?_,
    .listed (.unit .temperature) (by decide) ?_, .nothing ?_, .nothing ?_, .nothing ?_⟩
  all_goals exact fun _ _ => rfl

theorem readsUnits_airColumns : ∀ column ∈ airColumns, ReadsUnits column := by
  simp only [airColumns, List.forall_mem_append, List.forall_mem_cons, List.forall_mem_map,
    List.not_mem_nil, false_imp_iff, implies_true, and_true]
  have hthermo : ∀ sensor ∈ List.range thermoCount,
      (thermoColumn (sensor + 1)).key ∈ (Preference.unit .temperature).keys := by decide
  refine ⟨⟨.listed (.unit .temperature) (by decide) ?_,
    .listed (.unit .temperature) (by decide) ?_, .nothing ?_⟩,
    fun sensor hs => .listed (.unit .temperature) (hthermo sensor hs) ?_⟩
  all_goals exact fun _ _ => rfl

theorem readsUnits_attachmentColumns : ∀ column ∈ attachmentColumns, ReadsUnits column := by
  simp only [attachmentColumns, List.forall_mem_cons, List.not_mem_nil, false_imp_iff,
    implies_true, and_true]
  exact ⟨.nothing fun _ _ => rfl, .property rfl⟩

theorem readsUnits_of_mem {column : Column Event} (h : column ∈ eventColumns) :
    ReadsUnits column :=
  forall_mem_eventColumns readsUnits_vehicleColumns readsUnits_timeColumns
    readsUnits_placeColumns readsUnits_movementColumns readsUnits_statusColumns
    readsUnits_fuelColumns readsUnits_engineColumns readsUnits_airColumns
    readsUnits_attachmentColumns column h

/-- No title reads the units: it names them by placeholders. -/
theorem title_eq_of_differIn {column : Column Event} (h : column ∈ eventColumns) {p : Preference}
    {ctx ctx' : Context} (hctx : ctx.DifferIn p ctx') : column.title ctx' = column.title ctx := by
  have htitles : ∀ units : UnitPreferences, eventColumns.map (·.title { ctx with units }) =
      eventColumns.map (·.title ctx) := fun _ => rfl
  rw [hctx]
  exact List.map_inj_left.1 (htitles _) column h

/-! ## Each preference is read -/

/-- The preference changes some cell of the column. -/
def Preference.Changes (p : Preference) (column : Column Event) : Prop :=
  ∃ (ctx ctx' : Context) (row : Nat) (argument : String) (e : Event), ctx.DifferIn p ctx' ∧
    column.value row ctx' argument e ≠ column.value row ctx argument e

namespace Sample

/-- An event of which everything was reported that has a unit. -/
def event : Event where
  latitude := 45.5
  longitude := 7.25
  altitudeMeters := 100.0
  accuracyMeters := 100.0
  speedKph := 100.0
  speedLimitKph := 100.0
  distanceKm := 100.0
  odometerKm := 100.0
  reportDistanceKm := 100.0
  batteryTempC := some 100.0
  fuelLevel := 0.5
  fuelTotalLiters := 100.0
  fuelRemainLiters := 100.0
  fuelEconomyKpl := 100.0
  fuelPressureKpa := 100.0
  coolantTempC := some 100.0
  oilPressureKpa := 100.0
  tirePressuresKpa := [100.0]
  tireTempsC := [100.0]
  ambientTempC := some 100.0
  thermoReadings := List.replicate Columns.thermoCount (some 100.0)
  attachmentProperties := some [("at", .text "45.5/7.25"), ("load", .float 100.0)]

/-- Metric units, no colours, and a device with a tank. -/
def metric : Context where
  now := 0
  gpsAgeBands := []
  directory := some (DeviceStore.ofDevices [{ fuelCapacityLiters := 200.0 }]).directory

/-- No metric unit. -/
def imperial : UnitPreferences where
  distance := .miles
  speed := .milesPerHour
  volume := .usGallons
  pressure := .psi
  temperature := .fahrenheit
  economy := .milesPerGallon
  altitude := .feet
  coordinates := .degreesMinutes

/-- An argument for which a property is shown by the preference. -/
def argument : Preference → String
  | .unit .distance => "load:K"
  | .unit .speed => "load:S"
  | .unit .volume => "load:V"
  | .unit .pressure => "load:P"
  | .unit .temperature => "load:T"
  | .unit .economy => "load:E"
  | .unit .altitude => "load:A"
  | .coordinates => "at:L"

/-- The text shown for the sample. -/
def shown (ctx : Context) (column : Column Event) (argument : String) : String :=
  match column.value 0 ctx argument event with
  | .ok cell => cell.value
  | .error _ => ""

/-- The context with one preference that is not metric. -/
def withPreference (p : Preference) : Context :=
  { metric with units := p.replace metric.units imperial }

theorem differIn_withPreference (p : Preference) : metric.DifferIn p (withPreference p) := by
  cases p with
  | unit q => cases q <;> rfl
  | coordinates => rfl

theorem shown_ne_of_mem_keys (p : Preference) : ∀ column ∈ eventColumns, column.key ∈ p.keys →
    shown (withPreference p) column "" ≠ shown metric column "" := by
  cases p with
  | unit q => cases q <;> decide +kernel
  | coordinates => decide +kernel

theorem shown_attachProp_ne (p : Preference) : ∀ column ∈ eventColumns,
    column.key = "attachProp" →
    shown (withPreference p) column (argument p) ≠ shown metric column (argument p) := by
  cases p with
  | unit q => cases q <;> decide +kernel
  | coordinates => decide +kernel

end Sample

/-- **A preference changes the cells of its columns and of the properties**, and of
    no other column. -/
theorem changes_iff {column : Column Event} (hm : column ∈ eventColumns) (p : Preference) :
    p.Changes column ↔ column.key ∈ p.keys ∨ column.key = "attachProp" := by
  constructor
  · rintro ⟨ctx, ctx', row, argument, e, hctx, hne⟩
    by_contra! hk
    exact hne (congrFun (congrFun ((readsUnits_of_mem hm).value_eq hctx hk.1 hk.2 row) argument) e)
  · have hshown : ∀ argument, Sample.shown (Sample.withPreference p) column argument ≠
        Sample.shown Sample.metric column argument → p.Changes column := by
      intro argument h
      refine ⟨Sample.metric, Sample.withPreference p, 0, argument, Sample.event,
        Sample.differIn_withPreference p, fun heq => h ?_⟩
      rw [Sample.shown, heq, Sample.shown]
    rintro (hk | hk)
    · exact hshown "" (Sample.shown_ne_of_mem_keys p column hm hk)
    · exact hshown _ (Sample.shown_attachProp_ne p column hm hk)

end EventTable
