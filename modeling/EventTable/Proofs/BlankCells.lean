/-
  EventTable — blank cells, and what they are sorted by.

  * `Cell.NullIfBlank` holds of a cell that has no sort key if it is blank, and
    `nullIfBlank_…Cell` of a kind of cell whatever it is made of;
  * `BlankWithKey` names the columns and the events where a value that is there is shown as
    a blank text: times by a pattern that shows nothing, and headings by a blank label;
  * `KeyedBlank` holds of a column that makes a blank cell with a sort key, and
    `keyedBlank_iff_of_mem`: a column over events does so there and nowhere else;
  * `blank_cells_are_nulls_unless_configured` says so of all columns and of tables.
-/
import EventTable.Proofs.DatePatterns
import EventTable.Settings.Basic

namespace EventTable

open Text Number Calendar Columns

/-! ## Cells that are nulls if they are blank -/

/-- The cell has no sort key if it is blank. -/
structure Cell.NullIfBlank (c : Cell) : Prop where
  sortKey_eq_none : c.isBlank = true → c.sortKey = none

namespace Cell

variable {c : Cell} {text : String}

theorem nullIfBlank_of_sortKey (h : c.sortKey = none) : c.NullIfBlank := ⟨fun _ => h⟩

theorem nullIfBlank_of_isBlank (h : c.isBlank = false) : c.NullIfBlank := by
  constructor
  intro hb
  rw [h] at hb
  exact absurd hb Bool.false_ne_true

@[simp] theorem nullIfBlank_blank : blank.NullIfBlank := nullIfBlank_of_sortKey rfl

@[simp] theorem nullIfBlank_ofText (text : String) : (ofText text).NullIfBlank :=
  nullIfBlank_of_sortKey rfl

theorem nullIfBlank_withSortKey (h : Text.isBlank text = false) (key : Float) :
    ((ofText text).withSortKey key).NullIfBlank :=
  nullIfBlank_of_isBlank h

@[simp] theorem isBlank_withAgeBand (c : Cell) (band : Option AgeBand) :
    (c.withAgeBand band).isBlank = c.isBlank := by
  cases band with
  | none => rfl
  | some band =>
    rw [withAgeBand]
    split <;> rfl

theorem NullIfBlank.withAgeBand (h : c.NullIfBlank) (band : Option AgeBand) :
    (c.withAgeBand band).NullIfBlank := by
  constructor
  intro hb
  rw [sortKey_withAgeBand]
  exact h.sortKey_eq_none ((isBlank_withAgeBand c band).symm.trans hb)

end Cell

open Cell

namespace Columns

variable (ctx : Context) (argument : String) (e : Event)

theorem nullIfBlank_positiveCell {cell : Cell} (h : cell.NullIfBlank) (x : Float) :
    (positiveCell x cell).NullIfBlank := by
  rw [positiveCell]
  split
  · exact h
  · exact nullIfBlank_blank

@[simp] theorem nullIfBlank_measureCell (q : Quantity) (x : Float) (default : String) :
    (measureCell ctx q x argument default).NullIfBlank :=
  nullIfBlank_withSortKey (isBlank_formatNumber ..) _

@[simp] theorem nullIfBlank_numberCell (x : Float) (default : String) :
    (numberCell ctx x argument default).NullIfBlank :=
  nullIfBlank_withSortKey (isBlank_formatNumber ..) _

@[simp] theorem nullIfBlank_temperatureCell (celsius : Option Float) :
    (temperatureCell ctx celsius argument).NullIfBlank := by
  rw [temperatureCell]
  split
  · exact nullIfBlank_withSortKey (isBlank_append_left (isBlank_formatNumber ..) _) _
  · exact nullIfBlank_blank

@[simp] theorem nullIfBlank_percentCell (level : Float) : (percentCell level).NullIfBlank :=
  nullIfBlank_positiveCell (nullIfBlank_withSortKey (isBlank_percentText level) _) level

@[simp] theorem nullIfBlank_indexCell (row : Nat) : (indexCell row ctx argument).NullIfBlank := by
  refine nullIfBlank_of_isBlank ?_
  unfold indexCell
  dsimp only
  split
  · split <;> exact isBlank_intText _
  · split <;> exact isBlank_intText _

@[simp] theorem nullIfBlank_createAgeCell : (createAgeCell ctx argument e).NullIfBlank := by
  rw [createAgeCell]
  split
  · exact nullIfBlank_blank
  · exact (nullIfBlank_withSortKey (isBlank_write ..) _).withAgeBand _

@[simp] theorem nullIfBlank_checkinAgeCell (time : Int) :
    (checkinAgeCell ctx time).NullIfBlank :=
  (nullIfBlank_withSortKey (isBlank_daysHoursMinutes _) _).withAgeBand _

theorem nullIfBlank_positionCell {cell : CoordinateFormat → Cell}
    (h : ∀ f, (cell f).NullIfBlank) : (positionCell ctx argument e cell).NullIfBlank := by
  rw [positionCell]
  split
  · exact (h _).withAgeBand _
  · exact nullIfBlank_blank

@[simp] theorem nullIfBlank_gpsAgeCell : (gpsAgeCell ctx argument e).NullIfBlank := by
  rw [gpsAgeCell]
  refine (nullIfBlank_withSortKey ?_ _).withAgeBand _
  split
  · exact isBlank_intText _
  · exact isBlank_write ..

@[simp] theorem nullIfBlank_satellitesCell : (satellitesCell e).NullIfBlank := by
  rw [satellitesCell]
  split
  · exact nullIfBlank_withSortKey (isBlank_intText _) _
  · exact nullIfBlank_blank

@[simp] theorem nullIfBlank_speedCell (more : String) :
    (speedCell ctx argument e more).NullIfBlank := by
  rw [speedCell]
  split
  · exact nullIfBlank_withSortKey (isBlank_append_left (isBlank_formatNumber ..) _) _
  · exact nullIfBlank_withSortKey (by decide) _

@[simp] theorem isBlank_styled (code : StatusCode) (cell : Cell) :
    (styled ctx code cell).isBlank = cell.isBlank := by
  rw [styled]
  cases (ctx.statusStyle? code).filter (·.hasColors) with
  | none => rfl
  | some style =>
    dsimp only
    cases style.foreground.bind nonBlank? <;> cases style.background.bind nonBlank? <;> rfl

theorem nullIfBlank_statusCell {text : String} (h : isBlank text = false) (a : StatusArgument)
    (code : StatusCode) : (statusCell ctx a code text).NullIfBlank := by
  refine nullIfBlank_of_isBlank ?_
  rw [statusCell]
  split
  · rw [isBlank_styled]
    exact h
  · exact h

@[simp] theorem nullIfBlank_fuelLevelCell : (fuelLevelCell ctx e).NullIfBlank := by
  rw [fuelLevelCell]
  split
  · exact nullIfBlank_ofText _
  · exact nullIfBlank_positiveCell (nullIfBlank_withSortKey (isBlank_percentText _) _) _

@[simp] theorem nullIfBlank_fuelPressureCell : (fuelPressureCell ctx argument e).NullIfBlank := by
  rw [fuelPressureCell]
  split
  · exact nullIfBlank_blank
  · exact nullIfBlank_measureCell ..

@[simp] theorem nullIfBlank_engineRpmCell : (engineRpmCell e).NullIfBlank := by
  rw [engineRpmCell]
  split
  · exact nullIfBlank_blank
  · exact nullIfBlank_withSortKey (isBlank_intText _) _

@[simp] theorem nullIfBlank_voltsCell (volts : Float) :
    (voltsCell ctx argument volts).NullIfBlank :=
  nullIfBlank_withSortKey (isBlank_append_left (isBlank_formatNumber ..) _) _

@[simp] theorem nullIfBlank_batteryCell : (batteryCell ctx argument e).NullIfBlank := by
  rw [batteryCell]
  split
  · exact nullIfBlank_percentCell _
  · split
    · exact nullIfBlank_voltsCell ..
    · exact nullIfBlank_positiveCell (nullIfBlank_voltsCell ..) _

@[simp] theorem nullIfBlank_propertyMeasureCell (q : Quantity) (x : Float) :
    (propertyMeasureCell ctx q x argument).NullIfBlank := by
  cases q with
  | distance => exact nullIfBlank_positiveCell (nullIfBlank_measureCell ..) x
  | temperature => exact nullIfBlank_temperatureCell ..
  | speed | volume | pressure | economy | altitude => exact nullIfBlank_measureCell ..

theorem nullIfBlank_propertyCell (properties : Properties) (name : String)
    (format : List Char) : (propertyCell ctx properties name format).NullIfBlank := by
  cases format with
  | nil => exact nullIfBlank_ofText _
  | cons letter rest =>
    rw [propertyCell]
    cases PropertyKind.ofLetter letter.toUpper with
    | text => exact nullIfBlank_ofText _
    | number =>
      dsimp only
      split
      · exact nullIfBlank_withSortKey (isBlank_intText _) _
      · exact nullIfBlank_numberCell ..
    | measure q => exact nullIfBlank_propertyMeasureCell ..
    | point =>
      dsimp only
      split
      · exact nullIfBlank_ofText _
      · exact nullIfBlank_blank
    | elapsed => exact nullIfBlank_withSortKey (isBlank_write ..) _

@[simp] theorem nullIfBlank_attachPropCell : (attachPropCell ctx argument e).NullIfBlank := by
  rw [attachPropCell]
  cases e.attachmentProperties with
  | none => exact nullIfBlank_blank
  | some properties =>
    dsimp only
    split
    · exact nullIfBlank_blank
    · exact nullIfBlank_propertyCell ..

end Columns

/-! ## Where a blank cell has a sort key -/

/-- **Values that are there and shown as a blank text**: dated times by a pattern that
    shows nothing, and headings by a label of their compass point that is blank. -/
def BlankWithKey (ctx : Context) (argument : String) (e : Event) : (key : String) → Prop
  | "date" => Dated e.timestamp ∧ ShowsNothing ctx.dateFormat.toList
  | "time" => Dated e.timestamp ∧ ShowsNothing ctx.timeFormat.toList
  | "dateTime" =>
    Dated e.timestamp ∧ ShowsNothing (ctx.dateFormat.toList ++ ' ' :: ctx.timeFormat.toList)
  | "createDateTime" =>
    Dated e.creationTime ∧ ShowsNothing (ctx.dateFormat.toList ++ ' ' :: ctx.timeFormat.toList)
  | "checkinDateTime" => ∃ time, checkinTime ctx e = .ok (some time) ∧
    Dated time ∧ ShowsNothing (ctx.dateFormat.toList ++ ' ' :: ctx.timeFormat.toList)
  | "heading" =>
    0.0 < e.speedKph ∧ isBlank argument = true ∧ isBlank (compassText ctx e.heading) = true
  | _ => False

/-- The columns whose text is configured apart from their sort key. -/
def configuredKeys : List String :=
  ["date", "time", "dateTime", "createDateTime", "checkinDateTime", "heading"]

theorem BlankWithKey.mem {ctx : Context} {argument : String} {e : Event} {key : String}
    (h : BlankWithKey ctx argument e key) : key ∈ configuredKeys := by
  unfold BlankWithKey at h
  split at h
  case h_7 => exact absurd h id
  all_goals decide

/-- The column makes a blank cell with a sort key. -/
def KeyedBlank (column : Column Event) (row : Nat) (ctx : Context) (argument : String)
    (e : Event) : Prop :=
  ∃ cell, column.value row ctx argument e = .ok cell ∧ cell.isBlank = true ∧ cell.sortKey ≠ none

/-- **The column makes a blank cell with a sort key** exactly for a value that is shown as
    a blank text. -/
def BlankAsConfigured (column : Column Event) : Prop :=
  ∀ row ctx argument e, KeyedBlank column row ctx argument e ↔
    BlankWithKey ctx argument e column.key

theorem map_eq_ok_iff {ε α β : Type} {r : Except ε α} {f : α → β} {b : β} :
    r.map f = .ok b ↔ ∃ a, r = .ok a ∧ f a = b := by
  cases r <;> simp [Except.map]

namespace BlankAsConfigured

theorem of_nullIfBlank {column : Column Event} (hk : column.key ∉ configuredKeys)
    (h : ∀ row ctx argument e cell, column.value row ctx argument e = .ok cell →
      cell.NullIfBlank) : BlankAsConfigured column := by
  intro row ctx argument e
  constructor
  · rintro ⟨cell, hv, hb, hkey⟩
    exact absurd ((h row ctx argument e cell hv).sortKey_eq_none hb) hkey
  · intro h
    exact absurd h.mem hk

variable {key : String} {title : Context → String → String}

theorem column {value : Nat → Context → String → Event → Cell} (hk : key ∉ configuredKeys)
    (h : ∀ row ctx argument e, (value row ctx argument e).NullIfBlank) :
    BlankAsConfigured (Columns.column key title value) := by
  refine of_nullIfBlank hk fun row ctx argument e cell hv => ?_
  cases hv
  exact h row ctx argument e

theorem deviceColumn {value : Context → String → Event → Option Device → Cell}
    (hk : key ∉ configuredKeys) (h : ∀ ctx argument e d, (value ctx argument e d).NullIfBlank) :
    BlankAsConfigured (Columns.deviceColumn key title value) := by
  refine of_nullIfBlank hk fun row ctx argument e cell hv => ?_
  obtain ⟨d, -, rfl⟩ := map_eq_ok_iff.1 hv
  exact h ctx argument e d

end BlankAsConfigured

section
variable {ctx : Context} {argument : String} {e : Event}

theorem keyedBlank_column_iff {key : String} {title : Context → String → String}
    {value : Nat → Context → String → Event → Cell} {row : Nat} :
    KeyedBlank (column key title value) row ctx argument e ↔
      (value row ctx argument e).isBlank = true ∧ (value row ctx argument e).sortKey ≠ none := by
  constructor
  · rintro ⟨cell, hv, h⟩
    cases hv
    exact h
  · exact fun h => ⟨_, rfl, h⟩

theorem blank_timeCell_iff {time : Int} {text : Option String} :
    (timeCell time text).isBlank = true ∧ (timeCell time text).sortKey ≠ none ↔
      BlankTime time text := by
  rw [sortKey_timeCell, BlankTime]
  cases text with
  | none => simp
  | some shown =>
    by_cases h : 0 < time
    · simp [timeCell, h, Cell.isBlank, Cell.withSortKey, Cell.ofText, Cell.withText]
    · simp [h]

theorem blank_createDateTimeCell_iff :
    (createDateTimeCell ctx e).isBlank = true ∧ (createDateTimeCell ctx e).sortKey ≠ none ↔
      BlankTime e.creationTime (ctx.formatDateTime? e.creationTime) := by
  rw [sortKey_createDateTimeCell, ← blank_timeCell_iff, createDateTimeCell]
  split
  · rfl
  · rw [isBlank_withAgeBand]

theorem blank_headingCell_iff :
    (headingCell ctx argument e).isBlank = true ∧ (headingCell ctx argument e).sortKey ≠ none ↔
      0.0 < e.speedKph ∧ isBlank argument = true ∧ isBlank (compassText ctx e.heading) = true := by
  rw [headingCell, sortKey_positiveCell, positiveCell]
  by_cases h : 0.0 < e.speedKph
  · rw [if_pos h, if_pos h]
    by_cases ha : isBlank argument = true <;>
      simp [h, ha, Cell.isBlank, Cell.withSortKey, Cell.ofText, Cell.withText]
  · simp [h]

theorem keyedBlank_checkinColumn_iff {key : String} {title : Context → String → String}
    {value : Context → Int → Cell} {row : Nat} :
    KeyedBlank (checkinColumn key title value) row ctx argument e ↔
      ∃ time, checkinTime ctx e = .ok (some time) ∧
        (value ctx time).isBlank = true ∧ (value ctx time).sortKey ≠ none := by
  constructor
  · rintro ⟨cell, hv, hb, hk⟩
    obtain ⟨known, hc, rfl⟩ := map_eq_ok_iff.1 hv
    cases known with
    | none => exact absurd rfl hk
    | some time => exact ⟨time, hc, hb, hk⟩
  · rintro ⟨time, hc, hb, hk⟩
    exact ⟨_, map_eq_ok_iff.2 ⟨some time, hc, rfl⟩, hb, hk⟩

theorem blank_checkinDateTimeCell_iff {time : Int} :
    (checkinDateTimeCell ctx time).isBlank = true ∧ (checkinDateTimeCell ctx time).sortKey ≠ none ↔
      BlankTime time (ctx.formatDateTime? time) := by
  rw [sortKey_checkinDateTimeCell, ← blank_timeCell_iff, checkinDateTimeCell,
    isBlank_withAgeBand]

theorem BlankAsConfigured.column_of_iff {key : String} {title : Context → String → String}
    {value : Nat → Context → String → Event → Cell}
    (h : ∀ row ctx argument e, (value row ctx argument e).isBlank = true ∧
      (value row ctx argument e).sortKey ≠ none ↔ BlankWithKey ctx argument e key) :
    BlankAsConfigured (Columns.column key title value) :=
  fun row ctx argument e => keyedBlank_column_iff.trans (h row ctx argument e)

theorem BlankAsConfigured.checkinColumn {key : String} {title : Context → String → String}
    {value : Context → Int → Cell} (hk : key ∉ configuredKeys)
    (h : ∀ ctx time, (value ctx time).NullIfBlank) :
    BlankAsConfigured (Columns.checkinColumn key title value) := by
  refine of_nullIfBlank hk fun row ctx argument e cell hv => ?_
  obtain ⟨known, -, rfl⟩ := map_eq_ok_iff.1 hv
  cases known with
  | none => exact nullIfBlank_blank
  | some time => exact h ctx time

theorem nullIfBlank_timeCell {time : Int} {text : String} (h : isBlank text = false) :
    (timeCell time (some text)).NullIfBlank := by
  rw [timeCell]
  split
  · exact nullIfBlank_withSortKey h _
  · exact nullIfBlank_blank

end

/-! ## All columns -/

theorem blankAsConfigured_vehicleColumns : ∀ column ∈ vehicleColumns, BlankAsConfigured column := by
  simp only [vehicleColumns, List.forall_mem_cons, List.not_mem_nil, false_imp_iff,
    implies_true, and_true]
  refine ⟨.column (by decide) ?_, .column (by decide) ?_, ?device⟩
  case device =>
    and_intros
    all_goals refine .deviceColumn (by decide) fun ctx argument e d => ?_
    all_goals cases d <;> simp [deviceTextCell, lastBatteryCell, nullIfBlank_of_sortKey]
  · exact fun row ctx argument e => nullIfBlank_indexCell ctx argument row
  · exact fun row ctx argument e => nullIfBlank_of_sortKey (sortKey_deviceIdCell ctx argument e)

theorem blankAsConfigured_timeColumns : ∀ column ∈ timeColumns, BlankAsConfigured column := by
  simp only [timeColumns, List.forall_mem_cons, List.not_mem_nil, false_imp_iff, implies_true,
    and_true]
  refine ⟨.column_of_iff ?date, .column_of_iff ?time, .column_of_iff ?dateTime,
    .column (by decide) ?timestamp, .column_of_iff ?createDateTime, .column (by decide) ?createAge,
    .column (by decide) ?createMillis, ?checkinDateTime, .checkinColumn (by decide) ?checkinAge⟩
  case date =>
    exact fun row ctx argument e => blank_timeCell_iff.trans (blankTime_formatDate?_iff ..)
  case time =>
    exact fun row ctx argument e => blank_timeCell_iff.trans (blankTime_formatTime?_iff ..)
  case dateTime =>
    exact fun row ctx argument e => blank_timeCell_iff.trans (blankTime_formatDateTime?_iff ..)
  case createDateTime =>
    intro row ctx argument e
    exact blank_createDateTimeCell_iff.trans (blankTime_formatDateTime?_iff ..)
  case timestamp => exact fun row ctx argument e => nullIfBlank_timeCell (isBlank_intText _)
  case createAge => exact fun row ctx argument e => nullIfBlank_createAgeCell ctx argument e
  case createMillis =>
    exact fun row ctx argument e => nullIfBlank_withSortKey (isBlank_intText _) _
  case checkinDateTime =>
    intro row ctx argument e
    rw [keyedBlank_checkinColumn_iff]
    simp only [blank_checkinDateTimeCell_iff, blankTime_formatDateTime?_iff]
    rfl
  case checkinAge => exact fun ctx time => nullIfBlank_checkinAgeCell ctx time

theorem blankAsConfigured_placeColumns : ∀ column ∈ placeColumns, BlankAsConfigured column := by
  simp only [placeColumns, List.forall_mem_cons, List.not_mem_nil, false_imp_iff, implies_true,
    and_true]
  refine ⟨.column (by decide) ?latitude, .column (by decide) ?longitude,
    .column (by decide) ?geoPoint, .column (by decide) ?gpsAge, .column (by decide) ?altitude,
    .column (by decide) ?accuracy, .column (by decide) ?satellites, .column (by decide) ?address,
    .column (by decide) ?city⟩
  case latitude | longitude =>
    intro row ctx argument e
    exact nullIfBlank_positionCell ctx argument e fun f =>
      nullIfBlank_withSortKey (isBlank_formatCoordinate ..) _
  case geoPoint =>
    intro row ctx argument e
    exact nullIfBlank_positionCell ctx argument e fun f => nullIfBlank_ofText _
  case accuracy =>
    intro row ctx argument e
    exact nullIfBlank_positiveCell (nullIfBlank_measureCell ..) _
  all_goals intros; simp

theorem blankAsConfigured_movementColumns :
    ∀ column ∈ movementColumns, BlankAsConfigured column := by
  have hdistance : ∀ ctx argument km, (distanceCell ctx argument km).NullIfBlank :=
    fun ctx argument km => nullIfBlank_positiveCell (nullIfBlank_measureCell ..) km
  simp only [movementColumns, List.forall_mem_cons, List.not_mem_nil, false_imp_iff, implies_true,
    and_true]
  refine ⟨.column (by decide) ?speed, .column (by decide) ?speedLimit,
    .column (by decide) ?speedH, .column (by decide) ?speedU,
    .column_of_iff fun _ _ _ _ => blank_headingCell_iff, .column (by decide) ?distance,
    .deviceColumn (by decide) ?odometer, .column (by decide) ?reportDistance⟩
  case speedLimit =>
    intro row ctx argument e
    exact nullIfBlank_positiveCell (nullIfBlank_measureCell ..) _
  case distance | reportDistance => exact fun row ctx argument e => hdistance ctx argument _
  case odometer => exact fun ctx argument e d => hdistance ctx argument _
  all_goals exact fun row ctx argument e => nullIfBlank_speedCell ctx argument e _

theorem blankAsConfigured_statusColumns : ∀ column ∈ statusColumns, BlankAsConfigured column := by
  simp only [statusColumns, List.forall_mem_cons, List.not_mem_nil, false_imp_iff, implies_true,
    and_true]
  refine ⟨.column (by decide) ?_, .column (by decide) ?_⟩
  all_goals intros; exact nullIfBlank_statusCell _ (by simp) _ _

theorem blankAsConfigured_fuelColumns : ∀ column ∈ fuelColumns, BlankAsConfigured column := by
  have hvolume : ∀ ctx argument liters, (volumeCell ctx argument liters).NullIfBlank :=
    fun ctx argument liters => nullIfBlank_positiveCell (nullIfBlank_measureCell ..) liters
  simp only [fuelColumns, List.forall_mem_cons, List.not_mem_nil, false_imp_iff, implies_true,
    and_true]
  refine ⟨.column (by decide) ?level, ?volume, .column (by decide) ?total,
    .column (by decide) ?remain, .column (by decide) ?economy, .column (by decide) ?pressure⟩
  case volume =>
    refine .of_nullIfBlank (by decide) fun row ctx argument e cell hv => ?_
    dsimp only at hv
    rw [fuelLevelVolume] at hv
    split at hv
    · obtain ⟨d, -, rfl⟩ := map_eq_ok_iff.1 hv
      exact hvolume ctx argument _
    · cases hv
      exact nullIfBlank_blank
  case total | remain => exact fun row ctx argument e => hvolume ctx argument _
  case economy =>
    intro row ctx argument e
    exact nullIfBlank_positiveCell (nullIfBlank_measureCell ..) _
  all_goals intros; simp

theorem blankAsConfigured_engineColumns : ∀ column ∈ engineColumns, BlankAsConfigured column := by
  have hhours : ∀ ctx argument hours, (hoursCell ctx argument hours).NullIfBlank :=
    fun ctx argument hours => nullIfBlank_positiveCell (nullIfBlank_numberCell ..) hours
  simp only [engineColumns, List.forall_mem_cons, List.not_mem_nil, false_imp_iff, implies_true,
    and_true]
  refine ⟨.column (by decide) ?rpm, .deviceColumn (by decide) ?engineHours,
    .column (by decide) ?idleHours, .column (by decide) ?coolant, .column (by decide) ?oil,
    .column (by decide) ?tirePressure, .column (by decide) ?tireTemp, .column (by decide) ?battery,
    .column (by decide) ?volts, .column (by decide) ?percent⟩
  case engineHours => exact fun ctx argument e d => hhours ctx argument _
  case idleHours => exact fun row ctx argument e => hhours ctx argument _
  case oil =>
    intro row ctx argument e
    exact nullIfBlank_positiveCell (nullIfBlank_measureCell ..) _
  case tirePressure | tireTemp =>
    exact fun row ctx argument e => nullIfBlank_of_sortKey (sortKey_readingsCell ..)
  case volts =>
    intro row ctx argument e
    exact nullIfBlank_positiveCell (nullIfBlank_numberCell ..) _
  all_goals intros; simp

theorem blankAsConfigured_airColumns : ∀ column ∈ airColumns, BlankAsConfigured column := by
  simp only [airColumns, List.forall_mem_append, List.forall_mem_cons, List.forall_mem_map,
    List.not_mem_nil, false_imp_iff, implies_true, and_true]
  refine ⟨⟨.column (by decide) ?_, .column (by decide) ?_, .column (by decide) ?barometer⟩,
    fun sensor hs => .column ?key ?_⟩
  case barometer =>
    intro row ctx argument e
    exact nullIfBlank_positiveCell (nullIfBlank_withSortKey (isBlank_formatNumber ..) _) _
  case key =>
    revert sensor
    decide +kernel
  all_goals intros; simp

theorem blankAsConfigured_attachmentColumns :
    ∀ column ∈ attachmentColumns, BlankAsConfigured column := by
  simp only [attachmentColumns, List.forall_mem_cons, List.not_mem_nil, false_imp_iff,
    implies_true, and_true]
  refine ⟨.column (by decide) ?url, .column (by decide) ?prop⟩
  case url => exact fun row ctx argument e => nullIfBlank_of_sortKey (sortKey_attachUrlCell ..)
  case prop => exact fun row ctx argument e => nullIfBlank_attachPropCell ctx argument e

theorem blankAsConfigured_of_mem {column : Column Event} (h : column ∈ eventColumns) :
    BlankAsConfigured column :=
  forall_mem_eventColumns blankAsConfigured_vehicleColumns blankAsConfigured_timeColumns
    blankAsConfigured_placeColumns blankAsConfigured_movementColumns
    blankAsConfigured_statusColumns blankAsConfigured_fuelColumns blankAsConfigured_engineColumns
    blankAsConfigured_airColumns blankAsConfigured_attachmentColumns column h

/-! ## Tables -/

section
variable {ctx : Context} {requests : List ColumnRequest} {request : ColumnRequest} {column : Nat}
  {events : List Event}

theorem nullIfBlank_resolveCell {e : Event}
    (h : ¬ BlankWithKey ctx request.argument e request.key) (row : Nat) :
    (resolveCell eventCatalog ctx row e request).NullIfBlank := by
  rw [resolveCell]
  cases hl : eventCatalog.lookup? request.key with
  | none => exact nullIfBlank_blank
  | some found =>
    have hkey : found.key = request.key := by simpa using List.find?_some hl
    have hiff := blankAsConfigured_of_mem (List.mem_of_find?_eq_some hl) row ctx request.argument e
    dsimp only
    cases hv : found.value row ctx request.argument e with
    | error error => exact nullIfBlank_blank
    | ok cell =>
      constructor
      intro hb
      by_contra hk
      exact h (hkey ▸ hiff.1 ⟨cell, hv, hb, hk⟩)

theorem isNullCell_of_nullIfBlank {c : Cell} (h : c.NullIfBlank) :
    isNullCell (some c) = c.isBlank := by
  rw [isNullCell]
  cases hb : c.isBlank with
  | false => rfl
  | true =>
    rw [h.sortKey_eq_none hb]
    rfl

/-- In such a column the blank cells are the nulls. -/
theorem isNullCell_assembleEvents (hq : requests[column]? = some request)
    (h : ∀ e ∈ events, ¬ BlankWithKey ctx request.argument e request.key) {row : List Cell}
    (hrow : row ∈ (assembleEvents ctx requests events).rows) :
    isNullCell row[column]? = row[column]?.all Cell.isBlank := by
  obtain ⟨i, hi, rfl⟩ := List.mem_mapIdx.1 hrow
  rw [getElem?_assembleRow, hq, Option.map_some, Option.all_some]
  have hcell := nullIfBlank_resolveCell (h _ (List.getElem_mem hi)) i
  exact isNullCell_of_nullIfBlank ⟨hcell.sortKey_eq_none⟩

end

/-- **Blank cells are nulls unless their texts are configured so.**  A column over events
    makes a blank cell with a sort key exactly where a dated time, or the heading of a
    vehicle that moves, is shown as a blank text, because the pattern or the label is
    configured so.  In a table whose column has no such cell the blank ones stand in one
    block at the chosen end when it is sorted. -/
theorem blank_cells_are_nulls_unless_configured (ctx : Context) :
    (∀ column ∈ eventColumns, ∀ row argument e,
      (∃ cell, column.value row ctx argument e = .ok cell ∧ cell.isBlank = true ∧
        cell.sortKey ≠ none) ↔ BlankWithKey ctx argument e column.key) ∧
    ∀ requests events column request s sorted, requests[column]? = some request →
      (∀ e ∈ events, ¬ BlankWithKey ctx request.argument e request.key) →
      sorted = ((assembleEvents ctx requests events).sortByColumn column s).rows →
      sorted = s.place (sorted.filter fun row => row[column]?.all Cell.isBlank)
        (sorted.filter fun row => !row[column]?.all Cell.isBlank) := by
  refine ⟨fun column hm row argument e => blankAsConfigured_of_mem hm row ctx argument e, ?tables⟩
  case tables =>
    intro requests events column request s sorted hq h hsorted
    obtain ⟨hcount, -⟩ := List.getElem?_eq_some_iff.1 hq
    have hc : column < (assembleEvents ctx requests events).columnCount := by
      simpa [Table.columnCount, assembleEvents, assemble] using hcount
    have hperm := Table.rows_sortByColumn_perm (assembleEvents ctx requests events) column s
    have hnulls := (Table.sortedBy_sortByColumn s hc).nulls
    rw [← hsorted] at hnulls hperm
    have hblank : ∀ row ∈ sorted, isNullCell row[column]? = row[column]?.all Cell.isBlank :=
      fun row hrow => isNullCell_assembleEvents hq h (hperm.mem_iff.1 hrow)
    have hin : (sorted.filter fun row => isNullCell row[column]?) =
        sorted.filter fun row => row[column]?.all Cell.isBlank :=
      List.filter_congr hblank
    have hout : (sorted.filter fun row => !isNullCell row[column]?) =
        sorted.filter fun row => !row[column]?.all Cell.isBlank :=
      List.filter_congr fun row hrow => by rw [hblank row hrow]
    rw [← hin, ← hout]
    exact hnulls

/-- Dates by the usual pattern: that of an event without a time is blank, and stands behind
    the others. -/
theorem missing_dates_stand_behind :
    let ctx : Context := { now := 0 }
    let requests : List ColumnRequest := [{ key := "date" }]
    let events : List Event := [{}, { timestamp := 86400 }]
    let s : SortSpec := { nulls := .last }
    requests[0]? = some { key := "date" } ∧ (∀ e ∈ events, ¬ BlankWithKey ctx "" e "date") ∧
      ∃ sorted, sorted = ((assembleEvents ctx requests events).sortByColumn 0 s).rows ∧
        sorted = s.place (sorted.filter fun row => row[0]?.all Cell.isBlank)
          (sorted.filter fun row => !row[0]?.all Cell.isBlank) := by
  intro ctx requests events s
  have hshown : ∀ e ∈ events, ¬ BlankWithKey ctx "" e "date" := by
    rintro e - ⟨-, hnothing⟩
    exact absurd hnothing (by decide +kernel)
  obtain ⟨-, htables⟩ := blank_cells_are_nulls_unless_configured ctx
  exact ⟨rfl, hshown, _, rfl, htables requests events 0 _ s _ rfl hshown rfl⟩

/-- Dates by a pattern that is not blank, but shows nothing: the cells are blank, and sorted
    by the times that they do not show. -/
theorem blank_dates_are_sorted_by_their_times :
    let s : Settings := { dateFormat := "%t" }
    let requests : List ColumnRequest := [{ key := "date" }, { key := "index" }]
    let events : List Event := [{ timestamp := 172800 }, { timestamp := 86400 }]
    ∃ ctx, s.toContext 0 none = .ok ctx ∧
      (assembleEvents ctx requests events).rows.map (·.map Cell.value) =
        [["--", "1"], ["--", "2"]] ∧
      (∀ row ∈ (assembleEvents ctx requests events).rows,
        row[0]?.any Cell.isBlank = true ∧ isNullCell row[0]? = false) ∧
      (assembleEvents ctx requests events).rows.Pairwise fun a b =>
        SortSpec.compareRows {} 0 a b = .gt := by
  intro s requests events
  have hshown : (s.toContext 0 none).toOption.any fun ctx =>
      (assembleEvents ctx requests events).rows.map (·.map Cell.value) =
        [["--", "1"], ["--", "2"]] ∧
      (∀ row ∈ (assembleEvents ctx requests events).rows,
        row[0]?.any Cell.isBlank = true ∧ isNullCell row[0]? = false) ∧
      (assembleEvents ctx requests events).rows.Pairwise fun a b =>
        SortSpec.compareRows {} 0 a b = .gt := by
    decide +kernel
  cases h : s.toContext 0 none with
  | error e => simp [h, Except.toOption] at hshown
  | ok ctx =>
    rw [h] at hshown
    exact ⟨ctx, rfl, of_decide_eq_true hshown⟩

end EventTable
