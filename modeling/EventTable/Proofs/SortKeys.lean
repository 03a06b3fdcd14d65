/-
  EventTable — what the cells of events are sorted by.

  * `sortKey_…Cell` is the sort key of a kind of cell, which is taken from the
    metric value, the code or the time and never from the text;
  * `KeyedByFacts` holds of a column whose sort keys are the same in contexts
    that differ in presentation only, and for any two arguments unless the
    argument chooses what is shown (`argumentKeyed`);
  * `keyedByFacts_of_mem`: all columns over events are such columns;
  * `overflows_congr`: nor does a column overflow for one reader only, unless by
    an age of storage that is too great;
  * `presentation_never_moves_rows`: so a table is sorted alike for every
    reader, by columns all of whose cells have a key.
-/
import EventTable.Proofs.LookUps
import EventTable.Proofs.Sorting

namespace EventTable

open Text Number Calendar

/-! ## Times that have a text -/

namespace Context

variable (ctx : Context) (time : Int)

/-- Whether a time has a text hangs neither on the zone nor on the pattern. -/
theorem isSome_formatTimestamp? {pattern fallback : List Char} (h : (items? fallback).isSome) :
    (ctx.formatTimestamp? time pattern fallback).isSome =
      decide (Moment.earliest ≤ time ∧ time ≤ Moment.latest) := by
  obtain ⟨is, his⟩ := Option.isSome_iff_exists.1 h
  by_cases ht : Moment.earliest ≤ time ∧ time ≤ Moment.latest
  · cases hp : items? pattern <;>
      simp [formatTimestamp?, moment?, Moment.ofTimestamp?, ht, format?, his, hp]
  · simp [formatTimestamp?, moment?, Moment.ofTimestamp?, ht]

theorem isSome_formatDate? : (ctx.formatDate? time).isSome =
    decide (Moment.earliest ≤ time ∧ time ≤ Moment.latest) :=
  ctx.isSome_formatTimestamp? time (by decide +kernel)

theorem isSome_formatTime? : (ctx.formatTime? time).isSome =
    decide (Moment.earliest ≤ time ∧ time ≤ Moment.latest) :=
  ctx.isSome_formatTimestamp? time (by decide +kernel)

theorem isSome_formatDateTime? : (ctx.formatDateTime? time).isSome =
    decide (Moment.earliest ≤ time ∧ time ≤ Moment.latest) :=
  ctx.isSome_formatTimestamp? time (by decide +kernel)

end Context

/-! ## The keys of cells -/

namespace Columns

variable (ctx : Context) (argument : String) (e : Event)

@[simp] theorem sortKey_measureCell (q : Quantity) (x : Float) (default : String) :
    (measureCell ctx q x argument default).sortKey = some (hundredths x) := rfl

@[simp] theorem sortKey_numberCell (x : Float) (default : String) :
    (numberCell ctx x argument default).sortKey = some (hundredths x) := rfl

@[simp] theorem sortKey_positiveCell (x : Float) (cell : Cell) :
    (positiveCell x cell).sortKey = if 0.0 < x then cell.sortKey else none := by
  rw [positiveCell]
  split <;> rfl

@[simp] theorem sortKey_temperatureCell (celsius : Option Float) :
    (temperatureCell ctx celsius argument).sortKey =
      (celsius.filter isValidTemperature).map hundredths := by
  rw [temperatureCell]
  cases celsius.filter isValidTemperature <;> rfl

@[simp] theorem sortKey_indexCell (row : Nat) :
    (indexCell row ctx argument).sortKey = some (Float.ofNat row) := by
  rw [indexCell]
  split
  · cases ctx.mapUrl <;> rfl
  · rfl

@[simp] theorem sortKey_deviceIdCell : (deviceIdCell ctx argument e).sortKey = none := by
  rw [deviceIdCell]
  cases ctx.deviceAdminUrl with
  | none => rfl
  | some url =>
    dsimp only
    split <;> rfl

@[simp] theorem sortKey_customFieldCell (d : Option Device) :
    (customFieldCell ctx argument e d).sortKey = none := by
  rw [customFieldCell]
  cases d.bind (·.customAttribute? argument) <;> rfl

@[simp] theorem sortKey_timeCell (time : Int) (text : Option String) :
    (timeCell time text).sortKey =
      if text.isSome ∧ 0 < time then some (Float.ofInt time) else none := by
  cases text with
  | none => rfl
  | some text =>
    rw [timeCell]
    by_cases h : 0 < time <;> simp [h]

@[simp] theorem sortKey_createDateTimeCell : (createDateTimeCell ctx e).sortKey =
    (timeCell e.creationTime (ctx.formatDateTime? e.creationTime)).sortKey := by
  rw [createDateTimeCell]
  split
  · rfl
  · exact Cell.sortKey_withAgeBand ..

@[simp] theorem sortKey_createAgeCell : (createAgeCell ctx argument e).sortKey =
    if e.creationTime ≤ 0 then none else some (Float.ofInt e.creationAge) := by
  rw [createAgeCell]
  split <;> simp

@[simp] theorem sortKey_checkinDateTimeCell (time : Int) :
    (checkinDateTimeCell ctx time).sortKey =
      (timeCell time (ctx.formatDateTime? time)).sortKey :=
  Cell.sortKey_withAgeBand ..

@[simp] theorem sortKey_checkinAgeCell (time : Int) :
    (checkinAgeCell ctx time).sortKey = some (Float.ofInt (max (ctx.ageOf time) 0)) := by
  simp [checkinAgeCell]

@[simp] theorem sortKey_positionCell (cell : CoordinateFormat → Cell) :
    (positionCell ctx argument e cell).sortKey =
      if isValidPoint e.latitude e.longitude then
        (cell (.ofArgument argument ctx.units.coordinates)).sortKey else none := by
  rw [positionCell]
  split
  · exact Cell.sortKey_withAgeBand ..
  · rfl

@[simp] theorem sortKey_gpsAgeCell :
    (gpsAgeCell ctx argument e).sortKey = some (Float.ofInt e.gpsAge) :=
  Cell.sortKey_withAgeBand ..

@[simp] theorem sortKey_speedCell (more : String) : (speedCell ctx argument e more).sortKey =
    if 0.0 < e.speedKph then some (hundredths e.speedKph) else some 0.0 := by
  rw [speedCell]
  split <;> rfl

@[simp] theorem sortKey_styled (code : StatusCode) (cell : Cell) :
    (styled ctx code cell).sortKey = cell.sortKey := by
  rw [styled]
  cases (ctx.statusStyle? code).filter (·.hasColors) with
  | none => rfl
  | some style =>
    dsimp only
    cases style.foreground.bind nonBlank? <;> cases style.background.bind nonBlank? <;> rfl

@[simp] theorem sortKey_statusCell (a : StatusArgument) (code : StatusCode) (text : String) :
    (statusCell ctx a code text).sortKey = some (Float.ofNat code.toNat) := by
  rw [statusCell]
  split <;> simp

@[simp] theorem sortKey_readingsCell (text : Float → String) (readings : List Float) :
    (readingsCell ctx text readings).sortKey = none := by
  rw [readingsCell]
  split <;> rfl

@[simp] theorem sortKey_voltsCell (volts : Float) :
    (voltsCell ctx argument volts).sortKey = some (hundredths volts) := rfl

@[simp] theorem sortKey_fuelPressureCell : (fuelPressureCell ctx argument e).sortKey =
    if e.fuelPressureKpa == 0.0 || !e.fuelPressureKpa.isFinite then none
    else some (hundredths e.fuelPressureKpa) := by
  rw [fuelPressureCell]
  split <;> rfl

@[simp] theorem sortKey_fuelLevelCell : (fuelLevelCell ctx e).sortKey =
    if e.fuelLevel < 0.0 then none
    else if 0.0 < e.fuelLevel then some (hundredths (fraction e.fuelLevel)) else none := by
  rw [fuelLevelCell]
  split
  · rfl
  · exact sortKey_positiveCell ..

@[simp] theorem sortKey_batteryCell : (batteryCell ctx argument e).sortKey =
    if 0.0 < e.batteryLevel && e.batteryLevel ≤ 1.0 then (percentCell e.batteryLevel).sortKey
    else if 1.0 < e.batteryLevel then some (hundredths e.batteryLevel)
    else if 0.0 < e.batteryVolts then some (hundredths e.batteryVolts) else none := by
  rw [batteryCell]
  split
  · rfl
  · split
    · rfl
    · exact sortKey_positiveCell ..

@[simp] theorem sortKey_attachUrlCell : (attachUrlCell ctx e).sortKey = none := by
  rw [attachUrlCell]
  cases (e.attachmentType.map trim).filter (· ≠ "") with
  | none => rfl
  | some mime =>
    dsimp only
    split <;> rfl

@[simp] theorem sortKey_propertyMeasureCell (q : Quantity) (x : Float) :
    (propertyMeasureCell ctx q x argument).sortKey = match q with
      | .distance => if 0.0 < x then some (hundredths x) else none
      | .temperature => if isValidTemperature x then some (hundredths x) else none
      | _ => some (hundredths x) := by
  cases q with
  | distance => exact sortKey_positiveCell ..
  | temperature =>
    rw [propertyMeasureCell, sortKey_temperatureCell]
    cases h : isValidTemperature x <;> simp [Option.filter, h]
  | speed | volume | pressure | economy | altitude => rfl

/-- The key of a property hangs on its kind and its value only. -/
theorem sortKey_propertyCell_congr (ctx ctx' : Context) (properties : Properties) (name : String)
    (format : List Char) : (propertyCell ctx properties name format).sortKey =
      (propertyCell ctx' properties name format).sortKey := by
  cases format with
  | nil => rfl
  | cons letter rest =>
    simp only [propertyCell]
    cases PropertyKind.ofLetter letter.toUpper with
    | text | elapsed => rfl
    | number =>
      dsimp only
      split <;> simp
    | measure q => simp
    | point =>
      dsimp only
      cases parsePoint? (propertyText properties name) with
      | none => rfl
      | some point => rw [Cell.sortKey_ofText, Cell.sortKey_ofText]

theorem sortKey_attachPropCell_congr (ctx ctx' : Context) :
    (attachPropCell ctx argument e).sortKey = (attachPropCell ctx' argument e).sortKey := by
  rw [attachPropCell, attachPropCell]
  cases e.attachmentProperties with
  | none => rfl
  | some properties =>
    dsimp only
    split
    · rfl
    · exact sortKey_propertyCell_congr ..

end Columns

/-! ## The keys of columns -/

/-- The contexts have one present time and one directory; anything else may
    differ. -/
structure Context.SameFacts (ctx ctx' : Context) : Prop where
  now : ctx.now = ctx'.now
  directory : ctx.directory = ctx'.directory

/-- The columns whose argument chooses what is shown, and not only how. -/
def argumentKeyed : List String := ["createMillis", "attachProp"]

/-- **The sort keys of a column hang on facts only**: in contexts of the same
    facts it fails alike or has the same key, and for any two arguments unless
    the argument chooses what is shown. -/
def KeyedByFacts (column : Column Event) : Prop :=
  ∀ ctx ctx' : Context, ctx.SameFacts ctx' → ∀ row argument argument' e,
    argument = argument' ∨ column.key ∉ argumentKeyed →
    (column.value row ctx argument e).map Cell.sortKey =
      (column.value row ctx' argument' e).map Cell.sortKey

theorem KeyedByFacts.column {key : String} {title : Context → String → String}
    {value : Nat → Context → String → Event → Cell}
    (h : ∀ row ctx ctx' argument argument' e,
      (value row ctx argument e).sortKey = (value row ctx' argument' e).sortKey) :
    KeyedByFacts (Columns.column key title value) :=
  fun ctx ctx' _ row argument argument' e _ =>
    congrArg Except.ok (h row ctx ctx' argument argument' e)

/-- The same for a column whose argument may choose what is shown. -/
theorem KeyedByFacts.column_of_mem {key : String} {title : Context → String → String}
    {value : Nat → Context → String → Event → Cell} (hk : key ∈ argumentKeyed)
    (h : ∀ row ctx ctx' argument e,
      (value row ctx argument e).sortKey = (value row ctx' argument e).sortKey) :
    KeyedByFacts (Columns.column key title value) := by
  intro ctx ctx' _ row argument argument' e ha
  rcases ha with rfl | ha
  · exact congrArg Except.ok (h row ctx ctx' argument e)
  · exact absurd hk ha

theorem Context.SameFacts.sameAnswers {ctx ctx' : Context} (h : ctx.SameFacts ctx') (e : Event) :
    ctx.SameAnswers ctx' e where
  device := by rw [Context.device?, Context.device?, h.directory]
  lastEvent := by rw [Context.lastEvent?, Context.lastEvent?, h.directory]

theorem map_map_except {ε α β γ : Type} (r : Except ε α) (f : α → β) (g : β → γ) :
    (r.map f).map g = r.map fun a => g (f a) := by
  cases r <;> rfl

theorem KeyedByFacts.deviceColumn {key : String} {title : Context → String → String}
    {value : Context → String → Event → Option Device → Cell}
    (h : ∀ ctx ctx' argument argument' e d,
      (value ctx argument e d).sortKey = (value ctx' argument' e d).sortKey) :
    KeyedByFacts (Columns.deviceColumn key title value) := by
  intro ctx ctx' hf row argument argument' e _
  simp only [Columns.deviceColumn, deviceOf_congr (hf.sameAnswers e), map_map_except]
  exact congrArg (Columns.deviceOf ctx' e).map (funext fun d => h ctx ctx' argument argument' e d)

theorem KeyedByFacts.checkinColumn {key : String} {title : Context → String → String}
    {value : Context → Int → Cell}
    (h : ∀ ctx ctx' : Context, ctx.SameFacts ctx' → ∀ time,
      (value ctx time).sortKey = (value ctx' time).sortKey) :
    KeyedByFacts (Columns.checkinColumn key title value) := by
  intro ctx ctx' hf row argument argument' e _
  simp only [Columns.checkinColumn, checkinTime_congr (hf.sameAnswers e), map_map_except]
  refine congrArg (Columns.checkinTime ctx' e).map (funext fun time => ?_)
  cases time with
  | none => rfl
  | some time => exact h ctx ctx' hf time

/-! ## All columns -/

open Columns

theorem keyedByFacts_vehicleColumns : ∀ column ∈ vehicleColumns, KeyedByFacts column := by
  simp only [vehicleColumns, List.forall_mem_cons, List.not_mem_nil, false_imp_iff,
    implies_true, and_true]
  refine ⟨.column ?_, .column ?_, .deviceColumn ?_, .deviceColumn ?_, .deviceColumn ?_,
    .deviceColumn ?_, .deviceColumn ?_, .deviceColumn ?_⟩
  all_goals intros; simp [deviceTextCell, lastBatteryCell]

theorem keyedByFacts_timeColumns : ∀ column ∈ timeColumns, KeyedByFacts column := by
  simp only [timeColumns, List.forall_mem_cons, List.not_mem_nil, false_imp_iff, implies_true,
    and_true]
  refine ⟨.column ?_, .column ?_, .column ?_, .column ?_, .column ?_, .column ?_,
    .column_of_mem (by decide) ?_, .checkinColumn ?_, .checkinColumn ?age⟩
  case age =>
    intro ctx ctx' h time
    simp [Context.ageOf, h.now]
  all_goals intros; simp [Context.isSome_formatDate?, Context.isSome_formatTime?,
    Context.isSome_formatDateTime?]

theorem keyedByFacts_placeColumns : ∀ column ∈ placeColumns, KeyedByFacts column := by
  simp only [placeColumns, List.forall_mem_cons, List.not_mem_nil, false_imp_iff, implies_true,
    and_true]
  refine ⟨.column ?_, .column ?_, .column ?_, .column ?_, .column ?_, .column ?_, .column ?_,
    .column ?_, .column ?_⟩
  all_goals intros; simp [latitudeCell, longitudeCell, geoPointCell]

theorem keyedByFacts_movementColumns : ∀ column ∈ movementColumns, KeyedByFacts column := by
  simp only [movementColumns, List.forall_mem_cons, List.not_mem_nil, false_imp_iff, implies_true,
    and_true]
  refine ⟨.column ?_, .column ?_, .column ?_, .column ?_, .column ?_, .column ?_,
    .deviceColumn ?_, .column ?_⟩
  all_goals intros; simp [headingCell, odometerCell, distanceCell]

theorem keyedByFacts_statusColumns : ∀ column ∈ statusColumns, KeyedByFacts column := by
  simp only [statusColumns, List.forall_mem_cons, List.not_mem_nil, false_imp_iff, implies_true,
    and_true]
  refine ⟨.column ?_, .column ?_⟩
  all_goals intros; simp

theorem keyedByFacts_fuelColumns : ∀ column ∈ fuelColumns, KeyedByFacts column := by
  simp only [fuelColumns, List.forall_mem_cons, List.not_mem_nil, false_imp_iff, implies_true,
    and_true]
  refine ⟨.column ?_, ?volume, .column ?_, .column ?_, .column ?_, .column ?_⟩
  case volume =>
    intro ctx ctx' h row argument argument' e _
    simp only [fuelLevelVolume, deviceOf_congr (h.sameAnswers e)]
    split
    · simp [map_map_except, volumeCell]
    · rfl
  all_goals intros; simp [volumeCell]

theorem keyedByFacts_engineColumns : ∀ column ∈ engineColumns, KeyedByFacts column := by
  simp only [engineColumns, List.forall_mem_cons, List.not_mem_nil, false_imp_iff, implies_true,
    and_true]
  refine ⟨.column ?_, .deviceColumn ?_, .column ?_, .column ?_, .column ?_, .column ?_,
    .column ?_, .column ?_, .column ?_, .column ?_⟩
  all_goals intros; simp [hoursCell]

theorem keyedByFacts_airColumns : ∀ column ∈ airColumns, KeyedByFacts column := by
  simp only [airColumns, List.forall_mem_append, List.forall_mem_cons, List.forall_mem_map,
    List.not_mem_nil, false_imp_iff, implies_true, and_true]
  refine ⟨⟨.column ?_, .column ?_, .column ?_⟩, fun sensor _ => .column ?_⟩
  all_goals intros; simp [barometerCell]

theorem keyedByFacts_attachmentColumns : ∀ column ∈ attachmentColumns, KeyedByFacts column := by
  simp only [attachmentColumns, List.forall_mem_cons, List.not_mem_nil, false_imp_iff,
    implies_true, and_true]
  refine ⟨.column ?_, .column_of_mem (by decide) ?_⟩
  · intros
    simp
  · exact fun _ ctx ctx' argument e => sortKey_attachPropCell_congr argument e ctx ctx'

theorem keyedByFacts_of_mem {column : Column Event} (h : column ∈ eventColumns) :
    KeyedByFacts column :=
  forall_mem_eventColumns keyedByFacts_vehicleColumns keyedByFacts_timeColumns
    keyedByFacts_placeColumns keyedByFacts_movementColumns keyedByFacts_statusColumns
    keyedByFacts_fuelColumns keyedByFacts_engineColumns keyedByFacts_airColumns
    keyedByFacts_attachmentColumns column h

/-! ## Tables for two readers -/

theorem sortKey_resolveCell_congr {ρ : Type} {catalog : Catalog ρ} {ctx ctx' : Context} {row : Nat}
    {record : ρ} {request : ColumnRequest}
    (h : ∀ column ∈ catalog.columns,
      (column.value row ctx request.argument record).map Cell.sortKey =
        (column.value row ctx' request.argument record).map Cell.sortKey) :
    (resolveCell catalog ctx row record request).sortKey =
      (resolveCell catalog ctx' row record request).sortKey := by
  rw [resolveCell, resolveCell]
  cases hl : catalog.lookup? request.key with
  | none => rfl
  | some column =>
    have hv := h column (List.mem_of_find?_eq_some hl)
    dsimp only
    cases hr : column.value row ctx request.argument record <;>
      cases hr' : column.value row ctx' request.argument record <;>
      simp only [hr, hr', Except.map, Except.ok.injEq, reduceCtorEq] at hv ⊢
    exact hv

/-- A place with a key is sorted alike for both readers. -/
theorem sortValueAt_assembleRow_congr {ρ : Type} {catalog : Catalog ρ} {ctx ctx' : Context}
    {requests : List ColumnRequest} {row : Nat} {record : ρ} {column : Nat}
    (hkeys : ∀ request ∈ requests, (resolveCell catalog ctx row record request).sortKey =
      (resolveCell catalog ctx' row record request).sortKey)
    (h : ∀ cell, (assembleRow catalog ctx requests row record)[column]? = some cell →
      ∃ key, cell.sortKey = some key ∧ key.isNaN = false) :
    sortValueAt column (assembleRow catalog ctx requests row record) =
      sortValueAt column (assembleRow catalog ctx' requests row record) := by
  rw [sortValueAt, sortValueAt]
  rw [getElem?_assembleRow] at h ⊢
  rw [getElem?_assembleRow]
  cases hq : requests[column]? with
  | none => rfl
  | some request =>
    obtain ⟨key, hk, hn⟩ := h _ (by rw [hq]; rfl)
    have hk' : ((resolveCell catalog ctx' row record request).withFiller
        (columnFiller ctx' request)).sortKey = some key :=
      (hkeys request (List.mem_of_getElem? hq)).symm.trans hk
    rw [Option.map_some, Option.map_some, SortValue.ofCell_of_sortKey hk hn,
      SortValue.ofCell_of_sortKey hk' hn]

/-- Two tables whose cells have the same keys list their records in the same order. -/
theorem exists_listing_sortAll {ρ : Type} {catalog : Catalog ρ} {ctx ctx' : Context}
    {requests : List ColumnRequest} {records : List ρ} {sorts : List (Nat × SortSpec)}
    (hkeys : ∀ row, ∀ record ∈ records, ∀ request ∈ requests,
      (resolveCell catalog ctx row record request).sortKey =
        (resolveCell catalog ctx' row record request).sortKey)
    (hkeyed : ∀ sort ∈ sorts, ∀ row ∈ (assemble catalog ctx requests records).rows, ∀ cell,
      row[sort.1]? = some cell → ∃ key, cell.sortKey = some key ∧ key.isNaN = false) :
    ∃ listing : List (ρ × Nat), listing.Perm records.zipIdx ∧
      ((assemble catalog ctx requests records).sortAll sorts).rows =
        listing.map (fun p => assembleRow catalog ctx requests p.2 p.1) ∧
      ((assemble catalog ctx' requests records).sortAll sorts).rows =
        listing.map fun p => assembleRow catalog ctx' requests p.2 p.1 := by
  have hrows : ∀ ctx : Context, (assemble catalog ctx requests records).rows =
      records.zipIdx.map fun p => assembleRow catalog ctx requests p.2 p.1 :=
    fun ctx => rows_assemble catalog ctx requests records
  have hlen : (assemble catalog ctx requests records).titles.length =
      (assemble catalog ctx' requests records).titles.length := by
    simp [assemble]
  have hvalues : ∀ sort ∈ sorts, sort.1 < (assemble catalog ctx requests records).titles.length →
      ∀ p ∈ records.zipIdx, sortValueAt sort.1 (assembleRow catalog ctx requests p.2 p.1) =
        sortValueAt sort.1 (assembleRow catalog ctx' requests p.2 p.1) := by
    intro sort hs _ p hp
    refine sortValueAt_assembleRow_congr (hkeys p.2 p.1 (List.fst_mem_of_mem_zipIdx hp))
      (hkeyed sort hs _ ?_)
    rw [hrows]
    exact List.mem_map_of_mem hp
  have h := Table.exists_parallel_sortAll hlen hvalues
  rw [← hrows, ← hrows] at h
  exact h

/-! ## Tables with overflow checks -/

section
variable {ctx ctx' : Context} {e : Event}

/-- Only the age of a time of storage is taken in one context and not in the other: where that
    time has a text. -/
theorem overflows_congr {key : String} (row : Nat) (hf : ctx.SameFacts ctx')
    (hage : key = "createDateTime" → e.AgeFits) :
    Overflows row ctx e key ↔ Overflows row ctx' e key := by
  rw [overflows_iff, overflows_iff, checkinTime_congr (hf.sameAnswers e), hf.now]
  refine or_congr_right (or_congr_left (iff_of_false ?_ ?_)) <;>
    exact fun ⟨hk, _, hn⟩ => hn (hage hk)

theorem sortKey_value_checked_congr {column : Column Event} (hm : column ∈ eventColumns)
    (hf : ctx.SameFacts ctx') (hage : column.key = "createDateTime" → e.AgeFits) (row : Nat)
    {argument argument' : String} (ha : argument = argument' ∨ column.key ∉ argumentKeyed) :
    ((checked column).value row ctx argument e).map Cell.sortKey =
      ((checked column).value row ctx' argument' e).map Cell.sortKey := by
  have hkeys := keyedByFacts_of_mem hm ctx ctx' hf row argument argument' e ha
  have hsame := overflows_congr row hf hage
  by_cases h : Overflows row ctx e column.key
  · rw [value_checked_of_overflows h, value_checked_of_overflows (hsame.1 h)]
  · rw [value_checked_of_not_overflows h, value_checked_of_not_overflows (mt hsame.2 h), hkeys]

theorem sortKey_resolveCell_eventCatalog (hf : ctx.SameFacts ctx') (row : Nat) (e : Event)
    (request : ColumnRequest) : (resolveCell eventCatalog ctx row e request).sortKey =
      (resolveCell eventCatalog ctx' row e request).sortKey :=
  sortKey_resolveCell_congr fun _ hm =>
    keyedByFacts_of_mem hm ctx ctx' hf row request.argument _ e (.inl rfl)

theorem sortKey_resolveCell_checkedCatalog (hf : ctx.SameFacts ctx') (row : Nat)
    {request : ColumnRequest} (hage : request.key = "createDateTime" → e.AgeFits) :
    (resolveCell checkedCatalog ctx row e request).sortKey =
      (resolveCell checkedCatalog ctx' row e request).sortKey := by
  have hsame := overflows_congr row hf hage
  rw [resolveCell_checkedCatalog, resolveCell_checkedCatalog]
  by_cases h : Overflows row ctx e request.key
  · rw [if_pos h, if_pos (hsame.1 h)]
  · rw [if_neg h, if_neg (mt hsame.2 h)]
    exact sortKey_resolveCell_eventCatalog hf row e request

end

/-- **Presentation never moves rows.**  In contexts with the same time and the
    same directory a column fails for both or has the same sort key, whatever
    its argument unless that chooses what is shown; so a table sorted by columns
    with keys lists the same events in the same places for both.  With overflow
    checks the same is true, but for times of storage whose age does not fit in
    64 bits: they have no cell where they have a text. -/
theorem presentation_never_moves_rows {ctx ctx' : Context} (hnow : ctx.now = ctx'.now)
    (hdirectory : ctx.directory = ctx'.directory) :
    (∀ column ∈ eventColumns, ∀ row argument argument' e,
      argument = argument' ∨ column.key ∉ ["createMillis", "attachProp"] →
      (column.value row ctx argument e).map Cell.sortKey =
        (column.value row ctx' argument' e).map Cell.sortKey) ∧
    (∀ requests events sorts,
      (∀ sort ∈ sorts, ∀ row ∈ (assembleEvents ctx requests events).rows, ∀ cell,
        row[sort.1]? = some cell → ∃ key, cell.sortKey = some key ∧ key.isNaN = false) →
      ∃ listing : List (Event × Nat), listing.Perm events.zipIdx ∧
        ((assembleEvents ctx requests events).sortAll sorts).rows =
          listing.map (fun p => assembleRow eventCatalog ctx requests p.2 p.1) ∧
        ((assembleEvents ctx' requests events).sortAll sorts).rows =
          listing.map fun p => assembleRow eventCatalog ctx' requests p.2 p.1) ∧
    (∀ column ∈ eventColumns, ∀ row argument argument' e,
      argument = argument' ∨ column.key ∉ ["createMillis", "attachProp"] →
      (column.key = "createDateTime" → e.AgeFits) →
      ((checked column).value row ctx argument e).map Cell.sortKey =
        ((checked column).value row ctx' argument' e).map Cell.sortKey) ∧
    ∀ requests events sorts,
      (∀ e ∈ events, ∀ request ∈ requests, request.key = "createDateTime" → e.AgeFits) →
      (∀ sort ∈ sorts, ∀ row ∈ (assemble checkedCatalog ctx requests events).rows, ∀ cell,
        row[sort.1]? = some cell → ∃ key, cell.sortKey = some key ∧ key.isNaN = false) →
      ∃ listing : List (Event × Nat), listing.Perm events.zipIdx ∧
        ((assemble checkedCatalog ctx requests events).sortAll sorts).rows =
          listing.map (fun p => assembleRow checkedCatalog ctx requests p.2 p.1) ∧
        ((assemble checkedCatalog ctx' requests events).sortAll sorts).rows =
          listing.map fun p => assembleRow checkedCatalog ctx' requests p.2 p.1 := by
  have hf : ctx.SameFacts ctx' := ⟨hnow, hdirectory⟩
  refine ⟨?keys, ?tables, ?checkedKeys, ?checkedTables⟩
  case keys =>
    intro column hm row argument argument' e ha
    exact keyedByFacts_of_mem hm ctx ctx' hf row argument argument' e ha
  case tables =>
    intro requests events sorts hkeyed
    refine exists_listing_sortAll (fun row e _ request _ => ?_) hkeyed
    exact sortKey_resolveCell_eventCatalog hf row e request
  case checkedKeys =>
    intro column hm row argument argument' e ha hage
    exact sortKey_value_checked_congr hm hf hage row ha
  case checkedTables =>
    intro requests events sorts hages hkeyed
    refine exists_listing_sortAll (fun row e he request hq => ?_) hkeyed
    exact sortKey_resolveCell_checkedCatalog hf row (hages e he request hq)

/-- Speeds in kilometres and in miles per hour, sorted twice, without overflow checks and with
    them. -/
theorem speeds_stand_alike_for_two_readers :
    let metric : Context := { now := 0 }
    let imperial : Context := { now := 0, units := { speed := .milesPerHour }, filler := "?" }
    let requests : List ColumnRequest :=
      [{ key := "speed" }, { key := "index" }, { key := "createDateTime" }]
    let events : List Event :=
      [{ speedKph := 80.0, creationMillis := 1000 }, { speedKph := 20.0 }, {}]
    let sorts : List (Nat × SortSpec) := [(1, { descending := true }), (0, {})]
    ∀ catalog ∈ [eventCatalog, checkedCatalog],
      ∃ listing : List (Event × Nat), listing.Perm events.zipIdx ∧
        ((assemble catalog metric requests events).sortAll sorts).rows =
          listing.map (fun p => assembleRow catalog metric requests p.2 p.1) ∧
        ((assemble catalog imperial requests events).sortAll sorts).rows =
          listing.map fun p => assembleRow catalog imperial requests p.2 p.1 := by
  intro metric imperial requests events sorts
  have hages : ∀ e ∈ events, ∀ request ∈ requests,
      request.key = "createDateTime" → e.AgeFits := by
    decide
  have hany : ∀ catalog ∈ [eventCatalog, checkedCatalog], ∀ sort ∈ sorts,
      ∀ row ∈ (assemble catalog metric requests events).rows,
      ∀ cell ∈ row[sort.1]?, cell.sortKey.any (!·.isNaN) := by
    decide +kernel
  have hkeyed : ∀ catalog ∈ [eventCatalog, checkedCatalog], ∀ sort ∈ sorts,
      ∀ row ∈ (assemble catalog metric requests events).rows, ∀ cell, row[sort.1]? = some cell →
      ∃ key, cell.sortKey = some key ∧ key.isNaN = false := by
    intro catalog hcatalog sort hs row hr cell hc
    obtain ⟨key, hk, hn⟩ := (Option.any_eq_true ..).1 (hany catalog hcatalog sort hs row hr cell hc)
    exact ⟨key, hk, by simpa using hn⟩
  obtain ⟨-, hlisted, -, hchecked⟩ := @presentation_never_moves_rows metric imperial rfl rfl
  intro catalog hcatalog
  have hcases : catalog = eventCatalog ∨ catalog = checkedCatalog := by simpa using hcatalog
  rcases hcases with rfl | rfl
  · exact hlisted requests events sorts (hkeyed _ hcatalog)
  · exact hchecked requests events sorts hages (hkeyed _ hcatalog)

end EventTable
