/-
  EventTable — what columns look up.

  * `LooksUp` says how a column is made with look-ups: with none at all, with
    the device of the event, with the tank of that device if there is a fuel
    level, or with the last check-in; beyond that no column reads the directory
    (`IgnoresDirectory`);
  * `looksUp_of_mem`: all columns over events are made so;
  * `LookUpFails` says which look-up fails a column, and with what;
  * `LooksUp.value_congr`: equal answers for the device of the event make equal
    cells, and `LooksUp.value_eq_error_iff`: a column fails with its look-ups,
    and with overflow checks (`LooksUp.checked_value_eq_error_iff`) with an
    overflow, too;
  * `cells_show_their_own_device_only` and `columns_fail_with_their_look_ups`
    say so of all columns.
-/
import EventTable.Proofs.Assembly
import EventTable.Proofs.OverflowChecks

namespace EventTable

open Number Columns

/-! ## Columns by what they look up -/

/-- The columns made with the device of the event. -/
def deviceKeys : List String :=
  ["deviceDesc", "deviceVehicleID", "groupId", "deviceBattery", "lastBatteryPercent",
    "customField", "odometer", "engineHours"]

/-- The column made with the tank of the device. -/
def tankKey : String := "fuelLevelVolume"

/-- The columns about the last check-in of the device. -/
def checkinKeys : List String := ["checkinDateTime", "checkinAge"]

/-- The columns that look something up. -/
def directoryKeys : List String := deviceKeys ++ tankKey :: checkinKeys

theorem mem_directoryKeys_iff {key : String} :
    key ∈ directoryKeys ↔ key ∈ deviceKeys ∨ key = tankKey ∨ key ∈ checkinKeys := by
  simp [directoryKeys]

/-- Holds of what does not read the directory of a context. -/
def IgnoresDirectory {α : Type} (f : Context → α) : Prop :=
  ∀ ctx directory, f { ctx with directory } = f ctx

/-- **How a column is made with look-ups.** -/
inductive LooksUp : Column Event → Prop
  | nothing {key title value} : key ∉ directoryKeys → (∀ row, IgnoresDirectory (value row)) →
      LooksUp (column key title value)
  | device {key title value} : key ∈ deviceKeys → IgnoresDirectory value →
      LooksUp (deviceColumn key title value)
  | tank {title} : LooksUp ⟨tankKey, title, fun _ => fuelLevelVolume⟩
  | checkin {key title value} : key ∈ checkinKeys → IgnoresDirectory value →
      LooksUp (checkinColumn key title value)

/-! ## All columns -/

theorem looksUp_vehicleColumns : ∀ column ∈ vehicleColumns, LooksUp column := by
  simp only [vehicleColumns, List.forall_mem_cons, List.not_mem_nil, false_imp_iff,
    implies_true, and_true]
  refine ⟨?_, ?_, ?device⟩
  case device =>
    and_intros
    all_goals exact .device (by decide) fun _ _ => rfl
  all_goals exact .nothing (by decide) fun _ _ _ => rfl

theorem looksUp_timeColumns : ∀ column ∈ timeColumns, LooksUp column := by
  simp only [timeColumns, List.forall_mem_cons, List.not_mem_nil, false_imp_iff, implies_true,
    and_true]
  refine ⟨?_, ?_, ?_, ?_, ?_, ?_, ?_, ?checkin⟩
  case checkin =>
    and_intros
    all_goals exact .checkin (by decide) fun _ _ => rfl
  all_goals exact .nothing (by decide) fun _ _ _ => rfl

theorem looksUp_placeColumns : ∀ column ∈ placeColumns, LooksUp column := by
  simp only [placeColumns, List.forall_mem_cons, List.not_mem_nil, false_imp_iff, implies_true,
    and_true]
  and_intros
  all_goals exact .nothing (by decide) fun _ _ _ => rfl

theorem looksUp_movementColumns : ∀ column ∈ movementColumns, LooksUp column := by
  simp only [movementColumns, List.forall_mem_cons, List.not_mem_nil, false_imp_iff, implies_true,
    and_true]
  refine ⟨?_, ?_, ?_, ?_, ?_, ?_, .device (by decide) fun _ _ => rfl, ?_⟩
  all_goals exact .nothing (by decide) fun _ _ _ => rfl

theorem looksUp_statusColumns : ∀ column ∈ statusColumns, LooksUp column := by
  simp only [statusColumns, List.forall_mem_cons, List.not_mem_nil, false_imp_iff, implies_true,
    and_true]
  and_intros
  all_goals exact .nothing (by decide) fun _ _ _ => rfl

theorem looksUp_fuelColumns : ∀ column ∈ fuelColumns, LooksUp column := by
  simp only [fuelColumns, List.forall_mem_cons, List.not_mem_nil, false_imp_iff, implies_true,
    and_true]
  refine ⟨?_, .tank, ?_, ?_, ?_, ?_⟩
  all_goals exact .nothing (by decide) fun _ _ _ => rfl

theorem looksUp_engineColumns : ∀ column ∈ engineColumns, LooksUp column := by
  simp only [engineColumns, List.forall_mem_cons, List.not_mem_nil, false_imp_iff, implies_true,
    and_true]
  refine ⟨?_, .device (by decide) fun _ _ => rfl, ?rest⟩
  case rest =>
    and_intros
    all_goals exact .nothing (by decide) fun _ _ _ => rfl
  exact .nothing (by decide) fun _ _ _ => rfl

theorem looksUp_airColumns : ∀ column ∈ airColumns, LooksUp column := by
  simp only [airColumns, List.forall_mem_append, List.forall_mem_cons, List.forall_mem_map,
    List.not_mem_nil, false_imp_iff, implies_true, and_true]
  refine ⟨?named, fun sensor hs => .nothing ?_ fun _ _ _ => rfl⟩
  case named =>
    and_intros
    all_goals exact .nothing (by decide) fun _ _ _ => rfl
  revert sensor
  decide +kernel

theorem looksUp_attachmentColumns : ∀ column ∈ attachmentColumns, LooksUp column := by
  simp only [attachmentColumns, List.forall_mem_cons, List.not_mem_nil, false_imp_iff,
    implies_true, and_true]
  and_intros
  all_goals exact .nothing (by decide) fun _ _ _ => rfl

theorem looksUp_of_mem {column : Column Event} (h : column ∈ eventColumns) : LooksUp column :=
  forall_mem_eventColumns looksUp_vehicleColumns looksUp_timeColumns looksUp_placeColumns
    looksUp_movementColumns looksUp_statusColumns looksUp_fuelColumns looksUp_engineColumns
    looksUp_airColumns looksUp_attachmentColumns column h

/-! ## Equal answers, equal cells -/

/-- For the device of an event the directories of both contexts answer alike. -/
structure Context.SameAnswers (ctx ctx' : Context) (e : Event) : Prop where
  device : ctx.device? e.accountId e.deviceId = ctx'.device? e.accountId e.deviceId
  lastEvent : ctx.lastEvent? e.accountId e.deviceId = ctx'.lastEvent? e.accountId e.deviceId

section
variable {ctx ctx' : Context} {e : Event}

theorem deviceOf_congr (h : ctx.SameAnswers ctx' e) : deviceOf ctx e = deviceOf ctx' e := by
  rw [deviceOf, deviceOf, h.device]

theorem checkinTime_congr (h : ctx.SameAnswers ctx' e) :
    checkinTime ctx e = checkinTime ctx' e := by
  rw [checkinTime, checkinTime, deviceOf_congr h, h.lastEvent]

/-- The contexts are equal but for their directories. -/
def Context.EqualButDirectory (ctx ctx' : Context) : Prop :=
  ctx' = { ctx with directory := ctx'.directory }

theorem IgnoresDirectory.congr {α : Type} {f : Context → α} (hf : IgnoresDirectory f)
    (h : ctx.EqualButDirectory ctx') : f ctx = f ctx' :=
  calc f ctx = f { ctx with directory := ctx'.directory } := (hf ctx ctx'.directory).symm
    _ = f ctx' := congrArg f h.symm

theorem LooksUp.value_congr {column : Column Event} (hl : LooksUp column)
    (hctx : ctx.EqualButDirectory ctx') (h : ctx.SameAnswers ctx' e) (row : Nat)
    (argument : String) : column.value row ctx argument e = column.value row ctx' argument e := by
  cases hl with
  | nothing _ hv => simp only [Columns.column, (hv row).congr hctx]
  | device _ hv => simp only [deviceColumn, deviceOf_congr h, hv.congr hctx]
  | tank =>
    have hv : IgnoresDirectory volumeCell := fun _ _ => rfl
    simp only [fuelLevelVolume, deviceOf_congr h, hv.congr hctx]
  | checkin _ hv => simp only [checkinColumn, checkinTime_congr h, hv.congr hctx]

/-- Every other column has nothing to ask. -/
theorem LooksUp.value_congr_of_notMem {column : Column Event} (hl : LooksUp column)
    (hctx : ctx.EqualButDirectory ctx') (hk : column.key ∉ directoryKeys) (row : Nat)
    (argument : String) : column.value row ctx argument e = column.value row ctx' argument e := by
  cases hl with
  | nothing _ hv => simp only [Columns.column, (hv row).congr hctx]
  | device hk' _ => exact absurd (mem_directoryKeys_iff.2 (.inl hk')) hk
  | tank => exact absurd (mem_directoryKeys_iff.2 (.inr (.inl rfl))) hk
  | checkin hk' _ => exact absurd (mem_directoryKeys_iff.2 (.inr (.inr hk'))) hk

/-- A row is made of the answers for its own device. -/
theorem cell?_assembleEvents_congr (hctx : ctx.EqualButDirectory ctx') {events : List Event}
    {row : Nat} (hr : events[row]? = some e) (h : ctx.SameAnswers ctx' e)
    (requests : List ColumnRequest) (column : Nat) :
    (assembleEvents ctx requests events).cell? row column =
      (assembleEvents ctx' requests events).cell? row column := by
  rw [assembleEvents, assembleEvents, cell?_assemble, cell?_assemble, hr, Option.bind_some,
    Option.bind_some]
  cases requests[column]? with
  | none => rfl
  | some request =>
    have hf : columnFiller ctx request = columnFiller ctx' request :=
      IgnoresDirectory.congr (f := (columnFiller · request)) (fun _ _ => rfl) hctx
    have hc : resolveCell eventCatalog ctx row e request =
        resolveCell eventCatalog ctx' row e request :=
      resolveCell_congr rfl fun c hm =>
        (looksUp_of_mem hm).value_congr hctx h row request.argument
    rw [Option.map_some, Option.map_some, hf, hc]

/-- A store that gains a device answers for all others as before. -/
theorem sameAnswers_withDevice (ctx : Context) (s : DeviceStore) {d : Device}
    (h : (e.accountId, e.deviceId) ≠ (d.accountId, d.deviceId)) :
    Context.SameAnswers { ctx with directory := some (s.withDevice d).directory }
      { ctx with directory := some s.directory } e where
  device := by
    show Except.ok ((Dictionary.put (d.accountId, d.deviceId) d s.devices).lookup
        (e.accountId, e.deviceId)) =
      Except.ok (s.devices.lookup (e.accountId, e.deviceId))
    rw [Dictionary.lookup_put, if_neg h]
  lastEvent := rfl

/-- **Cells show their own device only.**  Where two directories answer alike for
    the device of an event, all columns are resolved alike, and so are the cells
    of its row in any table; columns that look nothing up are so for any two
    directories.  What a store gains of another device changes nothing. -/
theorem cells_show_their_own_device_only {ctx ctx' : Context}
    (hctx : ctx' = { ctx with directory := ctx'.directory }) :
    (∀ column ∈ eventColumns, ∀ row argument e, ctx.SameAnswers ctx' e →
      column.value row ctx argument e = column.value row ctx' argument e) ∧
    (∀ column ∈ eventColumns, column.key ∉ directoryKeys → ∀ row argument e,
      column.value row ctx argument e = column.value row ctx' argument e) ∧
    (∀ requests events row column e, events[row]? = some e → ctx.SameAnswers ctx' e →
      (assembleEvents ctx requests events).cell? row column =
        (assembleEvents ctx' requests events).cell? row column) ∧
    ∀ (s : DeviceStore) (d : Device), ∀ column ∈ eventColumns, ∀ row argument e,
      (e.accountId, e.deviceId) ≠ (d.accountId, d.deviceId) →
      column.value row { ctx with directory := some (s.withDevice d).directory } argument e =
        column.value row { ctx with directory := some s.directory } argument e := by
  refine ⟨?alike, ?without, ?cells, ?store⟩
  case alike =>
    exact fun _ hm row argument _ h => (looksUp_of_mem hm).value_congr hctx h row argument
  case without =>
    exact fun _ hm hk row argument _ =>
      (looksUp_of_mem hm).value_congr_of_notMem hctx hk row argument
  case cells =>
    exact fun requests _ _ column _ hr h => cell?_assembleEvents_congr hctx hr h requests column
  case store =>
    intro s d column hm row argument e hne
    have hstore : Context.EqualButDirectory
        { ctx with directory := some (s.withDevice d).directory }
        { ctx with directory := some s.directory } := rfl
    exact (looksUp_of_mem hm).value_congr hstore (sameAnswers_withDevice ctx s hne) row argument

/-- A device of another account is not seen. -/
theorem other_accounts_are_not_seen :
    let own : Device := { accountId := "acme", deviceId := "truck", description := "Lorry" }
    let other : Device := { accountId := "zeta", deviceId := "truck", description := "Van" }
    let ctx := fun devices : List Device =>
      ({ now := 0, directory := some (DeviceStore.ofDevices devices).directory } : Context)
    let requests : List ColumnRequest := [{ key := "deviceDesc" }, { key := "checkinAge" }]
    let event : Event := { accountId := "acme", deviceId := "truck" }
    ((assembleEvents (ctx [own]) requests [event]).cell? 0 0).map Cell.value = some "Lorry" ∧
      (∀ column, (assembleEvents (ctx [own]) requests [event]).cell? 0 column =
        (assembleEvents (ctx [other, own]) requests [event]).cell? 0 column) ∧
      ∀ column ∈ eventColumns,
        column.value 0 (ctx [own, other]) "" event = column.value 0 (ctx [own]) "" event := by
  intro own other ctx requests event
  obtain ⟨-, -, hcells, hstore⟩ :=
    @cells_show_their_own_device_only (ctx [own]) (ctx [other, own]) rfl
  have hne : (event.accountId, event.deviceId) ≠ (other.accountId, other.deviceId) := by decide
  refine ⟨by decide +kernel, fun column => ?_, fun column hm => ?_⟩
  · exact hcells requests [event] 0 column event rfl ⟨rfl, rfl⟩
  · exact hstore (.ofDevices [own]) other column hm 0 "" event hne

end

/-! ## Failing look-ups -/

/-- **A look-up of a column fails** for an event, with a cause. -/
inductive LookUpFails (ctx : Context) (e : Event) : (key : String) → DirectoryError → Prop
  | device {key cause} : key ∈ deviceKeys →
      ctx.device? e.accountId e.deviceId = .error cause → LookUpFails ctx e key cause
  | tank {cause} : 0.0 < e.fuelLevel →
      ctx.device? e.accountId e.deviceId = .error cause → LookUpFails ctx e tankKey cause
  | connection {key cause} : key ∈ checkinKeys →
      ctx.device? e.accountId e.deviceId = .error cause → LookUpFails ctx e key cause
  | lastEvent {key cause known} : key ∈ checkinKeys →
      ctx.device? e.accountId e.deviceId = .ok known →
      (∀ d, known = some d → d.hasConnectTime = false) →
      ctx.lastEvent? e.accountId e.deviceId = .error cause → LookUpFails ctx e key cause

section
variable {ctx : Context} {e : Event} {key : String} {cause : DirectoryError}

theorem LookUpFails.mem (h : LookUpFails ctx e key cause) : key ∈ directoryKeys := by
  rw [mem_directoryKeys_iff]
  cases h with
  | device hk _ => exact .inl hk
  | tank _ _ => exact .inr (.inl rfl)
  | connection hk _ | lastEvent hk _ _ _ => exact .inr (.inr hk)

theorem lookUpFails_iff_of_mem_deviceKeys (hk : key ∈ deviceKeys) :
    LookUpFails ctx e key cause ↔ ctx.device? e.accountId e.deviceId = .error cause := by
  constructor
  · intro h
    cases h with
    | device _ h | tank _ h | connection _ h => exact h
    | lastEvent hk' _ _ _ => exact absurd hk' (by revert key; decide)
  · exact .device hk

theorem lookUpFails_tankKey_iff : LookUpFails ctx e tankKey cause ↔
    0.0 < e.fuelLevel ∧ ctx.device? e.accountId e.deviceId = .error cause := by
  constructor
  · intro h
    cases h with
    | tank hl h => exact ⟨hl, h⟩
    | device hk _ | connection hk _ | lastEvent hk _ _ _ => exact absurd hk (by decide)
  · exact fun ⟨hl, h⟩ => .tank hl h

theorem lookUpFails_iff_of_mem_checkinKeys (hk : key ∈ checkinKeys) :
    LookUpFails ctx e key cause ↔ ctx.device? e.accountId e.deviceId = .error cause ∨
      ∃ known, ctx.device? e.accountId e.deviceId = .ok known ∧
        (∀ d, known = some d → d.hasConnectTime = false) ∧
        ctx.lastEvent? e.accountId e.deviceId = .error cause := by
  constructor
  · intro h
    cases h with
    | device _ h | tank _ h | connection _ h => exact .inl h
    | lastEvent _ hd hn h => exact .inr ⟨_, hd, hn, h⟩
  · rintro (h | ⟨known, hd, hn, h⟩)
    · exact .connection hk h
    · exact .lastEvent hk hd hn h

/-! ### What fails with them -/

variable {error : ResolveError}

theorem mapError_directory_eq_error_iff {α : Type} {r : Except DirectoryError α} :
    r.mapError ResolveError.directory = .error error ↔
      ∃ cause, error = .directory cause ∧ r = .error cause := by
  cases r with
  | error cause =>
    show Except.error (ResolveError.directory cause) = Except.error error ↔ _
    simp [eq_comm]
  | ok a =>
    show Except.ok a = Except.error error ↔ _
    simp

theorem map_eq_error_iff {ε α β : Type} {r : Except ε α} {f : α → β} {error : ε} :
    r.map f = .error error ↔ r = .error error := by
  cases r <;> simp [Except.map]

theorem deviceOf_eq_error_iff : deviceOf ctx e = .error error ↔
    ∃ cause, error = .directory cause ∧ ctx.device? e.accountId e.deviceId = .error cause :=
  mapError_directory_eq_error_iff

theorem deviceOf_eq_ok_iff {known : Option Device} :
    deviceOf ctx e = .ok known ↔ ctx.device? e.accountId e.deviceId = .ok known := by
  rw [deviceOf]
  cases ctx.device? e.accountId e.deviceId with
  | error cause => exact iff_of_false nofun nofun
  | ok found =>
    show Except.ok found = Except.ok known ↔ _
    simp

/-- A check-in that counts. -/
def plausibleTime? (time : Int) : Option Int :=
  if Device.earliestConnectTime < time then some time else none

theorem checkinTime_of_connected {d : Device} (hd : deviceOf ctx e = .ok (some d))
    (hc : d.hasConnectTime = true) :
    checkinTime ctx e = .ok (plausibleTime? d.lastConnectTime) := by
  rw [checkinTime, hd]
  simp [bind, Except.bind, pure, Except.pure, Option.filter_some, hc, plausibleTime?]

/-- The newest event is asked for only without a plausible connection. -/
theorem checkinTime_of_not_connected {known : Option Device} (hd : deviceOf ctx e = .ok known)
    (hn : ∀ d, known = some d → d.hasConnectTime = false) :
    checkinTime ctx e = ((ctx.lastEvent? e.accountId e.deviceId).mapError .directory).map
      fun last => plausibleTime? (last.getD 0) := by
  have hf : known.filter (·.hasConnectTime) = none :=
    Option.filter_eq_none_iff.2 fun d hd => by simp [hn d hd]
  rw [checkinTime, hd]
  simp only [bind, Except.bind, pure, Except.pure, hf]
  cases ctx.lastEvent? e.accountId e.deviceId <;> rfl

theorem checkinTime_eq_error_iff : checkinTime ctx e = .error error ↔
    deviceOf ctx e = .error error ∨ ∃ known, deviceOf ctx e = .ok known ∧
      (∀ d, known = some d → d.hasConnectTime = false) ∧
      (ctx.lastEvent? e.accountId e.deviceId).mapError .directory = .error error := by
  cases hd : deviceOf ctx e with
  | error error' =>
    rw [checkinTime, hd]
    simp [bind, Except.bind]
  | ok known =>
    by_cases hn : ∀ d, known = some d → d.hasConnectTime = false
    · rw [checkinTime_of_not_connected hd hn, map_eq_error_iff]
      constructor
      · exact fun h => .inr ⟨known, rfl, hn, h⟩
      · rintro (h | ⟨_, -, -, h⟩)
        · cases h
        · exact h
    · obtain ⟨d, rfl, hc⟩ : ∃ d, known = some d ∧ d.hasConnectTime = true := by simpa using hn
      rw [checkinTime_of_connected hd hc]
      simp [hc]

theorem checkinTime_eq_error_iff_lookUpFails (hk : key ∈ checkinKeys) :
    checkinTime ctx e = .error error ↔
      ∃ cause, error = .directory cause ∧ LookUpFails ctx e key cause := by
  simp only [checkinTime_eq_error_iff, deviceOf_eq_error_iff, deviceOf_eq_ok_iff,
    mapError_directory_eq_error_iff, lookUpFails_iff_of_mem_checkinKeys hk]
  constructor
  · rintro (⟨cause, rfl, h⟩ | ⟨known, hd, hn, cause, rfl, h⟩)
    · exact ⟨cause, rfl, .inl h⟩
    · exact ⟨cause, rfl, .inr ⟨known, hd, hn, h⟩⟩
  · rintro ⟨cause, rfl, h | ⟨known, hd, hn, h⟩⟩
    · exact .inl ⟨cause, rfl, h⟩
    · exact .inr ⟨known, hd, hn, cause, rfl, h⟩

theorem LooksUp.value_eq_error_iff {column : Column Event} (hl : LooksUp column) (row : Nat)
    (argument : String) : column.value row ctx argument e = .error error ↔
      ∃ cause, error = .directory cause ∧ LookUpFails ctx e column.key cause := by
  cases hl with
  | nothing hk _ =>
    constructor
    · nofun
    · rintro ⟨cause, -, h⟩
      exact absurd h.mem hk
  | device hk _ =>
    simp only [deviceColumn, map_eq_error_iff, deviceOf_eq_error_iff,
      lookUpFails_iff_of_mem_deviceKeys hk]
  | tank =>
    simp only [lookUpFails_tankKey_iff, fuelLevelVolume]
    split
    · simp [map_eq_error_iff, deviceOf_eq_error_iff, *]
    · simp [*]
  | checkin hk _ =>
    simp only [checkinColumn, map_eq_error_iff, checkinTime_eq_error_iff_lookUpFails hk]

/-- Without a directory there is nothing to fail. -/
theorem not_lookUpFails_of_directory_eq_none (hn : ctx.directory = none) :
    ¬ LookUpFails ctx e key cause := by
  have hd : ctx.device? e.accountId e.deviceId = .ok none := by rw [Context.device?, hn]
  have hl : ctx.lastEvent? e.accountId e.deviceId = .ok none := by rw [Context.lastEvent?, hn]
  intro h
  cases h with
  | device _ h | tank _ h | connection _ h => simp [hd] at h
  | lastEvent _ _ _ h => simp [hl] at h

theorem LooksUp.exists_value_eq_ok {column : Column Event} (hl : LooksUp column) {row : Nat}
    {argument : String} (h : ∀ cause, ¬ LookUpFails ctx e column.key cause) :
    ∃ cell, column.value row ctx argument e = .ok cell := by
  cases hv : column.value row ctx argument e with
  | ok cell => exact ⟨cell, rfl⟩
  | error error =>
    obtain ⟨cause, -, hf⟩ := (hl.value_eq_error_iff row argument).1 hv
    exact absurd hf (h cause)

/-! ### What fails with overflow checks -/

/-- An age is taken only when all look-ups have answered. -/
theorem Overflows.not_lookUpFails {row : Nat} (h : Overflows row ctx e key) :
    ¬ LookUpFails ctx e key cause := by
  intro hf
  rcases overflows_iff.1 h with ⟨rfl, -⟩ | ⟨rfl, -⟩ | ⟨rfl, -⟩ | ⟨hk, time, htime, -⟩
  · exact absurd hf.mem (by decide)
  · exact absurd hf.mem (by decide)
  · exact absurd hf.mem (by decide)
  · have hmem : key ∈ checkinKeys := by simpa [checkinKeys] using hk
    have herror := (checkinTime_eq_error_iff_lookUpFails hmem).2 ⟨cause, rfl, hf⟩
    cases htime.symm.trans herror

theorem LooksUp.checked_value_eq_error_iff {column : Column Event} (hl : LooksUp column)
    (row : Nat) (argument : String) : (checked column).value row ctx argument e = .error error ↔
      (∃ cause, error = .directory cause ∧ LookUpFails ctx e column.key cause) ∨
        error = .aborted ∧ Overflows row ctx e column.key := by
  by_cases h : Overflows row ctx e column.key
  · have hn : ¬ ∃ cause, error = .directory cause ∧ LookUpFails ctx e column.key cause :=
      fun ⟨_, _, hf⟩ => h.not_lookUpFails hf
    rw [value_checked_of_overflows h, or_iff_right hn, and_iff_left h, Except.error.injEq, eq_comm]
  · rw [value_checked_of_not_overflows h, hl.value_eq_error_iff, or_iff_left fun h' => h h'.2]

end

/-- **Columns fail with their look-ups**, with the cause unchanged, and for no
    other reason: a column without look-ups always has a cell, and so does every
    column without a directory.  With overflow checks there is one more reason, an
    age or the number of a row that does not fit in 64 bits. -/
theorem columns_fail_with_their_look_ups {column : Column Event} (hm : column ∈ eventColumns)
    (row : Nat) (ctx : Context) (argument : String) (e : Event) :
    (∀ error, column.value row ctx argument e = .error error ↔
      ∃ cause, error = .directory cause ∧ LookUpFails ctx e column.key cause) ∧
    (column.key ∉ directoryKeys → ∃ cell, column.value row ctx argument e = .ok cell) ∧
    (ctx.directory = none → ∃ cell, column.value row ctx argument e = .ok cell) ∧
    ∀ error, (checked column).value row ctx argument e = .error error ↔
      (∃ cause, error = .directory cause ∧ LookUpFails ctx e column.key cause) ∨
        error = .aborted ∧ Overflows row ctx e column.key := by
  have hl := looksUp_of_mem hm
  refine ⟨fun error => hl.value_eq_error_iff row argument, fun hk => ?_, fun hn => ?_,
    fun error => hl.checked_value_eq_error_iff row argument⟩
  · exact hl.exists_value_eq_ok fun cause hf => hk hf.mem
  · exact hl.exists_value_eq_ok fun cause => not_lookUpFails_of_directory_eq_none hn

/-- A directory that knows no times: a check-in fails, a speed does not.  An age of more than
    2⁶³ seconds wraps around, or aborts its column. -/
theorem unknown_times_fail_the_checkin :
    let error : DirectoryError := .unavailable "offline"
    let ctx : Context :=
      { now := 0, directory := some ⟨fun _ _ => .ok none, fun _ _ => .error error⟩ }
    let ancient : Event := { timestamp := minInt64, creationMillis := 1000 }
    (∃ column ∈ eventColumns, column.key = "checkinAge" ∧
      column.value 0 ctx "" {} = .error (.directory error) ∧
      ∃ cell, column.value 0 { ctx with directory := none } "" {} = .ok cell) ∧
    (∃ column ∈ eventColumns, column.key = "speed" ∧ column.key ∉ directoryKeys ∧
      ∃ cell, column.value 0 ctx "" {} = .ok cell) ∧
    ∃ column ∈ eventColumns, column.key = "createAge" ∧
      (checked column).value 0 ctx "" ancient = .error .aborted ∧
      ∃ cell, column.value 0 ctx "" ancient = .ok cell := by
  intro error ctx ancient
  have hkeys : ∀ key ∈ ["checkinAge", "speed", "createAge"],
      ∃ column ∈ eventColumns, column.key = key := by
    decide +kernel
  obtain ⟨age, ha, hka⟩ := hkeys "checkinAge" (by decide)
  obtain ⟨speed, hs, hks⟩ := hkeys "speed" (by decide)
  obtain ⟨created, hc, hkc⟩ := hkeys "createAge" (by decide)
  have hks' : speed.key ∉ directoryKeys := by rw [hks]; decide
  have hkc' : created.key ∉ directoryKeys := by rw [hkc]; decide
  obtain ⟨hfails, -, -, -⟩ := columns_fail_with_their_look_ups ha 0 ctx "" {}
  obtain ⟨-, -, hnone, -⟩ :=
    columns_fail_with_their_look_ups ha 0 { ctx with directory := none } "" {}
  obtain ⟨-, hother, -, -⟩ := columns_fail_with_their_look_ups hs 0 ctx "" {}
  obtain ⟨-, hwrapped, -, habort⟩ := columns_fail_with_their_look_ups hc 0 ctx "" ancient
  have hoverflow : Overflows 0 ctx ancient created.key := by rw [hkc]; decide
  refine ⟨⟨age, ha, hka, (hfails _).2 ⟨error, rfl, ?_⟩, hnone rfl⟩,
    ⟨speed, hs, hks, hks', hother hks'⟩,
    ⟨created, hc, hkc, (habort _).2 (.inr ⟨rfl, hoverflow⟩), hwrapped hkc'⟩⟩
  rw [hka]
  exact .lastEvent (by decide) rfl nofun rfl

end EventTable
