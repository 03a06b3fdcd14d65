/-
  EventTable — what a store of devices answers after a history.

  * `Step` is a step in the history of a store, `after` the store after some steps;
  * `devices_after` and `lastEvents_after`: what is stored are the devices and the times
    of the history, the last one of each pair of account and device;
  * `device_after` and `lastEvent_after` say so of the look-ups, and `size_after` of the
    number of devices;
  * `alike_of_swap`: steps for different pairs may change places;
  * `ofJson?_eq`: a store read from a text is one of such a history;
  * `stores_answer_with_what_came_last` puts these together.
-/
import EventTable.Directory
import EventTable.Proofs.Dictionaries

namespace EventTable.DeviceStore

/-! ## Histories -/

/-- A step in the history of a store. -/
inductive Step where
  | device (d : Device)
  | lastEvent (accountId deviceId : String) (time : Int)
  deriving Repr

namespace Step

/-- The store after a step. -/
def apply (s : DeviceStore) : Step → DeviceStore
  | device d => s.withDevice d
  | lastEvent accountId deviceId time => s.withLastEvent accountId deviceId time

/-- The account and the device that a step is about. -/
def key : Step → DeviceKey
  | device d => (d.accountId, d.deviceId)
  | lastEvent accountId deviceId _ => (accountId, deviceId)

/-- The device that a step adds, and for which pair. -/
def device? : Step → Option (DeviceKey × Device)
  | device d => some ((d.accountId, d.deviceId), d)
  | lastEvent .. => none

/-- The time that a step sets, and for which pair. -/
def time? : Step → Option (DeviceKey × Int)
  | device _ => none
  | lastEvent accountId deviceId time => some ((accountId, deviceId), time)

theorem key_of_device? {s : Step} {p : DeviceKey × Device} (h : s.device? = some p) :
    s.key = p.1 := by
  cases s with
  | device d => cases h; rfl
  | lastEvent => cases h

theorem key_of_time? {s : Step} {p : DeviceKey × Int} (h : s.time? = some p) : s.key = p.1 := by
  cases s with
  | device => cases h
  | lastEvent => cases h; rfl

end Step

/-- The store after some steps. -/
def after (steps : List Step) : DeviceStore := steps.foldl Step.apply {}

/-- The devices that the steps add for exactly this pair. -/
def devicesOf (accountId deviceId : String) (steps : List Step) : List Device :=
  ((steps.filterMap Step.device?).filter (·.1 = (accountId, deviceId))).map Prod.snd

/-- The times that the steps set for exactly this pair. -/
def timesOf (accountId deviceId : String) (steps : List Step) : List Int :=
  ((steps.filterMap Step.time?).filter (·.1 = (accountId, deviceId))).map Prod.snd

/-- The pairs that the steps add devices for. -/
def devicePairs (steps : List Step) : Finset DeviceKey :=
  ((steps.filterMap Step.device?).map Prod.fst).toFinset

/-! ## What is stored -/

theorem after_concat (steps : List Step) (s : Step) :
    after (steps ++ [s]) = s.apply (after steps) := by
  rw [after, List.foldl_append]
  rfl

/-- What a store keeps of its history, if each step puts one pair or none. -/
theorem ofPairs_after {α : Type} {kept : DeviceStore → List (DeviceKey × α)}
    {put? : Step → Option (DeviceKey × α)} (hempty : kept {} = [])
    (hstep : ∀ s t, kept (Step.apply s t) =
      (put? t).elim (kept s) fun p => Dictionary.put p.1 p.2 (kept s)) (steps : List Step) :
    kept (after steps) = Dictionary.ofPairs (steps.filterMap put?) := by
  induction steps using List.reverseRecOn with
  | nil => exact hempty
  | append_singleton steps t ih =>
    rw [after_concat, hstep, ih, List.filterMap_append]
    cases ht : put? t with
    | none =>
      rw [List.filterMap_cons_none ht, List.filterMap_nil, List.append_nil]
      rfl
    | some p =>
      rw [List.filterMap_cons_some ht, List.filterMap_nil, Dictionary.ofPairs_concat]
      rfl

theorem devices_after (steps : List Step) :
    (after steps).devices = Dictionary.ofPairs (steps.filterMap Step.device?) :=
  ofPairs_after rfl (fun s t => by cases t <;> rfl) steps

theorem lastEvents_after (steps : List Step) :
    (after steps).lastEvents = Dictionary.ofPairs (steps.filterMap Step.time?) :=
  ofPairs_after rfl (fun s t => by cases t <;> rfl) steps

/-! ## What is answered -/

section
variable (steps : List Step) (accountId deviceId : String)

/-- The last device of a pair counts. -/
theorem device_after : (after steps).directory.device accountId deviceId =
    .ok (devicesOf accountId deviceId steps).getLast? := by
  show Except.ok ((after steps).devices.lookup (accountId, deviceId)) = _
  rw [devices_after, Dictionary.lookup_ofPairs, devicesOf, List.getLast?_map]

/-- The last time of a pair counts. -/
theorem lastEvent_after : (after steps).directory.lastEvent accountId deviceId =
    .ok (timesOf accountId deviceId steps).getLast? := by
  show Except.ok ((after steps).lastEvents.lookup (accountId, deviceId)) = _
  rw [lastEvents_after, Dictionary.lookup_ofPairs, timesOf, List.getLast?_map]

theorem size_after : (after steps).size = (devicePairs steps).card := by
  rw [size, devices_after, Dictionary.length_ofPairs, devicePairs]

end

/-- **Two stores answer alike.** -/
structure Alike (s s' : DeviceStore) : Prop where
  device : ∀ accountId deviceId,
    s.directory.device accountId deviceId = s'.directory.device accountId deviceId
  lastEvent : ∀ accountId deviceId,
    s.directory.lastEvent accountId deviceId = s'.directory.lastEvent accountId deviceId
  size : s.size = s'.size

section
variable {s t : Step}

/-- What two steps for different pairs give one pair does not depend on their order. -/
theorem filter_swap {α : Type} {f : Step → Option (DeviceKey × α)}
    (hf : ∀ {s p}, f s = some p → s.key = p.1) (h : s.key ≠ t.key) (before rest : List Step)
    (k : DeviceKey) : ((before ++ s :: t :: rest).filterMap f).filter (·.1 = k) =
      ((before ++ t :: s :: rest).filterMap f).filter (·.1 = k) := by
  rw [List.filterMap_append, List.filterMap_append, List.filter_append, List.filter_append]
  congr 1
  cases hs : f s with
  | none => simp [List.filterMap_cons, hs]
  | some p =>
    cases ht : f t with
    | none => simp [List.filterMap_cons, ht]
    | some q =>
      rw [hf hs, hf ht] at h
      by_cases hp : p.1 = k
      · have hq : q.1 ≠ k := fun hq => h (hp.trans hq.symm)
        simp [hs, ht, hp, hq]
      · simp [List.filter_cons, hs, ht, hp]

/-- **Steps for different pairs may change places.** -/
theorem alike_of_swap (h : s.key ≠ t.key) (before rest : List Step) :
    (after (before ++ s :: t :: rest)).Alike (after (before ++ t :: s :: rest)) where
  device accountId deviceId := by
    rw [device_after, device_after, devicesOf, devicesOf, filter_swap Step.key_of_device? h]
  lastEvent accountId deviceId := by
    rw [lastEvent_after, lastEvent_after, timesOf, timesOf, filter_swap Step.key_of_time? h]
  size := by
    have hperm : (before ++ s :: t :: rest).Perm (before ++ t :: s :: rest) :=
      (List.Perm.swap ..).append_left before
    rw [size_after, size_after, devicePairs, devicePairs,
      List.toFinset_eq_of_perm _ _ ((hperm.filterMap Step.device?).map Prod.fst)]

end

/-! ## Lists of devices -/

/-- The devices of a JSON list. -/
def devicesOfJson? (text : String) : Option (List Device) :=
  (Datum.readJson? text).bind (Datum.list? Device.ofDatum?)

/-- A list of devices is a history without times. -/
theorem ofDevices_eq (ds : List Device) : ofDevices ds = after (ds.map .device) := by
  rw [ofDevices, after, List.foldl_map]
  rfl

theorem ofJson?_eq (text : String) :
    ofJson? text = (devicesOfJson? text).map fun ds => after (ds.map .device) := by
  simp only [ofJson?, devicesOfJson?, ← ofDevices_eq]
  cases Datum.readJson? text with
  | none => rfl
  | some d => cases hd : d.list? Device.ofDatum? <;> simp [hd]

/-- **Stores answer with what came last.**  After any history a look-up is answered with the
    last device, or time, of exactly that account and device, if there is one, and there
    are as many devices as pairs they were added for.  Devices and times do not touch each
    other, and steps for different pairs may change places.  A store read from a JSON list
    has the history of its devices, one after the other. -/
theorem stores_answer_with_what_came_last :
    (∀ steps, (after steps).size = (devicePairs steps).card ∧ ∀ accountId deviceId,
      (after steps).directory.device accountId deviceId =
        .ok (devicesOf accountId deviceId steps).getLast? ∧
      (after steps).directory.lastEvent accountId deviceId =
        .ok (timesOf accountId deviceId steps).getLast?) ∧
    (∀ (s : DeviceStore) d,
      (s.withDevice d).directory.lastEvent = s.directory.lastEvent) ∧
    (∀ (s : DeviceStore) accountId deviceId time,
      (s.withLastEvent accountId deviceId time).directory.device = s.directory.device ∧
      (s.withLastEvent accountId deviceId time).size = s.size) ∧
    (∀ s t : Step, s.key ≠ t.key → ∀ before rest,
      (after (before ++ s :: t :: rest)).Alike (after (before ++ t :: s :: rest))) ∧
    ∀ text steps, (ofJson? text).map (fun s => steps.foldl Step.apply s) =
      (devicesOfJson? text).map fun ds => after (ds.map .device ++ steps) := by
  refine ⟨fun steps => ⟨size_after steps, fun accountId deviceId => ⟨device_after .., ?_⟩⟩,
    fun _ _ => rfl, fun _ _ _ _ => ⟨rfl, rfl⟩, fun s t => alike_of_swap, fun text steps => ?_⟩
  · exact lastEvent_after ..
  · rw [ofJson?_eq, Option.map_map]
    congr 1
    funext ds
    exact (List.foldl_append ..).symm

/-- Pairs whose texts are the same when written one behind the other. -/
theorem pairs_are_not_confused_when_joined :
    let truck : Device := { accountId := "acme", deviceId := "1truck", description := "old" }
    let van : Device := { accountId := "acme1", deviceId := "truck" }
    let newer : Device := { truck with description := "new" }
    let steps : List Step :=
      [.device truck, .lastEvent "acme" "1truck" 5, .device van, .device newer]
    Step.key (.device truck) ≠ Step.key (.device van) ∧
      (after steps).size = 2 ∧
      (after steps).directory.device "acme" "1truck" = .ok (some newer) ∧
      (after steps).directory.lastEvent "acme1" "truck" = .ok none ∧
      (after [.device truck, .device van]).Alike (after [.device van, .device truck]) := by
  intro truck van newer steps
  obtain ⟨hanswers, -, -, hswap, -⟩ := stores_answer_with_what_came_last
  have hne : Step.key (.device truck) ≠ Step.key (.device van) := by decide
  obtain ⟨hsize, hlookups⟩ := hanswers steps
  obtain ⟨hdevice, -⟩ := hlookups "acme" "1truck"
  obtain ⟨-, htime⟩ := hlookups "acme1" "truck"
  refine ⟨hne, hsize.trans ?_, hdevice.trans ?_, htime.trans ?_, hswap _ _ hne [] []⟩
  · decide
  · decide
  · decide

end EventTable.DeviceStore
