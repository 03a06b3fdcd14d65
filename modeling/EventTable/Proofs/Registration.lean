/-
  EventTable — registering columns, one call after the other.

  A catalog in the making keeps its columns by key and, beside them, the keys in
  order.

  * `CatalogBuilder.register` is a call, which may fail, and `Step` says what it
    can answer and leave;
  * `CatalogBuilder.Holds` relates both containers to a list of columns, and
    `holds_after`: after any calls they hold the columns of the calls that
    succeeded (`accepted`), whatever failed in between;
  * `build_register`: so `register` does to both what `Catalog.register?` does to
    the list;
  * `Answers` and `Lists` are what each call must answer, and what the catalog
    must list in the end; `catalogs_list_what_was_registered` puts these together;
  * `eventCatalog_registered`: no column over events is refused.
-/
import EventTable.EventCatalog
import Mathlib.Data.List.Induction
import Mathlib.Data.List.Nodup
import Std.Data.HashMap.Lemmas

namespace EventTable

variable {ρ : Type}

/-! ## Well-formed keys -/

/-- A key that is not empty, of letters, digits and underscores of ASCII. -/
def WellFormedKey (key : String) : Prop :=
  key ≠ "" ∧ ∀ c ∈ key.toList, ('A' ≤ c ∧ c ≤ 'Z') ∨ ('a' ≤ c ∧ c ≤ 'z') ∨
    ('0' ≤ c ∧ c ≤ '9') ∨ c = '_'

theorem isValidKey_iff {key : String} : isValidKey key = true ↔ WellFormedKey key := by
  have halphanum : ∀ c : Char, c.isAlphanum = ((decide ('A' ≤ c ∧ c ≤ 'Z') ||
      (decide ('a' ≤ c) && decide (c ≤ 'z'))) || (decide ('0' ≤ c) && decide (c ≤ '9'))) :=
    fun _ => rfl
  simp only [isValidKey, WellFormedKey, halphanum, Bool.and_eq_true, Bool.not_eq_true',
    String.isEmpty_eq_false_iff, List.all_eq_true, Bool.or_eq_true, beq_iff_eq,
    decide_eq_true_eq, or_assoc, ne_eq]

/-! ## Looking up a key -/

namespace Catalog

variable {c : Catalog ρ} {key : String} {column : Column ρ}

theorem lookup?_eq_none_iff : c.lookup? key = none ↔ key ∉ c.keys := by
  simp [lookup?, keys]

theorem contains_iff : c.contains key = true ↔ key ∈ c.keys := by
  simp [contains, lookup?, keys]

theorem lookup?_eq_some_iff (hn : c.keys.Nodup) :
    c.lookup? key = some column ↔ column ∈ c.columns ∧ column.key = key := by
  constructor
  · intro h
    exact ⟨List.mem_of_find?_eq_some h, by simpa using List.find?_some h⟩
  · rintro ⟨hm, rfl⟩
    cases hf : c.lookup? column.key with
    | none => exact absurd (List.mem_map_of_mem hm) (lookup?_eq_none_iff.1 hf)
    | some found =>
      have hk : found.key = column.key := by simpa using List.find?_some hf
      rw [List.inj_on_of_nodup_map hn (List.mem_of_find?_eq_some hf) hm hk]

end Catalog

/-! ## Calls -/

/-- A catalog in the making: columns by key, and the keys in order. -/
structure CatalogBuilder (ρ : Type) where
  templates : Std.HashMap String (Column ρ) := {}
  order : List String := []

namespace CatalogBuilder

/-- Registers a column; its key must be well formed and new. -/
def register (column : Column ρ) : ExceptT CatalogError (StateM (CatalogBuilder ρ)) Unit := do
  if !isValidKey column.key then throw (.invalidKey column.key)
  if (← get).templates.contains column.key then throw (.duplicateKey column.key)
  modify fun b => { b with templates := b.templates.insert column.key column }
  modify fun b => { b with order := b.order ++ [column.key] }

/-- What a call answers, and the builder that it leaves. -/
def call (b : CatalogBuilder ρ) (column : Column ρ) :
    Except CatalogError Unit × CatalogBuilder ρ := (register column).run.run b

/-- The catalog of both containers. -/
def build (b : CatalogBuilder ρ) : Catalog ρ := ⟨b.order.filterMap (b.templates[·]?)⟩

theorem call_eq (b : CatalogBuilder ρ) (column : Column ρ) : b.call column =
      if !isValidKey column.key then (.error (.invalidKey column.key), b)
      else if b.templates.contains column.key then (.error (.duplicateKey column.key), b)
      else (.ok (), { templates := b.templates.insert column.key column
                      order := b.order ++ [column.key] }) := by
  rw [call, register]
  cases isValidKey column.key with
  | false => rfl
  | true =>
    -- the state that the second check reads is `b`
    change StateT.run (ExceptT.run (if b.templates.contains column.key then
      throw (CatalogError.duplicateKey column.key) else _)) b = _
    cases b.templates.contains column.key <;> rfl

/-! ## Both containers hold the same columns -/

/-- **The containers hold the columns**, each under its own key and no key twice. -/
structure Holds (b : CatalogBuilder ρ) (c : Catalog ρ) : Prop where
  order : b.order = c.keys
  templates : ∀ key, b.templates[key]? = c.lookup? key
  nodup : c.keys.Nodup

theorem holds_empty : ({} : CatalogBuilder ρ).Holds {} where
  order := rfl
  templates _ := Std.HashMap.getElem?_empty
  nodup := .nil

variable {b : CatalogBuilder ρ} {c : Catalog ρ}

theorem Holds.build_eq (h : b.Holds c) : b.build = c := by
  have hcolumns : c.columns.filterMap (fun column => c.lookup? column.key) = c.columns := by
    rw [List.filterMap_congr fun column hm => (Catalog.lookup?_eq_some_iff h.nodup).2 ⟨hm, rfl⟩,
      List.filterMap_some]
  have hlookup : (b.templates[·]?) = c.lookup? := funext h.templates
  rw [build, h.order, hlookup, Catalog.keys, List.filterMap_map]
  exact congrArg Catalog.mk hcolumns

theorem Holds.contains_eq (h : b.Holds c) (key : String) :
    b.templates.contains key = c.contains key := by
  rw [Std.HashMap.contains_eq_isSome_getElem?, h.templates, Catalog.contains]

/-- A new key is added to both containers. -/
theorem Holds.insert (h : b.Holds c) {column : Column ρ} (hnew : column.key ∉ c.keys) :
    Holds { templates := b.templates.insert column.key column, order := b.order ++ [column.key] }
      ⟨c.columns ++ [column]⟩ where
  order := by simp [h.order, Catalog.keys]
  templates key := by
    rw [Std.HashMap.getElem?_insert, h.templates, Catalog.lookup?, Catalog.lookup?,
      List.find?_append, List.find?_singleton]
    by_cases hk : column.key = key
    · subst hk
      have hnone : c.lookup? column.key = none := Catalog.lookup?_eq_none_iff.2 hnew
      rw [Catalog.lookup?] at hnone
      simp [hnone]
    · simp [hk]
  nodup := by
    rw [Catalog.keys, List.map_append, List.map_singleton]
    refine List.nodup_append.2 ⟨h.nodup, List.nodup_singleton _, fun key hk key' hk' heq => ?_⟩
    rw [heq, List.mem_singleton.1 hk'] at hk
    exact hnew hk

/-- **What one call can do.** -/
inductive Step (c : Catalog ρ) (b : CatalogBuilder ρ) (column : Column ρ) :
    Except CatalogError Unit × CatalogBuilder ρ → Prop
  | invalid : ¬ WellFormedKey column.key →
      Step c b column (.error (.invalidKey column.key), b)
  | duplicate : WellFormedKey column.key → column.key ∈ c.keys →
      Step c b column (.error (.duplicateKey column.key), b)
  | registered {b'} : WellFormedKey column.key → column.key ∉ c.keys →
      b'.Holds ⟨c.columns ++ [column]⟩ → Step c b column (.ok (), b')

theorem Holds.step (h : b.Holds c) (column : Column ρ) : Step c b column (b.call column) := by
  rw [call_eq, h.contains_eq]
  cases hv : isValidKey column.key with
  | false => exact .invalid fun hw => by simp [isValidKey_iff.2 hw] at hv
  | true =>
    rw [isValidKey_iff] at hv
    cases hc : c.contains column.key with
    | true => exact .duplicate hv (Catalog.contains_iff.1 hc)
    | false =>
      have hnew : column.key ∉ c.keys := fun hm => by simp [Catalog.contains_iff.2 hm] at hc
      exact .registered hv hnew (h.insert hnew)

/-- A call does to both containers what `Catalog.register?` does to the list. -/
theorem Holds.register?_build (h : b.Holds c) (column : Column ρ) :
    b.build.register? column = (b.call column).1.map fun _ => (b.call column).2.build := by
  rw [h.build_eq, Catalog.register?, call_eq, h.contains_eq]
  cases isValidKey column.key with
  | false => rfl
  | true =>
    cases hc : c.contains column.key with
    | true => rfl
    | false =>
      have hnew : column.key ∉ c.keys := fun hm => by simp [Catalog.contains_iff.2 hm] at hc
      exact congrArg Except.ok (h.insert hnew).build_eq.symm

/-! ## Runs -/

/-- Makes one call after the other; a call that fails does not end the run. -/
def registerAll (calls : List (Column ρ)) :
    StateM (CatalogBuilder ρ) (List (Except CatalogError Unit)) :=
  calls.mapM fun column => (register column).run

/-- What the calls answer on a fresh builder. -/
def outcomes (calls : List (Column ρ)) : List (Except CatalogError Unit) :=
  ((registerAll calls).run {}).1

/-- What the calls leave of a fresh builder. -/
def after (calls : List (Column ρ)) : CatalogBuilder ρ := ((registerAll calls).run {}).2

/-- The columns of the calls that succeed. -/
def accepted (calls : List (Column ρ)) : List (Column ρ) :=
  ((calls.zip (outcomes calls)).filter (·.2.isOk)).map Prod.fst

theorem run_registerAll_cons (column : Column ρ) (calls : List (Column ρ))
    (b : CatalogBuilder ρ) : (registerAll (column :: calls)).run b =
      ((b.call column).1 :: ((registerAll calls).run (b.call column).2).1,
        ((registerAll calls).run (b.call column).2).2) := by
  rw [registerAll, List.mapM_cons]
  rfl

theorem run_registerAll_append (calls more : List (Column ρ)) (b : CatalogBuilder ρ) :
    (registerAll (calls ++ more)).run b =
      (((registerAll calls).run b).1 ++ ((registerAll more).run ((registerAll calls).run b).2).1,
        ((registerAll more).run ((registerAll calls).run b).2).2) := by
  rw [registerAll, List.mapM_append]
  rfl

theorem length_outcomes (calls : List (Column ρ)) : (outcomes calls).length = calls.length := by
  rw [outcomes]
  generalize ({} : CatalogBuilder ρ) = b
  induction calls generalizing b with
  | nil => rfl
  | cons column calls ih => rw [run_registerAll_cons, List.length_cons, ih, List.length_cons]

theorem outcomes_concat (calls : List (Column ρ)) (column : Column ρ) :
    outcomes (calls ++ [column]) = outcomes calls ++ [((after calls).call column).1] := by
  rw [outcomes, run_registerAll_append, run_registerAll_cons]
  rfl

theorem after_concat (calls : List (Column ρ)) (column : Column ρ) :
    after (calls ++ [column]) = ((after calls).call column).2 := by
  rw [after, run_registerAll_append, run_registerAll_cons]
  rfl

theorem accepted_concat (calls : List (Column ρ)) (column : Column ρ) :
    accepted (calls ++ [column]) =
      accepted calls ++ if ((after calls).call column).1.isOk then [column] else [] := by
  rw [accepted, outcomes_concat, List.zip_append (length_outcomes calls).symm, List.filter_append,
    List.map_append, ← accepted]
  cases ((after calls).call column).1 <;> rfl

/-- **After any calls the builder holds the columns of those that succeeded.** -/
theorem holds_after (calls : List (Column ρ)) : (after calls).Holds ⟨accepted calls⟩ := by
  induction calls using List.reverseRecOn with
  | nil => exact holds_empty
  | append_singleton calls column ih =>
    rw [after_concat, accepted_concat]
    have hstep := ih.step column
    generalize (after calls).call column = r at hstep
    cases hstep with
    | invalid => simpa [Except.isOk, Except.toBool] using ih
    | duplicate => simpa [Except.isOk, Except.toBool] using ih
    | registered _ _ hb => exact hb

/-! ## What a call answers and the catalog lists -/

section
variable (calls : List (Column ρ))

/-- A call before number `i` registered the key. -/
def RegisteredBefore (i : Nat) (key : String) : Prop :=
  ∃ j < i, ∃ earlier, calls[j]? = some earlier ∧ earlier.key = key ∧
    (outcomes calls)[j]? = some (.ok ())

/-- **What call number `i` must answer**, and leave of the builder. -/
structure Answers (i : Nat) (key : String) (outcome : Except CatalogError Unit) : Prop where
  invalid : outcome = .error (.invalidKey key) ↔ ¬ WellFormedKey key
  duplicate : outcome = .error (.duplicateKey key) ↔
    WellFormedKey key ∧ RegisteredBefore calls i key
  registered : outcome = .ok () ↔ WellFormedKey key ∧ ¬ RegisteredBefore calls i key
  kept : outcome ≠ .ok () → after (calls.take (i + 1)) = after (calls.take i)

/-- **What the catalog must list** after the calls. -/
structure Lists (catalog : Catalog ρ) : Prop where
  keys : catalog.keys = (accepted calls).map (·.key)
  once : catalog.keys.Nodup
  size : catalog.size = (accepted calls).length
  present : ∀ key, (catalog.lookup? key).isSome ↔ key ∈ catalog.keys
  first : ∀ key column, catalog.lookup? key = some column ↔ ∃ i, calls[i]? = some column ∧
    column.key = key ∧ (outcomes calls)[i]? = some (.ok ()) ∧ ¬ RegisteredBefore calls i key

end

variable {calls : List (Column ρ)} {column : Column ρ} {i : Nat}

theorem mem_accepted_iff : column ∈ accepted calls ↔
    ∃ i : Nat, calls[i]? = some column ∧ (outcomes calls)[i]? = some (.ok ()) := by
  rw [accepted, List.mem_map]
  constructor
  · rintro ⟨⟨_, outcome⟩, hm, rfl⟩
    obtain ⟨hm, hok⟩ := List.mem_filter.1 hm
    obtain ⟨i, hi⟩ := List.mem_iff_getElem?.1 hm
    obtain ⟨hc, ho⟩ := List.getElem?_zip_eq_some.1 hi
    cases outcome with
    | error e => exact absurd hok nofun
    | ok => exact ⟨i, hc, ho⟩
  · rintro ⟨i, hc, ho⟩
    have hi : (calls.zip (outcomes calls))[i]? = some (column, .ok ()) :=
      List.getElem?_zip_eq_some.2 ⟨hc, ho⟩
    exact ⟨_, List.mem_filter.2 ⟨List.mem_of_getElem? hi, rfl⟩, rfl⟩

/-- The first calls answer the same whatever calls follow. -/
theorem outcomes_take (calls : List (Column ρ)) (i : Nat) :
    outcomes (calls.take i) = (outcomes calls).take i := by
  have hsplit : outcomes calls = outcomes (calls.take i) ++
      ((registerAll (calls.drop i)).run (after (calls.take i))).1 := by
    conv_lhs => rw [← List.take_append_drop i calls, outcomes, run_registerAll_append]
    rfl
  rcases Nat.le_total i calls.length with hi | hi
  · have hlen : (outcomes (calls.take i)).length = i := by
      rw [length_outcomes, List.length_take_of_le hi]
    rw [hsplit, List.take_left' hlen]
  · rw [List.take_of_length_le hi, List.take_of_length_le (by rwa [length_outcomes])]

theorem take_succ_of_getElem? (hc : calls[i]? = some column) :
    calls.take (i + 1) = calls.take i ++ [column] := by
  rw [List.take_add_one, hc, Option.toList_some]

theorem getElem?_outcomes (hc : calls[i]? = some column) :
    (outcomes calls)[i]? = some ((after (calls.take i)).call column).1 := by
  have hi : i < calls.length := (List.getElem?_eq_some_iff.1 hc).1
  have hlen : (outcomes (calls.take i)).length = i := by
    rw [length_outcomes, List.length_take_of_le (Nat.le_of_lt hi)]
  have htake : (outcomes calls)[i]? = (outcomes (calls.take (i + 1)))[i]? := by
    rw [outcomes_take, List.getElem?_take_of_lt (Nat.lt_succ_self i)]
  rw [htake, take_succ_of_getElem? hc, outcomes_concat,
    List.getElem?_append_right (Nat.le_of_eq hlen), hlen, Nat.sub_self]
  rfl

theorem registeredBefore_iff {key : String} : RegisteredBefore calls i key ↔
    key ∈ (⟨accepted (calls.take i)⟩ : Catalog ρ).keys := by
  simp only [Catalog.keys, List.mem_map, mem_accepted_iff, outcomes_take, List.getElem?_take]
  constructor
  · rintro ⟨j, hj, earlier, hc, hk, ho⟩
    exact ⟨earlier, ⟨j, by rwa [if_pos hj], by rwa [if_pos hj]⟩, hk⟩
  · rintro ⟨earlier, ⟨j, hc, ho⟩, hk⟩
    by_cases hj : j < i
    · rw [if_pos hj] at hc ho
      exact ⟨j, hj, earlier, hc, hk, ho⟩
    · rw [if_neg hj] at hc
      exact absurd hc nofun

theorem answers_of_getElem? (hc : calls[i]? = some column) :
    Answers calls i column.key ((after (calls.take i)).call column).1 := by
  have hafter : after (calls.take (i + 1)) = ((after (calls.take i)).call column).2 := by
    rw [take_succ_of_getElem? hc, after_concat]
  have hstep := (holds_after (calls.take i)).step column
  generalize (after (calls.take i)).call column = r at hafter hstep
  cases hstep with
  | invalid hw =>
    exact ⟨by simpa using hw, by simp [hw], by simp [hw], fun _ => hafter⟩
  | duplicate hw hm =>
    rw [← registeredBefore_iff] at hm
    exact ⟨by simpa using hw, by simp [hw, hm], by simp [hm], fun _ => hafter⟩
  | registered hw hm _ =>
    rw [← registeredBefore_iff] at hm
    exact ⟨by simpa using hw, by simp [hm], by simp [hw, hm], fun h => absurd rfl h⟩

theorem lists_accepted (calls : List (Column ρ)) : Lists calls ⟨accepted calls⟩ := by
  have hn := (holds_after calls).nodup
  refine ⟨rfl, hn, rfl, fun key => ?_, fun key column => ?_⟩
  · exact Catalog.contains_iff
  · rw [Catalog.lookup?_eq_some_iff hn, mem_accepted_iff]
    constructor
    · rintro ⟨⟨i, hc, ho⟩, rfl⟩
      have hok : ((after (calls.take i)).call column).1 = .ok () :=
        Option.some.inj ((getElem?_outcomes hc).symm.trans ho)
      exact ⟨i, hc, rfl, ho, ((answers_of_getElem? hc).registered.1 hok).2⟩
    · rintro ⟨i, hc, hk, ho, -⟩
      exact ⟨⟨i, hc, ho⟩, hk⟩

/-- **A catalog lists what was registered.**  Let columns be registered one after
    the other, whatever their keys: each call answers what it must, and one that
    fails changes nothing; in the end the catalog lists the keys of the calls that
    succeeded, once each and in their order, and finds under a key the column of
    the call that first registered it.  All along both containers hold the columns
    of the catalog, and do what `Catalog.register?` does. -/
theorem catalogs_list_what_was_registered (calls : List (Column ρ)) :
    (∀ i column, calls[i]? = some column →
      ∃ outcome, (outcomes calls)[i]? = some outcome ∧ Answers calls i column.key outcome) ∧
    Lists calls (after calls).build ∧
    (after calls).Holds (after calls).build ∧
    ∀ column, (after calls).build.register? column =
      ((after calls).call column).1.map fun _ => ((after calls).call column).2.build := by
  have hb := holds_after calls
  refine ⟨fun i column hc => ⟨_, getElem?_outcomes hc, answers_of_getElem? hc⟩, ?_, ?_,
    hb.register?_build⟩
  · rw [hb.build_eq]
    exact lists_accepted calls
  · rw [hb.build_eq]
    exact hb

/-- A column that shows one text. -/
def textColumn (key text : String) : Column String where
  key
  title _ _ := text
  value _ _ _ _ := .ok (.ofText text)

/-- Two columns of one key, with keys that are refused beside them. -/
theorem second_speed_is_refused :
    let calls := [textColumn "speed" "a", textColumn "" "b", textColumn "speed" "c",
      textColumn "fuel-level" "d"]
    calls[2]? = some (textColumn "speed" "c") ∧
      (outcomes calls)[2]? = some (.error (.duplicateKey "speed")) ∧
      after (calls.take 3) = after (calls.take 2) ∧
      (after calls).build.lookup? "speed" = some (textColumn "speed" "a") := by
  intro calls
  obtain ⟨hcalls, hlists, -⟩ := catalogs_list_what_was_registered calls
  have hspeed : WellFormedKey "speed" := isValidKey_iff.1 (by decide)
  have hfresh : ¬ RegisteredBefore calls 0 "speed" :=
    fun ⟨j, hj, _⟩ => absurd hj (Nat.not_lt_zero j)
  obtain ⟨_, hfirst, ha⟩ := hcalls 0 (textColumn "speed" "a") rfl
  obtain rfl := ha.registered.2 ⟨hspeed, hfresh⟩
  obtain ⟨_, hsecond, ha⟩ := hcalls 2 (textColumn "speed" "c") rfl
  obtain rfl := ha.duplicate.2 ⟨hspeed, 0, by decide, _, rfl, rfl, hfirst⟩
  exact ⟨rfl, hsecond, ha.kept nofun, (hlists.first ..).2 ⟨0, rfl, rfl, hfirst, hfresh⟩⟩

/-! ## The columns over events -/

/-- No call of well-formed keys that differ fails. -/
theorem accepted_eq_self {calls : List (Column ρ)}
    (hw : ∀ column ∈ calls, WellFormedKey column.key) (hn : (calls.map (·.key)).Nodup) :
    accepted calls = calls := by
  induction calls using List.reverseRecOn with
  | nil => rfl
  | append_singleton calls column ih =>
    rw [List.forall_mem_append] at hw
    rw [List.map_append, List.nodup_append] at hn
    have ih := ih hw.1 hn.1
    have hstep := (holds_after calls).step column
    rw [accepted_concat, ih]
    rw [ih] at hstep
    generalize (after calls).call column = r at hstep
    cases hstep with
    | invalid h => exact absurd (hw.2 column (List.mem_singleton_self _)) h
    | duplicate _ hm => exact absurd rfl (hn.2.2 _ hm _ (List.mem_singleton_self _))
    | registered => rfl

/-- **No column over events is refused**: registered one after the other, they
    make the catalog of events. -/
theorem eventCatalog_registered :
    (after eventColumns).build = eventCatalog ∧ accepted eventColumns = eventColumns := by
  have hw : ∀ column ∈ eventColumns, isValidKey column.key = true := by decide +kernel
  have hn : (eventColumns.map (·.key)).Nodup := by decide +kernel
  have ha : accepted eventColumns = eventColumns :=
    accepted_eq_self (fun column hc => isValidKey_iff.1 (hw column hc)) hn
  refine ⟨?_, ha⟩
  rw [(holds_after eventColumns).build_eq, ha]
  rfl

end CatalogBuilder

end EventTable
