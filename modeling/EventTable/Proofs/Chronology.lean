/-
  EventTable — tables in the order of time.

  * `Dated` holds of a time that is set and has a date, and `timeValue` is what a time is
    sorted by: a number if it is dated, and nothing if not;
  * `below_timeValue_iff` and `timeValue_injective`: these numbers are in the order of the
    times;
  * `ShowsTime` names the columns of a time of the event, and `ShowsTime.standsFor`: their
    cells stand for that time alone, whatever the zone and the patterns;
  * `rows_sortByColumn_of_standsFor`: so are the rows of a table, from any catalog;
  * `Chronological` is a listing of events in the order of time, and
    `chronological_mergeSort` that sorting by the values of the times makes one;
  * `time_columns_sort_chronologically` puts these together.
-/
import EventTable.Proofs.RowNumbers

namespace EventTable

open Number Calendar Columns

/-! ## Times as values -/

/-- The time is set, and has a date. -/
def Dated (time : Int) : Prop := 0 < time ∧ Moment.earliest ≤ time ∧ time ≤ Moment.latest

instance (time : Int) : Decidable (Dated time) := inferInstanceAs (Decidable (_ ∧ _))

/-- What a time is sorted by. -/
def timeValue (time : Int) : SortValue :=
  if Dated time then .number (Float.ofInt time) else .null

section
variable {time time' : Int}

theorem timeValue_of_dated (h : Dated time) : timeValue time = .number (Float.ofInt time) :=
  if_pos h

theorem isNull_timeValue (time : Int) : (timeValue time).isNull = !decide (Dated time) := by
  rw [timeValue]
  by_cases h : Dated time <;> simp [h, SortValue.isNull]

/-- A dated time is a whole number that has a double of its own. -/
theorem Dated.exists_nat (h : Dated time) : ∃ n : Nat, n < 2 ^ 53 ∧ time = n := by
  obtain ⟨hpos, -, hle⟩ := h
  unfold Moment.latest at hle
  exact ⟨time.toNat, by omega, by omega⟩

theorem below_timeValue_iff (h : Dated time) (h' : Dated time') :
    (timeValue time).Below (timeValue time') ↔ time < time' := by
  rw [timeValue_of_dated h, timeValue_of_dated h', ← SortValue.compare_eq_lt_iff]
  obtain ⟨n, hn, rfl⟩ := h.exists_nat
  obtain ⟨n', hn', rfl⟩ := h'.exists_nat
  show compareTotal (Float.ofNat n) (Float.ofNat n') = .lt ↔ _
  rw [compareTotal_ofNat hn hn', Nat.compare_eq_lt, Int.ofNat_lt]

theorem timeValue_injective (h : Dated time) (h' : Dated time')
    (he : timeValue time = timeValue time') : time = time' := by
  rw [timeValue_of_dated h, timeValue_of_dated h'] at he
  obtain ⟨n, hn, rfl⟩ := h.exists_nat
  obtain ⟨n', hn', rfl⟩ := h'.exists_nat
  have hsame : compare n n' = .eq := by
    rw [← compareTotal_ofNat hn hn', compareTotal_eq_eq_iff]
    exact SortValue.number.inj he
  rw [Nat.compare_eq_eq.1 hsame]

/-- One time stands before the other in a sort, if both are dated. -/
def SortSpec.Earlier (s : SortSpec) (time time' : Int) : Prop :=
  if s.descending then time' < time else time < time'

theorem before_timeValue_iff {s : SortSpec} (h : Dated time) (h' : Dated time') :
    s.Before (timeValue time) (timeValue time') ↔ s.Earlier time time' := by
  rw [SortSpec.before_iff_of_ne_null (by simp [timeValue_of_dated h])
    (by simp [timeValue_of_dated h']), SortSpec.Earlier, below_timeValue_iff h h',
    below_timeValue_iff h' h]

end

/-! ## The columns of times -/

/-- The cell is sorted by the time, and blank if that is not dated. -/
structure StandsFor (cell : Cell) (time : Int) : Prop where
  dated : Dated time → cell.sortKey = some (Float.ofInt time)
  undated : ¬ Dated time → cell = .blank

theorem StandsFor.ofCell_eq {cell : Cell} {time : Int} (h : StandsFor cell time)
    (filler : String) : SortValue.ofCell (some (cell.withFiller filler)) = timeValue time := by
  by_cases ht : Dated time
  · rw [timeValue_of_dated ht]
    refine SortValue.ofCell_of_sortKey ((Cell.sortKey_withFiller ..).trans (h.dated ht)) ?_
    obtain ⟨n, hn, rfl⟩ := ht.exists_nat
    exact isNaN_ofNat hn
  · rw [h.undated ht, timeValue, if_neg ht]
    rfl

/-- So is the text of a time, if there is one for all times that have a date. -/
theorem standsFor_timeCell {time : Int} {text : Option String}
    (htext : text.isSome = decide (Moment.earliest ≤ time ∧ time ≤ Moment.latest)) :
    StandsFor (timeCell time text) time where
  dated h := by
    have hsome : text.isSome = true := by simp [htext, h.2]
    rw [sortKey_timeCell, if_pos ⟨hsome, h.1⟩]
  undated h := by
    cases text with
    | none => rfl
    | some text =>
      have hdate := of_decide_eq_true htext.symm
      rw [timeCell]
      exact if_neg fun hpos => h ⟨hpos, hdate⟩

theorem standsFor_createDateTimeCell (ctx : Context) (e : Event) :
    StandsFor (createDateTimeCell ctx e) e.creationTime := by
  have h := standsFor_timeCell (ctx.isSome_formatDateTime? e.creationTime)
  constructor
  · intro ht
    rw [sortKey_createDateTimeCell]
    exact h.dated ht
  · intro ht
    rw [createDateTimeCell, h.undated ht]
    rfl

/-- **The columns that show a time** of the event, and that time. -/
inductive ShowsTime : (key : String) → (time : Event → Int) → Prop
  | date : ShowsTime "date" Event.timestamp
  | time : ShowsTime "time" Event.timestamp
  | dateTime : ShowsTime "dateTime" Event.timestamp
  | createDateTime : ShowsTime "createDateTime" Event.creationTime

section
variable {ctx : Context} {requests : List ColumnRequest} {request : ColumnRequest} {column : Nat}
  {time : Event → Int} {events : List Event} {s : SortSpec}

theorem ShowsTime.standsFor (h : ShowsTime request.key time) (ctx : Context) (row : Nat)
    (e : Event) : StandsFor (resolveCell eventCatalog ctx row e request) (time e) := by
  rw [resolveCell]
  generalize request.key = key at h
  cases h with
  | date => exact standsFor_timeCell (ctx.isSome_formatDate? e.timestamp)
  | time => exact standsFor_timeCell (ctx.isSome_formatTime? e.timestamp)
  | dateTime => exact standsFor_timeCell (ctx.isSome_formatDateTime? e.timestamp)
  | createDateTime => exact standsFor_createDateTimeCell ctx e

/-- An age of storage is the only thing that a column of a time can overflow with. -/
theorem ShowsTime.not_overflows (h : ShowsTime request.key time) {e : Event}
    (hage : request.key = "createDateTime" → e.AgeFits) (row : Nat) (ctx : Context) :
    ¬ Overflows row ctx e request.key := by
  rw [overflows_iff]
  generalize request.key = key at h hage
  cases h with
  | date | time | dateTime => simp
  | createDateTime => simp [hage rfl]

theorem ShowsTime.standsFor_checked (h : ShowsTime request.key time) (ctx : Context) (row : Nat)
    {e : Event} (hage : request.key = "createDateTime" → e.AgeFits) :
    StandsFor (resolveCell checkedCatalog ctx row e request) (time e) := by
  rw [resolveCell_checkedCatalog, if_neg (h.not_overflows hage row ctx)]
  exact h.standsFor ctx row e

/-- Neither the zone nor a pattern has a say in what such a cell is sorted by. -/
theorem sortValueAt_of_standsFor {ρ : Type} {catalog : Catalog ρ} {row : Nat} {record : ρ}
    {time : Int} (hq : requests[column]? = some request)
    (h : StandsFor (resolveCell catalog ctx row record request) time) :
    sortValueAt column (assembleRow catalog ctx requests row record) = timeValue time := by
  rw [sortValueAt, getElem?_assembleRow, hq, Option.map_some]
  exact h.ofCell_eq _

/-! ## Listings in the order of time -/

/-- **A listing of numbered events in the order of time**: the dated ones by their times,
    the others in one block at the chosen end, and by their numbers where that leaves it
    open. -/
structure Chronological (time : Event → Int) (s : SortSpec) (events : List Event)
    (listing : List (Event × Nat)) : Prop where
  perm : listing.Perm events.zipIdx
  blocks : listing = s.place (listing.filter fun p => !decide (Dated (time p.1)))
    (listing.filter fun p => decide (Dated (time p.1)))
  dated : (listing.filter fun p => decide (Dated (time p.1))).Pairwise fun p q =>
    s.Earlier (time p.1) (time q.1) ∨ time p.1 = time q.1 ∧ p.2 < q.2
  undated : (listing.filter fun p => !decide (Dated (time p.1))).Pairwise fun p q => p.2 < q.2

theorem chronological_mergeSort (time : Event → Int) (s : SortSpec) (events : List Event) :
    Chronological time s events (events.zipIdx.mergeSort fun p q =>
      (s.compare (timeValue (time p.1)) (timeValue (time q.1))).isLE) := by
  have hpairs := pairwise_mergeSort_values (s := s) (f := fun p => timeValue (time p.1))
    (pairwise_snd_zipIdx events)
  have hsorted : (events.zipIdx.mergeSort fun p q =>
      (s.compare (timeValue (time p.1)) (timeValue (time q.1))).isLE).Pairwise fun p q =>
        (s.compare (timeValue (time p.1)) (timeValue (time q.1))).isLE := by
    refine hpairs.imp fun h => SortSpec.isLE_compare_iff.2 (h.imp_right And.left)
  constructor
  case perm => exact List.mergeSort_perm ..
  case blocks =>
    have hplace := place_filter_isNull hsorted
    simpa only [isNull_timeValue, Bool.not_not] using hplace
  case dated =>
    refine (hpairs.filter _).imp_of_mem ?_
    intro p q hp hq h
    have htp : Dated (time p.1) := by simpa using (List.mem_filter.1 hp).2
    have htq : Dated (time q.1) := by simpa using (List.mem_filter.1 hq).2
    rcases h with h | ⟨he, hlt⟩
    · exact .inl ((before_timeValue_iff htp htq).1 h)
    · exact .inr ⟨timeValue_injective htp htq he, hlt⟩
  case undated =>
    refine (hpairs.filter _).imp_of_mem ?_
    intro p q hp hq h
    have htp : ¬ Dated (time p.1) := by simpa using (List.mem_filter.1 hp).2
    have htq : ¬ Dated (time q.1) := by simpa using (List.mem_filter.1 hq).2
    rw [timeValue, if_neg htp, timeValue, if_neg htq] at h
    rcases h with h | ⟨-, hlt⟩
    · exact absurd h SortSpec.not_before_self
    · exact hlt

/-- The rows of a table, sorted by what they are sorted by. -/
theorem rows_sortByColumn_assemble {ρ : Type} (catalog : Catalog ρ)
    (hq : requests[column]? = some request) (ctx : Context) (s : SortSpec) (records : List ρ) :
    ((assemble catalog ctx requests records).sortByColumn column s).rows =
      (records.zipIdx.mergeSort fun p q => (s.compare
        (sortValueAt column (assembleRow catalog ctx requests p.2 p.1))
        (sortValueAt column (assembleRow catalog ctx requests q.2 q.1))).isLE).map
        fun p => assembleRow catalog ctx requests p.2 p.1 := by
  obtain ⟨hcount, -⟩ := List.getElem?_eq_some_iff.1 hq
  have htable : assemble catalog ctx requests records = ⟨requests.map (columnTitle catalog ctx),
      records.zipIdx.map fun p => assembleRow catalog ctx requests p.2 p.1⟩ := by
    rw [← rows_assemble catalog ctx requests records]
    rfl
  have hc : column < (requests.map (columnTitle catalog ctx)).length := by simpa using hcount
  rw [htable, Table.sortByColumn_map, if_pos hc]
  simp only [SortSpec.compareRows_eq]

/-- The rows of a table, sorted by a column whose cells stand for a time of their records. -/
theorem rows_sortByColumn_of_standsFor {ρ : Type} {catalog : Catalog ρ} {records : List ρ}
    {time : ρ → Int} (hq : requests[column]? = some request)
    (h : ∀ row, ∀ record ∈ records,
      StandsFor (resolveCell catalog ctx row record request) (time record)) (s : SortSpec) :
    ((assemble catalog ctx requests records).sortByColumn column s).rows =
      (records.zipIdx.mergeSort fun p q =>
        (s.compare (timeValue (time p.1)) (timeValue (time q.1))).isLE).map
        fun p => assembleRow catalog ctx requests p.2 p.1 := by
  have hvalue : ∀ p ∈ records.zipIdx, sortValueAt column
      (assembleRow catalog ctx requests p.2 p.1) = timeValue (time p.1) := fun p hp =>
    sortValueAt_of_standsFor hq (h p.2 p.1 (List.fst_mem_of_mem_zipIdx hp))
  rw [rows_sortByColumn_assemble catalog hq]
  refine congrArg _ (mergeSort_congr fun p hp q hq => ?_)
  rw [hvalue p hp, hvalue q hq]

end

/-- **Sorting by a time is chronological.**  For every list of events, sorted by a column
    that shows a time in a direction and with the nulls at an end, there is one listing of
    the events in the order of that time which every table shows, whatever its context, its
    other columns and its argument: neither the zone nor the patterns matter.  With overflow
    checks the tables show it as well, unless by a time of storage whose age does not fit in
    64 bits. -/
theorem time_columns_sort_chronologically {key : String} {time : Event → Int}
    (h : ShowsTime key time) (s : SortSpec) (events : List Event) :
    ∃ listing, Chronological time s events listing ∧
      (∀ ctx requests column request, requests[column]? = some request → request.key = key →
        ((assembleEvents ctx requests events).sortByColumn column s).rows =
          listing.map fun p => assembleRow eventCatalog ctx requests p.2 p.1) ∧
      ((key = "createDateTime" → ∀ e ∈ events, e.AgeFits) →
        ∀ ctx requests column request, requests[column]? = some request → request.key = key →
          ((assemble checkedCatalog ctx requests events).sortByColumn column s).rows =
            listing.map fun p => assembleRow checkedCatalog ctx requests p.2 p.1) := by
  refine ⟨_, chronological_mergeSort time s events, ?tables, ?checkedTables⟩
  case tables =>
    intro ctx requests column request hq hk
    subst hk
    exact rows_sortByColumn_of_standsFor hq (fun row e _ => h.standsFor ctx row e) s
  case checkedTables =>
    intro hages ctx requests column request hq hk
    subst hk
    refine rows_sortByColumn_of_standsFor hq (fun row e he => ?_) s
    exact h.standsFor_checked ctx row fun hk => hages hk e he

/-- The early morning of the second day stands behind the late morning of the first, for a
    reader who sees hours of another zone, too. -/
theorem hours_of_two_days_are_told_apart :
    let events : List Event := [{ timestamp := 115200 }, {}, { timestamp := 36000 }]
    let requests : List ColumnRequest := [{ key := "index" }, { key := "time" }]
    let clock : Context := { now := 0 }
    let hours : Context := { now := 0, timeFormat := "%H", zone := { offset := 7200 } }
    ShowsTime "time" Event.timestamp ∧ requests[1]? = some { key := "time" } ∧
      (assembleEvents clock requests events).rows.map (·.map Cell.value) =
        [["1", "08:00:00"], ["2", "--"], ["3", "10:00:00"]] ∧
      (assembleEvents hours requests events).rows.map (·.map Cell.value) =
        [["1", "10"], ["2", "--"], ["3", "12"]] ∧
      ∃ listing, Chronological Event.timestamp {} events listing ∧
        ((assembleEvents clock requests events).sortByColumn 1 {}).rows =
          listing.map (fun p => assembleRow eventCatalog clock requests p.2 p.1) ∧
        ((assembleEvents hours requests events).sortByColumn 1 {}).rows =
          listing.map (fun p => assembleRow eventCatalog hours requests p.2 p.1) ∧
        ((assemble checkedCatalog clock requests events).sortByColumn 1 {}).rows =
          listing.map fun p => assembleRow checkedCatalog clock requests p.2 p.1 := by
  intro events requests clock hours
  obtain ⟨listing, hlisting, hrows, hchecked⟩ :=
    time_columns_sort_chronologically ShowsTime.time {} events
  refine ⟨.time, rfl, by decide +kernel, by decide +kernel, listing, hlisting, ?_, ?_, ?_⟩
  · exact hrows clock requests 1 _ rfl rfl
  · exact hrows hours requests 1 _ rfl rfl
  · exact hchecked (by decide) clock requests 1 _ rfl rfl

end EventTable
