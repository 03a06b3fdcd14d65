/-
  EventTable — an assembled table, cell by cell.

  * `Gives` says which cell an answer of a column gives: the cell that it
    answers, and a blank one if it fails, gives up, or is not known at all;
  * `Fills` says what fills the blank cells of a requested column;
  * `Assembled` is what a table of records must be: one title per request, one
    row per record, one cell per request in each row, and in each place the
    cell that the answer for that place gives, with the filler of its column;
  * `assembled_assemble`: `assemble` makes such a table;
  * `equalBut_assemble`: catalogs with the same answers but for one place make
    the same table but for the cell in that place;
  * `assemble_makes_cells_independently` puts these together.
-/
import EventTable.Assembly

namespace EventTable

open Text

variable {ρ : Type}

/-! ## Answers and fillers -/

/-- What a column, if there is one, answers for a record. -/
def answer? (column : Option (Column ρ)) (ctx : Context) (row : Nat) (record : ρ)
    (argument : String) : Option (Except ResolveError Cell) :=
  column.map fun column => column.value row ctx argument record

/-- The cell that an answer gives. -/
inductive Gives : Option (Except ResolveError Cell) → Cell → Prop
  | resolved {cell} : Gives (some (.ok cell)) cell
  | failed {e} : e ≠ .aborted → Gives (some (.error e)) .blank
  | gaveUp : Gives (some (.error .aborted)) .blank
  | unknown : Gives none .blank

/-- What fills the blank cells of a requested column: its own filler if that
    has something to show, else the filler of the context. -/
inductive Fills (ctx : Context) (request : ColumnRequest) : String → Prop
  | own {filler} : request.filler = some filler → isBlank filler = false →
      Fills ctx request filler
  | shared : (∀ filler, request.filler = some filler → isBlank filler = true) →
      Fills ctx request ctx.filler

theorem gives_iff {a : Option (Except ResolveError Cell)} {cell : Cell} :
    Gives a cell ↔ cell = match a with
      | some (.ok cell) => cell
      | _ => .blank := by
  constructor
  · intro h
    cases h <;> rfl
  · rintro rfl
    rcases a with _ | (e | cell)
    · exact .unknown
    · by_cases he : e = .aborted
      · exact he ▸ .gaveUp
      · exact .failed he
    · exact .resolved

theorem gives_resolveCell (catalog : Catalog ρ) (ctx : Context) (row : Nat) (record : ρ)
    (request : ColumnRequest) :
    Gives (answer? (catalog.lookup? request.key) ctx row record request.argument)
      (resolveCell catalog ctx row record request) := by
  rw [gives_iff, resolveCell]
  cases catalog.lookup? request.key with
  | none => rfl
  | some column =>
    simp only [answer?, Option.map_some]
    cases column.value row ctx request.argument record <;> rfl

/-- A cell is made of what the columns answer for its place. -/
theorem resolveCell_congr {catalog : Catalog ρ} {ctx ctx' : Context} {row : Nat} {record : ρ}
    {request request' : ColumnRequest} (hk : request.key = request'.key)
    (h : ∀ column ∈ catalog.columns, column.value row ctx request.argument record =
      column.value row ctx' request'.argument record) :
    resolveCell catalog ctx row record request = resolveCell catalog ctx' row record request' := by
  rw [resolveCell, resolveCell, ← hk]
  cases hl : catalog.lookup? request.key with
  | none => rfl
  | some column => simp only [h column (List.mem_of_find?_eq_some hl)]

theorem Gives.unique {a : Option (Except ResolveError Cell)} {cell cell' : Cell}
    (h : Gives a cell) (h' : Gives a cell') : cell = cell' :=
  (gives_iff.1 h).trans (gives_iff.1 h').symm

theorem fills_columnFiller (ctx : Context) (request : ColumnRequest) :
    Fills ctx request (columnFiller ctx request) := by
  rw [columnFiller]
  cases h : request.filler.bind nonBlank? with
  | none =>
    refine .shared fun filler hf => ?_
    rwa [hf, Option.bind_some, nonBlank?_eq_none_iff] at h
  | some filler =>
    obtain ⟨own, ho, hn⟩ := Option.bind_eq_some_iff.1 h
    obtain ⟨hb, rfl⟩ := nonBlank?_eq_some_iff.1 hn
    exact .own ho hb

theorem Fills.unique {ctx : Context} {request : ColumnRequest} {f f' : String}
    (h : Fills ctx request f) (h' : Fills ctx request f') : f = f' := by
  cases h with
  | own ho hb =>
    cases h' with
    | own ho' _ => exact Option.some.inj (ho.symm.trans ho')
    | shared hs => simp [hs _ ho] at hb
  | shared hs =>
    cases h' with
    | own ho hb => simp [hs _ ho] at hb
    | shared _ => rfl

/-! ## The table -/

/-- **A table of requested columns over records.** -/
structure Assembled (catalog : Catalog ρ) (ctx : Context) (requests : List ColumnRequest)
    (records : List ρ) (t : Table) : Prop where
  titles : t.titles = requests.map (columnTitle catalog ctx)
  rowCount : t.rowCount = records.length
  rowLength : ∀ row ∈ t.rows, row.length = requests.length
  cells : ∀ i j cell, t.cell? i j = some cell ↔ ∃ record request bare filler,
    records[i]? = some record ∧ requests[j]? = some request ∧
      Gives (answer? (catalog.lookup? request.key) ctx i record request.argument) bare ∧
      Fills ctx request filler ∧ cell = bare.withFiller filler

theorem getElem?_assembleRow (catalog : Catalog ρ) (ctx : Context)
    (requests : List ColumnRequest) (row : Nat) (record : ρ) (column : Nat) :
    (assembleRow catalog ctx requests row record)[column]? = requests[column]?.map fun request =>
      (resolveCell catalog ctx row record request).withFiller (columnFiller ctx request) :=
  List.getElem?_map ..

/-- The rows are made of the records and their places. -/
theorem rows_assemble (catalog : Catalog ρ) (ctx : Context) (requests : List ColumnRequest)
    (records : List ρ) : (assemble catalog ctx requests records).rows =
      records.zipIdx.map fun p => assembleRow catalog ctx requests p.2 p.1 :=
  List.mapIdx_eq_zipIdx_map

theorem length_of_mem_assemble {catalog : Catalog ρ} {ctx : Context}
    {requests : List ColumnRequest} {records : List ρ} {row : List Cell}
    (h : row ∈ (assemble catalog ctx requests records).rows) : row.length = requests.length := by
  obtain ⟨i, hi, rfl⟩ := List.mem_mapIdx.1 h
  simp [assembleRow]

theorem rowLengths_assemble (catalog : Catalog ρ) (ctx : Context) (requests : List ColumnRequest)
    (records : List ρ) :
    (assemble catalog ctx requests records).rows.map List.length =
      List.replicate records.length requests.length := by
  refine List.eq_replicate_iff.2 ⟨by simp [assemble], fun n hn => ?_⟩
  obtain ⟨row, hrow, rfl⟩ := List.mem_map.1 hn
  exact length_of_mem_assemble hrow

/-- The cell in a place of an assembled table. -/
theorem cell?_assemble (catalog : Catalog ρ) (ctx : Context) (requests : List ColumnRequest)
    (records : List ρ) (i j : Nat) :
    (assemble catalog ctx requests records).cell? i j =
      records[i]?.bind fun record => requests[j]?.map fun request =>
        (resolveCell catalog ctx i record request).withFiller (columnFiller ctx request) := by
  cases h : records[i]? <;>
    simp [assemble, Table.cell?, getElem?_assembleRow, List.getElem?_mapIdx, h]

theorem assembled_assemble (catalog : Catalog ρ) (ctx : Context) (requests : List ColumnRequest)
    (records : List ρ) :
    Assembled catalog ctx requests records (assemble catalog ctx requests records) where
  titles := rfl
  rowCount := List.length_mapIdx
  rowLength _ h := length_of_mem_assemble h
  cells i j cell := by
    rw [cell?_assemble]
    simp only [Option.bind_eq_some_iff, Option.map_eq_some_iff]
    constructor
    · rintro ⟨record, hr, request, hq, rfl⟩
      exact ⟨record, request, _, _, hr, hq, gives_resolveCell .., fills_columnFiller .., rfl⟩
    · rintro ⟨record, request, bare, filler, hr, hq, hg, hf, rfl⟩
      refine ⟨record, hr, request, hq, ?_⟩
      rw [hg.unique (gives_resolveCell ..), hf.unique (fills_columnFiller ..)]

/-! ## Two runs -/

/-- **Two catalogs differ in one place**: they have the same titles, and the same
    answers for every other record and request. -/
structure DifferOnlyAt (catalog catalog' : Catalog ρ) (ctx : Context)
    (requests : List ColumnRequest) (records : List ρ) (row column : Nat) : Prop where
  titles : ∀ request ∈ requests, columnTitle catalog ctx request = columnTitle catalog' ctx request
  answers : ∀ i j record request, records[i]? = some record → requests[j]? = some request →
    (i, j) ≠ (row, column) →
    answer? (catalog.lookup? request.key) ctx i record request.argument =
      answer? (catalog'.lookup? request.key) ctx i record request.argument

/-- Two tables of one shape, with the same titles and the same cells but for
    one place. -/
structure EqualBut (row column : Nat) (t t' : Table) : Prop where
  titles : t.titles = t'.titles
  rowLengths : t.rows.map List.length = t'.rows.map List.length
  cells : ∀ i j, (i, j) ≠ (row, column) → t.cell? i j = t'.cell? i j

/-- A cell depends on the answer for its own place only. -/
theorem cell?_assemble_congr {catalog catalog' : Catalog ρ} {ctx : Context}
    {requests : List ColumnRequest} {records : List ρ} {i j : Nat}
    (h : ∀ record request, records[i]? = some record → requests[j]? = some request →
      answer? (catalog.lookup? request.key) ctx i record request.argument =
        answer? (catalog'.lookup? request.key) ctx i record request.argument) :
    (assemble catalog ctx requests records).cell? i j =
      (assemble catalog' ctx requests records).cell? i j := by
  rw [cell?_assemble, cell?_assemble]
  cases hr : records[i]? with
  | none => rfl
  | some record =>
    cases hq : requests[j]? with
    | none => rfl
    | some request =>
      have hg := gives_resolveCell catalog ctx i record request
      rw [h record request hr hq] at hg
      simp only [Option.bind_some, Option.map_some]
      rw [hg.unique (gives_resolveCell ..)]

theorem equalBut_assemble {catalog catalog' : Catalog ρ} {ctx : Context}
    {requests : List ColumnRequest} {records : List ρ} {row column : Nat}
    (h : DifferOnlyAt catalog catalog' ctx requests records row column) :
    EqualBut row column (assemble catalog ctx requests records)
      (assemble catalog' ctx requests records) where
  titles := List.map_congr_left h.titles
  rowLengths := (rowLengths_assemble ..).trans (rowLengths_assemble ..).symm
  cells i j hij := cell?_assemble_congr fun record request hr hq =>
    h.answers i j record request hr hq hij

/-- **Cells are made one by one.**  A table has one cell per record and request,
    each of them given by the answer for its own place; so a resolver that
    fails, gives up or answers otherwise in one place changes no other cell,
    and titles do not depend on the records. -/
theorem assemble_makes_cells_independently (catalog : Catalog ρ) (ctx : Context)
    (requests : List ColumnRequest) (records : List ρ) :
    Assembled catalog ctx requests records (assemble catalog ctx requests records) ∧
      (∀ records', (assemble catalog ctx requests records').titles =
        (assemble catalog ctx requests records).titles) ∧
      ∀ catalog' row column,
        DifferOnlyAt catalog catalog' ctx requests records row column →
        EqualBut row column (assemble catalog ctx requests records)
          (assemble catalog' ctx requests records) :=
  ⟨assembled_assemble .., fun _ => rfl, fun _ _ _ h => equalBut_assemble h⟩

/-- Two columns over words; the brittle one gives up on the first row. -/
def wordCatalog (brittle : Bool) : Catalog String where
  columns :=
    [{ key := "word"
       title := fun _ _ => "Word"
       value := fun row _ _ word =>
         if brittle ∧ row = 0 then .error .aborted else .ok (.ofText word) },
      { key := "twice"
        title := fun _ _ => "Twice"
        value := fun _ _ _ word => .ok (.ofText (word ++ word)) }]

/-- The word of the first row is lost, and nothing else. -/
theorem brittle_word_blanks_one_cell :
    let requests : List ColumnRequest := [{ key := "word" }, { key := "twice" }]
    let table := fun brittle => assemble (wordCatalog brittle) { now := 0 } requests ["ab", "cd"]
    DifferOnlyAt (wordCatalog false) (wordCatalog true) { now := 0 } requests ["ab", "cd"] 0 0 ∧
      EqualBut 0 0 (table false) (table true) ∧
      ((table true).cell? 0 0).map Cell.isBlank = some true := by
  intro requests table
  have h : DifferOnlyAt (wordCatalog false) (wordCatalog true) { now := 0 } requests
      ["ab", "cd"] 0 0 := by
    refine ⟨fun request hr => ?_, fun i j record request _ hq hij => ?_⟩
    · simp only [requests, List.mem_cons, List.not_mem_nil, or_false] at hr
      rcases hr with rfl | rfl <;> rfl
    · match j with
      | 0 =>
        obtain rfl := Option.some.inj hq
        have hi : i ≠ 0 := fun hi => hij (by rw [hi])
        simp [answer?, wordCatalog, Catalog.lookup?, hi]
      | 1 =>
        obtain rfl := Option.some.inj hq
        rfl
      | j + 2 => simp [requests] at hq
  exact ⟨h, (assemble_makes_cells_independently ..).2.2 _ _ _ h, rfl⟩

end EventTable
