/-
  EventTable — sorting by the row number.

  * `sortAll_sortByColumn_of_pairwise`: a table whose rows are in the strict
    order of a sort is what that sort makes of it after any others;
  * `sortValueAt_index`: in the column `index`, whatever its argument, a row is
    sorted by its place in the records;
  * `pairwise_before_index`: so the rows of a table stand in the strict order of
    that column as they are assembled;
  * `sorting_by_index_undoes_all_sorts` puts these together.
-/
import EventTable.Proofs.SortKeys
import EventTable.Proofs.SortRuns
import EventTable.Proofs.WholeDoubles
import Mathlib.Algebra.Group.Nat.Defs

namespace EventTable

open Number

/-! ## Rows in strict order -/

theorem Table.sortAll_concat (t : Table) (sorts : List (Nat × SortSpec)) (sort : Nat × SortSpec) :
    t.sortAll (sorts ++ [sort]) = (t.sortAll sorts).sortByColumn sort.1 sort.2 := by
  simp [Table.sortAll]

/-- Of rows in the strict order of a sort no other sort decides anything, if that
    one is the last. -/
theorem Table.sortAll_sortByColumn_of_pairwise {t : Table} {column : Nat} {s : SortSpec}
    (hc : column < t.columnCount)
    (h : t.rows.Pairwise fun a b => s.Before (sortValueAt column a) (sortValueAt column b))
    (sorts : List (Nat × SortSpec)) : (t.sortAll sorts).sortByColumn column s = t := by
  have hlast : decisiveSorts t (sorts ++ [(column, s)]) =
      (column, s) :: decisiveSorts t sorts := by
    simp [decisiveSorts, hc]
  have hnumbered : t.rows.zipIdx.Pairwise fun a b =>
      s.Before (sortValueAt column a.1) (sortValueAt column b.1) := by
    rw [← List.zipIdx_map_fst 0 t.rows, List.pairwise_map] at h
    exact h
  have hordered : OrderedBy (decisiveSorts t (sorts ++ [(column, s)])) t.rows t.rows := by
    refine ⟨t.rows.zipIdx, .refl _, (List.zipIdx_map_fst ..).symm, ?_⟩
    rw [hlast]
    exact hnumbered.imp .decided
  have hrows : t.rows = ((t.sortAll sorts).sortByColumn column s).rows := by
    rw [← Table.sortAll_concat t sorts (column, s)]
    exact (orderedBy_sortAll_iff t _).1 hordered
  have htitles : ((t.sortAll sorts).sortByColumn column s).titles = t.titles := by
    rw [Table.titles_sortByColumn, Table.titles_sortAll]
  exact congrArg₂ Table.mk htitles hrows.symm

/-! ## The column of row numbers -/

variable {ctx : Context} {requests : List ColumnRequest} {request : ColumnRequest} {column : Nat}

theorem lookup?_index : eventCatalog.lookup? "index" =
    some (Columns.column "index" (Columns.fixedTitle "col.index" "#") fun row ctx argument _ =>
      Columns.indexCell row ctx argument) := rfl

theorem sortValueAt_index (hq : requests[column]? = some request) (hk : request.key = "index")
    {row : Nat} (hrow : row < 2 ^ 53) (e : Event) :
    sortValueAt column (assembleRow eventCatalog ctx requests row e) =
      .number (Float.ofNat row) := by
  have hcell : resolveCell eventCatalog ctx row e request =
      Columns.indexCell row ctx request.argument := by
    rw [resolveCell, hk, lookup?_index]
    rfl
  rw [sortValueAt, getElem?_assembleRow, hq, Option.map_some, hcell]
  refine SortValue.ofCell_of_sortKey ?_ (isNaN_ofNat hrow)
  rw [Cell.sortKey_withFiller, Columns.sortKey_indexCell]

theorem pairwise_before_index (hq : requests[column]? = some request)
    (hk : request.key = "index") {events : List Event} (hlen : events.length < 2 ^ 53)
    (nulls : NullsPlacement) :
    (assembleEvents ctx requests events).rows.Pairwise fun a b =>
      SortSpec.Before { nulls } (sortValueAt column a) (sortValueAt column b) := by
  rw [assembleEvents, rows_assemble, List.pairwise_map]
  refine (pairwise_snd_zipIdx events).imp_of_mem fun {p p'} hp hp' hlt => ?_
  have hi : p'.2 < 2 ^ 53 := Nat.lt_trans (List.snd_lt_of_mem_zipIdx hp') (by simpa using hlen)
  rw [sortValueAt_index hq hk (Nat.lt_trans hlt hi), sortValueAt_index hq hk hi]
  exact .ascending rfl (.numbers (orderKey_ofNat_lt hlt hi))

/-- **Sorting by the row number undoes all sorts.**  Whatever sorts a table of
    fewer than `2 ^ 53` events went through, an ascending sort by a column
    `index` gives back the table as it was assembled. -/
theorem sorting_by_index_undoes_all_sorts (ctx : Context) {requests : List ColumnRequest}
    {request : ColumnRequest} {column : Nat} (hq : requests[column]? = some request)
    (hk : request.key = "index") {events : List Event} (hlen : events.length < 2 ^ 53)
    (sorts : List (Nat × SortSpec)) (nulls : NullsPlacement) :
    ((assembleEvents ctx requests events).sortAll sorts).sortByColumn column
      { descending := false, nulls } = assembleEvents ctx requests events := by
  obtain ⟨hcount, -⟩ := List.getElem?_eq_some_iff.1 hq
  have hc : column < (assembleEvents ctx requests events).columnCount := by
    simpa [Table.columnCount, assembleEvents, assemble] using hcount
  exact Table.sortAll_sortByColumn_of_pairwise hc (pairwise_before_index hq hk hlen nulls) sorts

/-- Three speeds, sorted downward, then by a column that is not there, and by a
    text, and put back by their places counted from zero. -/
theorem sorted_speeds_are_put_back :
    let requests : List ColumnRequest :=
      [{ key := "speed" }, { key := "index", argument := "0" }, { key := "address" }]
    let events : List Event := [{ speedKph := 80.0, address := "Quay" }, {},
      { speedKph := 20.0, address := "Mole" }]
    let sorts : List (Nat × SortSpec) :=
      [(0, { descending := true }), (7, {}), (2, { nulls := .last })]
    requests[1]? = some { key := "index", argument := "0" } ∧ events.length < 2 ^ 53 ∧
      ((assembleEvents { now := 0 } requests events).sortAll sorts).sortByColumn 1
        { descending := false, nulls := .last } = assembleEvents { now := 0 } requests events := by
  intro requests events sorts
  exact ⟨rfl, by decide,
    sorting_by_index_undoes_all_sorts { now := 0 } rfl rfl (by decide) sorts .last⟩

end EventTable
