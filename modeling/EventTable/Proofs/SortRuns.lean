/-
  EventTable — sorts that follow one another.

  * `Precedes` is the order of several sorts over numbered rows: the first sort
    decides unless the rows tie in its column, and the numbers decide if they
    tie in all of them;
  * `OrderedBy` is what rows must be that are ordered so, and
    `OrderedBy.unique`: there is one way only;
  * `OrderedBy.sortByColumn`: a sort goes in front of those that came before,
    and `orderedBy_sortAll_iff`: so a run of sorts counts from its end, without
    the sorts by a column that is not there;
  * `sortByColumn_sortByColumn_self`: a sort that is repeated changes nothing;
  * `successive_sorts_order_lexicographically` puts these together for two
    sorts.
-/
import EventTable.Proofs.Sorting

namespace EventTable

/-! ## The order of several sorts -/

/-- **The order of several sorts**, the first one that does not tie. -/
inductive Precedes : List (Nat × SortSpec) → List Cell × Nat → List Cell × Nat → Prop
  | numbered {a b} : a.2 < b.2 → Precedes [] a b
  | decided {column s sorts a b} :
      s.Before (sortValueAt column a.1) (sortValueAt column b.1) →
      Precedes ((column, s) :: sorts) a b
  | tied {column s sorts a b} : sortValueAt column a.1 = sortValueAt column b.1 →
      Precedes sorts a b → Precedes ((column, s) :: sorts) a b

variable {sorts : List (Nat × SortSpec)} {rows sorted : List (List Cell)}

theorem Precedes.asymm {a b : List Cell × Nat} (h : Precedes sorts a b) :
    ¬ Precedes sorts b a := by
  intro h'
  induction h with
  | numbered h =>
    cases h' with
    | numbered h' => exact Nat.lt_asymm h h'
  | decided h =>
    cases h' with
    | decided h' => exact h.asymm h'
    | tied htie _ => exact SortSpec.not_before_self (htie ▸ h)
  | tied htie _ ih =>
    cases h' with
    | decided h' => exact SortSpec.not_before_self (htie ▸ h')
    | tied _ h' => exact ih h'

/-- **Rows ordered by several sorts**: the rows of before with the numbers that
    they had, in the order of the sorts. -/
def OrderedBy (sorts : List (Nat × SortSpec)) (rows sorted : List (List Cell)) : Prop :=
  ∃ numbered : List (List Cell × Nat), numbered.Perm rows.zipIdx ∧
    sorted = numbered.map Prod.fst ∧ numbered.Pairwise (Precedes sorts)

/-- Without a sort the rows stand as they stood. -/
theorem orderedBy_nil (rows : List (List Cell)) : OrderedBy [] rows rows :=
  ⟨rows.zipIdx, .refl _, (List.zipIdx_map_fst ..).symm, (pairwise_snd_zipIdx rows).imp .numbered⟩

theorem OrderedBy.unique {sorted' : List (List Cell)} (h : OrderedBy sorts rows sorted)
    (h' : OrderedBy sorts rows sorted') : sorted = sorted' := by
  obtain ⟨numbered, hperm, rfl, horder⟩ := h
  obtain ⟨numbered', hperm', rfl, horder'⟩ := h'
  have hsame : numbered = numbered' :=
    List.Perm.eq_of_pairwise (fun a b _ _ hab hba => absurd hba hab.asymm) horder horder'
      (hperm.trans hperm'.symm)
  rw [hsame]

/-! ## Sorting again -/

variable {t : Table}

/-- A sort goes in front of the sorts that came before it. -/
theorem OrderedBy.sortByColumn {column : Nat} (h : OrderedBy sorts rows t.rows) (s : SortSpec)
    (hc : column < t.columnCount) :
    OrderedBy ((column, s) :: sorts) rows (t.sortByColumn column s).rows := by
  obtain ⟨numbered, hperm, hrows, horder⟩ := h
  refine ⟨numbered.mergeSort fun a b => (s.compareRows column a.1 b.1).isLE,
    (List.mergeSort_perm ..).trans hperm, ?_, ?_⟩
  · rw [Table.sortByColumn_of_lt s hc, hrows,
      List.map_mergeSort (s := fun a b => (s.compareRows column a b).isLE) fun _ _ _ _ => rfl]
  · refine (pairwise_mergeSort_rows horder).imp ?_
    rintro a b (h | ⟨htie, h⟩)
    · exact .decided h
    · exact .tied htie h

/-- The sorts of a run that count: those by a column that is there, the last
    one first. -/
def decisiveSorts (t : Table) (sorts : List (Nat × SortSpec)) : List (Nat × SortSpec) :=
  (sorts.filter fun sort => sort.1 < t.columnCount).reverse

theorem OrderedBy.sortAll {done : List (Nat × SortSpec)} (h : OrderedBy done rows t.rows)
    (sorts : List (Nat × SortSpec)) :
    OrderedBy (decisiveSorts t sorts ++ done) rows (t.sortAll sorts).rows := by
  induction sorts generalizing t done with
  | nil => exact h
  | cons sort sorts ih =>
    obtain ⟨column, s⟩ := sort
    rw [Table.sortAll_cons]
    by_cases hc : column < t.columnCount
    · have hcount : (t.sortByColumn column s).columnCount = t.columnCount := by
        simp [Table.columnCount]
      simpa [decisiveSorts, hc, hcount] using ih (h.sortByColumn s hc)
    · rw [Table.sortByColumn_of_le s (Nat.not_lt.1 hc)]
      simpa [decisiveSorts, hc] using ih h

/-- **A run of sorts** orders the rows by its last sort, then by the one before
    it, and so on, and at last by their numbers. -/
theorem orderedBy_sortAll_iff (t : Table) (sorts : List (Nat × SortSpec)) :
    OrderedBy (decisiveSorts t sorts) t.rows sorted ↔ sorted = (t.sortAll sorts).rows := by
  have hrun := (orderedBy_nil t.rows).sortAll sorts
  rw [List.append_nil] at hrun
  constructor
  · exact fun h => h.unique hrun
  · rintro rfl
    exact hrun

theorem sortByColumn_sortByColumn_self (t : Table) (column : Nat) (s : SortSpec) :
    (t.sortByColumn column s).sortByColumn column s = t.sortByColumn column s := by
  by_cases hc : column < t.columnCount
  · have hsorted : (t.sortByColumn column s).rows.Pairwise fun a b =>
        (s.compareRows column a b).isLE := by
      rw [Table.sortByColumn_of_lt s hc]
      exact List.pairwise_mergeSort SortSpec.isLE_compareRows_trans
        SortSpec.isLE_compareRows_total _
    have hc' : column < (t.sortByColumn column s).columnCount := by
      simpa [Table.columnCount] using hc
    rw [Table.sortByColumn_of_lt s hc', List.mergeSort_of_pairwise hsorted]
  · rw [Table.sortByColumn_of_le s (Nat.not_lt.1 hc), Table.sortByColumn_of_le s (Nat.not_lt.1 hc)]

/-- **Successive sorts compose.**  After a sort by one column and then by another,
    the rows stand in the one lexicographic order of the two: by the later sort,
    by the earlier one where that ties, and by where they stood before where
    both tie.  A sort that is repeated changes nothing. -/
theorem successive_sorts_order_lexicographically (t : Table) :
    (∀ later earlier s u, later < t.columnCount → earlier < t.columnCount →
      ((t.sortByColumn earlier u).sortByColumn later s).titles = t.titles ∧
      ∀ sorted, OrderedBy [(later, s), (earlier, u)] t.rows sorted ↔
        sorted = ((t.sortByColumn earlier u).sortByColumn later s).rows) ∧
    ∀ column s, (t.sortByColumn column s).sortByColumn column s = t.sortByColumn column s := by
  refine ⟨fun later earlier s u hl he => ⟨by simp, fun sorted => ?_⟩,
    sortByColumn_sortByColumn_self t⟩
  have hdecisive : decisiveSorts t [(earlier, u), (later, s)] = [(later, s), (earlier, u)] := by
    simp [decisiveSorts, hl, he]
  rw [← hdecisive]
  exact orderedBy_sortAll_iff t _

/-- Rows of different lengths, by a text downward and then, where that ties, by a
    number with the missing ones behind. -/
theorem ragged_rows_sorted_twice :
    let t : Table := ⟨["kind", "size"], [[.ofText "van"], [],
      [.ofText "van", (Cell.ofText "2").withSortKey 2.0], [.ofText "car", .blank],
      [.ofText "van", (Cell.ofText "1").withSortKey 1.0]]⟩
    let kind : SortSpec := { descending := true }
    let size : SortSpec := { nulls := .last }
    0 < t.columnCount ∧ 1 < t.columnCount ∧
      OrderedBy [(0, kind), (1, size)] t.rows ((t.sortByColumn 1 size).sortByColumn 0 kind).rows := by
  intro t kind size
  obtain ⟨hordered, -⟩ := successive_sorts_order_lexicographically t
  obtain ⟨-, hiff⟩ := hordered 0 1 kind size (by decide) (by decide)
  exact ⟨by decide, by decide, (hiff _).2 rfl⟩

end EventTable
