/-
  EventTable — why a sort has one result.

  * `TotalPreorder` is what a sort asks of its comparison, and `StablySorted` what it makes of
    a list; `stablySorted_iff`: a comparison of that kind leaves it no choice;
  * `SortedAs` says by which value a cell is sorted, kind by kind, and `sortedAs_iff`: every
    cell, or missing one, by one value;
  * `rows_are_totally_preordered`: rows are compared by the values of their cells, this is a
    total preorder, and so a sorted table does not depend on the way it is sorted.
-/
import EventTable.Proofs.Sorting

namespace EventTable

open Number

/-! ## What a sort asks for -/

/-- **A comparison that totally preorders** what it compares. -/
structure TotalPreorder {α : Type} (cmp : α → α → Ordering) : Prop where
  refl : ∀ a, cmp a a = .eq
  /-- Of two elements the one that comes first is the same in both orders of asking. -/
  swap : ∀ a b, cmp b a = (cmp a b).swap
  le_trans : ∀ a b c, (cmp a b).isLE → (cmp b c).isLE → (cmp a c).isLE
  /-- Each outcome is transitive. -/
  trans : ∀ o a b c, cmp a b = o → cmp b c = o → cmp a c = o

/-- **A list, stably sorted**: its elements with the numbers that they had, in the order of
    the comparison and, where that ties, in the order of their numbers. -/
def StablySorted {α : Type} (cmp : α → α → Ordering) (l sorted : List α) : Prop :=
  ∃ numbered : List (α × Nat), numbered.Perm l.zipIdx ∧ sorted = numbered.map Prod.fst ∧
    numbered.Pairwise fun a b => cmp a.1 b.1 = .lt ∨ cmp a.1 b.1 = .eq ∧ a.2 < b.2

section
variable {α : Type} {cmp : α → α → Ordering} [Std.TransCmp cmp] {l sorted : List α}

theorem totalPreorder_of_transCmp : TotalPreorder cmp where
  refl _ := Std.ReflCmp.compare_self
  swap _ _ := Std.OrientedCmp.eq_swap
  le_trans _ _ _ := Std.TransCmp.isLE_trans
  trans o _ _ _ h h' := by
    cases o with
    | lt => exact Std.TransCmp.lt_trans h h'
    | eq => exact Std.TransCmp.eq_trans h h'
    | gt => exact Std.TransCmp.gt_trans h h'

theorem stablySorted_mergeSort :
    StablySorted cmp l (l.mergeSort fun a b => (cmp a b).isLE) := by
  refine ⟨l.zipIdx.mergeSort fun a b => (cmp a.1 b.1).isLE, List.mergeSort_perm .., ?_,
    pairwise_mergeSort_of_transCmp (pairwise_snd_zipIdx l)⟩
  rw [List.map_mergeSort (s := fun a b => (cmp a b).isLE) fun _ _ _ _ => rfl,
    List.zipIdx_map_fst]

theorem StablySorted.unique {sorted' : List α} (h : StablySorted cmp l sorted)
    (h' : StablySorted cmp l sorted') : sorted = sorted' := by
  obtain ⟨numbered, hperm, rfl, horder⟩ := h
  obtain ⟨numbered', hperm', rfl, horder'⟩ := h'
  -- no two entries stand before each other
  have hsame : numbered = numbered' := by
    refine List.Perm.eq_of_pairwise (fun a b _ _ hab hba => ?_) horder horder'
      (hperm.trans hperm'.symm)
    rcases hab with hlt | ⟨heq, hlt⟩
    · have hgt := Std.OrientedCmp.gt_iff_lt.2 hlt
      simp [hgt] at hba
    · have heq' := Std.OrientedCmp.eq_symm heq
      simp [heq', Nat.lt_asymm hlt] at hba
  rw [hsame]

/-- **A comparison that totally preorders leaves a stable sort no choice.** -/
theorem stablySorted_iff :
    StablySorted cmp l sorted ↔ sorted = l.mergeSort fun a b => (cmp a b).isLE := by
  constructor
  · exact fun h => h.unique stablySorted_mergeSort
  · rintro rfl
    exact stablySorted_mergeSort

end

/-! ## What a cell is sorted by -/

/-- **The value that a cell is sorted by**: a key that is a number, whatever number it is, else
    the text that is shown, and nothing for a cell that is blank or missing. -/
inductive SortedAs : Option Cell → SortValue → Prop
  | missing : SortedAs none .null
  | blank {c} : c.isBlank = true → (∀ key ∈ c.sortKey, key.isNaN = true) →
      SortedAs (some c) .null
  | number {c key} : c.sortKey = some key → key.isNaN = false → SortedAs (some c) (.number key)
  | text {c} : c.isBlank = false → (∀ key ∈ c.sortKey, key.isNaN = true) →
      SortedAs (some c) (.text c.value)

/-- A cell has a key that counts, or none. -/
theorem exists_number_or_forall_isNaN (c : Cell) :
    (∃ key, c.sortKey = some key ∧ key.isNaN = false) ∨ ∀ key ∈ c.sortKey, key.isNaN = true := by
  cases c.sortKey with
  | none => exact .inr nofun
  | some key =>
    cases hnan : key.isNaN with
    | false => exact .inl ⟨key, rfl, hnan⟩
    | true =>
      right
      intro x hx
      rw [← Option.some.inj hx]
      exact hnan

theorem sortedAs_ofCell (c : Option Cell) : SortedAs c (.ofCell c) := by
  cases c with
  | none => exact .missing
  | some c =>
    rcases exists_number_or_forall_isNaN c with ⟨key, hkey, hnumber⟩ | hnan
    · rw [SortValue.ofCell_of_sortKey hkey hnumber]
      exact .number hkey hnumber
    · rw [SortValue.ofCell_of_isNaN hnan]
      cases hblank : c.isBlank with
      | true => exact .blank hblank hnan
      | false => exact .text hblank hnan

theorem SortedAs.eq_ofCell {c : Option Cell} {v : SortValue} (h : SortedAs c v) :
    v = .ofCell c := by
  cases h with
  | missing => rfl
  | blank hblank hnan => rw [SortValue.ofCell_of_isNaN hnan, if_pos hblank]
  | number hkey hnumber => rw [SortValue.ofCell_of_sortKey hkey hnumber]
  | text hblank hnan =>
    rw [SortValue.ofCell_of_isNaN hnan, hblank, if_neg Bool.false_ne_true]

theorem sortedAs_iff {c : Option Cell} {v : SortValue} : SortedAs c v ↔ v = .ofCell c := by
  constructor
  · exact SortedAs.eq_ofCell
  · rintro rfl
    exact sortedAs_ofCell c

/-! ## Rows -/

/-- **Rows are totally preordered by a sort.**  Whatever cells they have in the column, or
    none, the comparison of rows is reflexive, asking the other way round reverses it, and it is
    transitive.  Each row has one value in the column, and rows are compared by these: the one
    comes first whose value comes first, and they tie if the values are equal.  So the rows of
    the sorted table are the only ones in that order that keep the order of rows that tie. -/
theorem rows_are_totally_preordered (s : SortSpec) (column : Nat) :
    TotalPreorder (s.compareRows column) ∧
    (∃ value : List Cell → SortValue, (∀ row v, SortedAs row[column]? v ↔ v = value row) ∧
      ∀ a b, (s.compareRows column a b = .lt ↔ s.Before (value a) (value b)) ∧
        (s.compareRows column a b = .eq ↔ value a = value b)) ∧
    ∀ t : Table, column < t.columnCount → ∀ sorted,
      StablySorted (s.compareRows column) t.rows sorted ↔
        sorted = (t.sortByColumn column s).rows := by
  refine ⟨totalPreorder_of_transCmp, ?_, fun t hcolumn sorted => ?_⟩
  · refine ⟨sortValueAt column, fun row v => sortedAs_iff, fun a b => ?_⟩
    rw [SortSpec.compareRows_eq]
    exact ⟨SortSpec.compare_eq_lt_iff, SortSpec.compare_eq_eq_iff⟩
  · rw [Table.sortByColumn_of_lt s hcolumn]
    exact stablySorted_iff

/-- Rows of all kinds, sorted downward with the nulls behind. -/
theorem mixed_rows_have_one_order :
    let key : String → Float → List Cell := fun text x => [(Cell.ofText text).withSortKey x]
    let rows : List (List Cell) := [[.blank], key "0" (-0.0), [], key "n/a" (0.0 / 0.0), key "0" 0.0,
      key "far" (1.0 / 0.0), [.ofText "b", .blank]]
    let t : Table := ⟨["key"], rows⟩
    let s : SortSpec := { descending := true, nulls := .last }
    let cmp : List Cell → List Cell → Ordering := s.compareRows 0
    cmp [.ofText "b", .blank] (key "n/a" (0.0 / 0.0)) = .gt ∧
      cmp (key "far" (1.0 / 0.0)) (key "0" 0.0) = .lt ∧ cmp (key "0" 0.0) (key "0" (-0.0)) = .lt ∧
      cmp (key "far" (1.0 / 0.0)) (key "0" (-0.0)) = .lt ∧ 0 < t.columnCount ∧
      StablySorted cmp t.rows (t.sortByColumn 0 s).rows := by
  intro key rows t s cmp
  obtain ⟨hpreorder, -, hsorted⟩ := rows_are_totally_preordered s 0
  have hfar : cmp (key "far" (1.0 / 0.0)) (key "0" 0.0) = .lt := by decide +kernel
  have hzeros : cmp (key "0" 0.0) (key "0" (-0.0)) = .lt := by decide +kernel
  exact ⟨by decide +kernel, hfar, hzeros, hpreorder.trans _ _ _ _ hfar hzeros, by decide,
    (hsorted t (by decide) _).2 rfl⟩

end EventTable
