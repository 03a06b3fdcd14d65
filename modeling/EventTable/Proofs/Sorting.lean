/-
  EventTable — what sorting a table does to its rows.

  * `pairwise_mergeSort_of_pairwise` and `pairwise_mergeSort_of_transCmp`: a stable
    sort keeps among ties whatever relation held along the list before;
  * `pairwise_mergeSort_values` and `place_filter_isNull` say what that makes of
    anything that is sorted by a value;
  * `SortedBy` is what sorted rows must be: the rows as they were numbered
    before, in the order of the sort and, among ties, of their numbers, with
    the nulls in one block at the chosen end;
  * `sortedBy_sortByColumn`: a table is sorted so;
  * `Table.sortAll` sorts by one column after the other, and
    `exists_parallel_sortAll`: it moves the rows of two tables alike if what
    they are sorted by is the same.
-/
import EventTable.Proofs.SortOrder

namespace EventTable

/-! ## Stable sorting of lists -/

section
variable {α : Type} {R : α → α → Prop}

theorem pairwise_mergeSort_of_pairwise {le : α → α → Bool}
    (trans : ∀ a b c, le a b → le b c → le a c) (total : ∀ a b, le a b || le b a) {l : List α}
    (h : l.Pairwise R) : (l.mergeSort le).Pairwise fun a b => le a b ∧ (le b a → R a b) := by
  induction l with
  | nil => simp
  | cons x l ih =>
    obtain ⟨hx, hl⟩ := List.pairwise_cons.1 h
    -- the head lands behind the elements that come strictly before it
    obtain ⟨before, after, hs, hs', hb⟩ := List.mergeSort_cons trans total x l
    have hsorted := List.pairwise_mergeSort trans total (x :: l)
    have hmem : ∀ a ∈ after, a ∈ l := fun a ha =>
      List.mem_mergeSort.1 (hs' ▸ List.mem_append_right before ha)
    rw [hs] at hsorted ⊢
    have ih := ih hl
    rw [hs'] at ih
    obtain ⟨ihb, iha, hba⟩ := List.pairwise_append.1 ih
    obtain ⟨-, hsa, hsb⟩ := List.pairwise_append.1 hsorted
    refine List.pairwise_append.2 ⟨ihb, List.pairwise_cons.2 ⟨fun a ha => ?_, iha⟩, ?_⟩
    · exact ⟨(List.pairwise_cons.1 hsa).1 a ha, fun _ => hx a (hmem a ha)⟩
    · intro b hbm a ha
      rcases List.mem_cons.1 ha with rfl | ha
      · have hn : le a b = false := by simpa using hb b hbm
        exact ⟨hsb b hbm a List.mem_cons_self, fun h => by simp [hn] at h⟩
      · exact hba b hbm a ha

/-- Sorted by a comparison, a list stands in its order and, where it ties, in the order that
    the list had. -/
theorem pairwise_mergeSort_of_transCmp {ι : Type} {cmp : α → α → Ordering} [Std.TransCmp cmp]
    {R : ι → ι → Prop} {f : ι → α} {l : List ι} (h : l.Pairwise R) :
    (l.mergeSort fun i j => (cmp (f i) (f j)).isLE).Pairwise fun i j =>
      cmp (f i) (f j) = .lt ∨ cmp (f i) (f j) = .eq ∧ R i j := by
  refine (pairwise_mergeSort_of_pairwise (fun _ _ _ => Std.TransCmp.isLE_trans)
    (fun i j => isLE_or_isLE (f i) (f j)) h).imp ?_
  rintro i j ⟨hle, htie⟩
  rcases Ordering.isLE_iff_eq_lt_or_eq_eq.1 hle with hlt | heq
  · exact .inl hlt
  · exact .inr ⟨heq, htie (by rw [Std.OrientedCmp.eq_symm heq]; rfl)⟩

theorem mergeSort_congr {le le' : α → α → Bool} {l : List α}
    (h : ∀ a ∈ l, ∀ b ∈ l, le a b = le' a b) : l.mergeSort le = l.mergeSort le' := by
  simpa using List.map_mergeSort (f := id) h

/-- If nothing in `p` stands behind something outside, `p` is a block in front. -/
theorem eq_filter_append_filter {p : α → Bool} {l : List α} (h : l.Pairwise R)
    (hp : ∀ a b, R a b → p b → p a) : l = l.filter p ++ l.filter (!p ·) := by
  induction l with
  | nil => rfl
  | cons x l ih =>
    obtain ⟨hx, hl⟩ := List.pairwise_cons.1 h
    by_cases hpx : p x
    · simpa [hpx] using ih hl
    · have hall : ∀ a ∈ l, p a = false := fun a ha =>
        Bool.eq_false_iff.2 fun hpa => hpx (hp x a (hx a ha) hpa)
      have hin : l.filter p = [] := List.filter_eq_nil_iff.2 fun a ha => by simp [hall a ha]
      have hout : l.filter (!p ·) = l := List.filter_eq_self.2 fun a ha => by simp [hall a ha]
      simp [hpx, hin, hout]

end

/-! ## Rows sorted by a column -/

/-- A cell with nothing to sort by: a missing one, or a blank one without a key
    that is a number. -/
def isNullCell : Option Cell → Bool
  | none => true
  | some c => c.isBlank && c.sortKey.all Float.isNaN

theorem SortValue.ofCell_of_sortKey {c : Cell} {x : Float} (h : c.sortKey = some x)
    (hx : x.isNaN = false) : SortValue.ofCell (some c) = .number x := by
  rw [SortValue.ofCell, h, Option.filter_some, hx]
  rfl

/-- A key that is no number does not count. -/
theorem SortValue.ofCell_of_isNaN {c : Cell} (h : ∀ key ∈ c.sortKey, key.isNaN = true) :
    SortValue.ofCell (some c) = if c.isBlank then .null else .text c.value := by
  rw [SortValue.ofCell]
  cases hkey : c.sortKey with
  | none => rfl
  | some key =>
    rw [Option.filter_some, h key hkey]
    rfl

theorem isNull_ofCell (c : Option Cell) : (SortValue.ofCell c).isNull = isNullCell c := by
  cases c with
  | none => rfl
  | some c =>
    rw [SortValue.ofCell, isNullCell]
    cases c.sortKey with
    | none => cases c.isBlank <;> rfl
    | some key =>
      rw [Option.filter_some, Option.all_some]
      cases key.isNaN with
      | true => cases c.isBlank <;> rfl
      | false => cases c.isBlank <;> rfl

/-- Places the nulls of a sort. -/
def SortSpec.place {α : Type} (s : SortSpec) (nulls others : List α) : List α :=
  match s.nulls with
  | .first => nulls ++ others
  | .last => others ++ nulls

/-- **Rows sorted by a column.** -/
structure SortedBy (s : SortSpec) (column : Nat) (rows sorted : List (List Cell)) : Prop where
  /-- The rows with nothing to sort by stand together at the chosen end. -/
  nulls : sorted = s.place (sorted.filter fun row => isNullCell row[column]?)
    (sorted.filter fun row => !isNullCell row[column]?)
  /-- The rows are those of before, with their numbers: in the order of the sort,
      and in the order of before where they tie. -/
  order : ∃ numbered : List (List Cell × Nat), numbered.Perm rows.zipIdx ∧
    sorted = numbered.map Prod.fst ∧ numbered.Pairwise fun a b =>
      s.Before (sortValueAt column a.1) (sortValueAt column b.1) ∨
        sortValueAt column a.1 = sortValueAt column b.1 ∧ a.2 < b.2

theorem pairwise_snd_zipIdx {α : Type} (l : List α) :
    l.zipIdx.Pairwise fun a b => a.2 < b.2 := by
  have h : (l.zipIdx.map Prod.snd).Pairwise (· < ·) := by
    rw [List.zipIdx_map_snd]
    exact List.pairwise_lt_range'
  exact List.pairwise_map.1 h

variable {s : SortSpec} {column : Nat}

section
variable {ι : Type} {f : ι → SortValue} {l : List ι}

/-- What is in the order of a sort has its nulls in one block at the chosen end. -/
theorem place_filter_isNull (h : l.Pairwise fun i j => (s.compare (f i) (f j)).isLE) :
    l = s.place (l.filter fun i => (f i).isNull) (l.filter fun i => !(f i).isNull) := by
  rw [SortSpec.place]
  cases hs : s.nulls with
  | first =>
    refine eq_filter_append_filter h fun i j hij hj => ?_
    rw [SortValue.isNull_iff] at hj ⊢
    rcases SortSpec.isLE_compare_iff.1 hij with hij | hij
    · rw [hj, SortSpec.before_null_right_iff, hs] at hij
      exact absurd hij.1 nofun
    · exact hij.trans hj
  | last =>
    have h := eq_filter_append_filter (p := fun i => !(f i).isNull) h fun i j hij hj => ?_
    · simpa using h
    · rw [Bool.not_eq_true', SortValue.isNull_eq_false_iff] at hj ⊢
      rcases SortSpec.isLE_compare_iff.1 hij with hij | hij
      · intro hi
        rw [hi, SortSpec.before_null_left_iff, hs] at hij
        exact absurd hij.1 nofun
      · exact hij ▸ hj

/-- Whatever has values is sorted in the order of the sort and, among ties, in the
    order it had. -/
theorem pairwise_mergeSort_values {R : ι → ι → Prop} (h : l.Pairwise R) :
    (l.mergeSort fun i j => (s.compare (f i) (f j)).isLE).Pairwise fun i j =>
      s.Before (f i) (f j) ∨ f i = f j ∧ R i j := by
  refine (pairwise_mergeSort_of_transCmp h).imp ?_
  rintro i j (hlt | ⟨heq, hij⟩)
  · exact .inl (SortSpec.compare_eq_lt_iff.1 hlt)
  · exact .inr ⟨SortSpec.compare_eq_eq_iff.1 heq, hij⟩

end

theorem place_filter_eq {sorted : List (List Cell)}
    (h : sorted.Pairwise fun a b => (s.compareRows column a b).isLE) :
    sorted = s.place (sorted.filter fun row => isNullCell row[column]?)
      (sorted.filter fun row => !isNullCell row[column]?) := by
  simp only [← isNull_ofCell]
  exact place_filter_isNull h

/-- Rows are sorted by their values. -/
theorem pairwise_mergeSort_rows {ι : Type} {R : ι → ι → Prop} {f : ι → List Cell} {l : List ι}
    (h : l.Pairwise R) :
    (l.mergeSort fun i j => (s.compareRows column (f i) (f j)).isLE).Pairwise fun i j =>
      s.Before (sortValueAt column (f i)) (sortValueAt column (f j)) ∨
        sortValueAt column (f i) = sortValueAt column (f j) ∧ R i j :=
  pairwise_mergeSort_values h

theorem sortedBy_mergeSort (s : SortSpec) (column : Nat) (rows : List (List Cell)) :
    SortedBy s column rows (rows.mergeSort fun a b => (s.compareRows column a b).isLE) where
  nulls := place_filter_eq (List.pairwise_mergeSort SortSpec.isLE_compareRows_trans
    SortSpec.isLE_compareRows_total _)
  order := by
    refine ⟨rows.zipIdx.mergeSort fun a b => (s.compareRows column a.1 b.1).isLE,
      List.mergeSort_perm .., ?_, ?_⟩
    · rw [List.map_mergeSort (s := fun a b => (s.compareRows column a b).isLE) fun _ _ _ _ => rfl,
        List.zipIdx_map_fst]
    · exact pairwise_mergeSort_rows (pairwise_snd_zipIdx rows)

/-! ## Sorting a table -/

namespace Table

theorem sortByColumn_of_lt {t : Table} {column : Nat} (s : SortSpec)
    (h : column < t.columnCount) : t.sortByColumn column s =
      { t with rows := t.rows.mergeSort fun a b => (s.compareRows column a b).isLE } :=
  if_pos h

theorem sortByColumn_of_le {t : Table} {column : Nat} (s : SortSpec)
    (h : t.columnCount ≤ column) : t.sortByColumn column s = t :=
  if_neg (Nat.not_lt.2 h)

@[simp] theorem titles_sortByColumn (t : Table) (column : Nat) (s : SortSpec) :
    (t.sortByColumn column s).titles = t.titles := by
  unfold sortByColumn
  split <;> rfl

theorem rows_sortByColumn_perm (t : Table) (column : Nat) (s : SortSpec) :
    (t.sortByColumn column s).rows.Perm t.rows := by
  unfold sortByColumn
  split
  · exact List.mergeSort_perm ..
  · exact .refl _

theorem sortedBy_sortByColumn {t : Table} {column : Nat} (s : SortSpec)
    (h : column < t.columnCount) : SortedBy s column t.rows (t.sortByColumn column s).rows := by
  rw [sortByColumn_of_lt s h]
  exact sortedBy_mergeSort ..

/-- **A sort rearranges whole rows, stably.**  The titles stay and the rows are
    permuted; a column out of range changes nothing; and by any other column the
    rows stand in the order of the sort, nulls together at the chosen end, and
    rows that tie in the order they had. -/
theorem sortByColumn_sorts_stably (t : Table) (column : Nat) (s : SortSpec) :
    (t.sortByColumn column s).titles = t.titles ∧
      (t.sortByColumn column s).rows.Perm t.rows ∧
      (t.columnCount ≤ column → t.sortByColumn column s = t) ∧
      (column < t.columnCount → SortedBy s column t.rows (t.sortByColumn column s).rows) :=
  ⟨titles_sortByColumn .., rows_sortByColumn_perm .., sortByColumn_of_le s,
    sortedBy_sortByColumn s⟩

/-- Rows of different lengths, sorted downward with the nulls behind. -/
theorem sortByColumn_sorts_ragged_rows :
    let t : Table := ⟨["key"], [[], [.ofText "b"], [(Cell.ofText "2").withSortKey 2.0],
      [.ofText " "], [(Cell.ofText "1").withSortKey 1.0, .blank]]⟩
    let s : SortSpec := { descending := true, nulls := .last }
    t.columnCount ≤ 1 ∧ t.sortByColumn 1 s = t ∧
      0 < t.columnCount ∧ SortedBy s 0 t.rows (t.sortByColumn 0 s).rows := by
  intro t s
  obtain ⟨-, -, houtside, -⟩ := sortByColumn_sorts_stably t 1 s
  obtain ⟨-, -, -, hinside⟩ := sortByColumn_sorts_stably t 0 s
  exact ⟨by decide, houtside (by decide), by decide, hinside (by decide)⟩

/-! ## One sort after the other -/

/-- Sorts by one column after the other. -/
def sortAll (t : Table) (sorts : List (Nat × SortSpec)) : Table :=
  sorts.foldl (fun t sort => t.sortByColumn sort.1 sort.2) t

@[simp] theorem sortAll_nil (t : Table) : t.sortAll [] = t := rfl

@[simp] theorem sortAll_cons (t : Table) (sort : Nat × SortSpec) (sorts : List (Nat × SortSpec)) :
    t.sortAll (sort :: sorts) = (t.sortByColumn sort.1 sort.2).sortAll sorts := rfl

theorem titles_sortAll (t : Table) (sorts : List (Nat × SortSpec)) :
    (t.sortAll sorts).titles = t.titles := by
  induction sorts generalizing t with
  | nil => rfl
  | cons sort sorts ih => rw [sortAll_cons, ih, titles_sortByColumn]

theorem rows_sortAll_perm (t : Table) (sorts : List (Nat × SortSpec)) :
    (t.sortAll sorts).rows.Perm t.rows := by
  induction sorts generalizing t with
  | nil => exact .refl _
  | cons sort sorts ih => exact (ih _).trans (rows_sortByColumn_perm ..)

/-- Rows made of a list are sorted as that list. -/
theorem sortByColumn_map {ι : Type} (f : ι → List Cell) (titles : List String) (l : List ι)
    (column : Nat) (s : SortSpec) :
    (⟨titles, l.map f⟩ : Table).sortByColumn column s = ⟨titles,
      (if column < titles.length then
        l.mergeSort fun i j => (s.compareRows column (f i) (f j)).isLE else l).map f⟩ := by
  by_cases h : column < titles.length
  · rw [sortByColumn_of_lt s h, if_pos h,
      List.map_mergeSort (s := fun a b => (s.compareRows column a b).isLE) fun _ _ _ _ => rfl]
  · rw [sortByColumn_of_le s (Nat.not_lt.1 h), if_neg h]

/-- Two tables whose rows are sorted by the same values are sorted alike. -/
theorem exists_parallel_sortAll {ι : Type} {f g : ι → List Cell} {titles titles' : List String}
    (hlen : titles.length = titles'.length) {sorts : List (Nat × SortSpec)} {l : List ι}
    (h : ∀ sort ∈ sorts, sort.1 < titles.length → ∀ i ∈ l,
      sortValueAt sort.1 (f i) = sortValueAt sort.1 (g i)) :
    ∃ l' : List ι, l'.Perm l ∧ (sortAll ⟨titles, l.map f⟩ sorts).rows = l'.map f ∧
      (sortAll ⟨titles', l.map g⟩ sorts).rows = l'.map g := by
  induction sorts generalizing l with
  | nil => exact ⟨l, .refl _, rfl, rfl⟩
  | cons sort sorts ih =>
    obtain ⟨column, s⟩ := sort
    simp only [sortAll_cons, sortByColumn_map, ← hlen]
    have hrest : ∀ sort ∈ sorts, sort.1 < titles.length → ∀ i ∈ l,
        sortValueAt sort.1 (f i) = sortValueAt sort.1 (g i) :=
      fun sort hs => h sort (List.mem_cons_of_mem _ hs)
    split
    · -- both sorts compare the same values, so they move `l` alike
      have hsort : l.mergeSort (fun i j => (s.compareRows column (f i) (f j)).isLE) =
          l.mergeSort fun i j => (s.compareRows column (g i) (g j)).isLE := by
        refine mergeSort_congr fun i hi j hj => ?_
        have hfg := h (column, s) List.mem_cons_self ‹_›
        rw [SortSpec.compareRows_eq, SortSpec.compareRows_eq, hfg i hi, hfg j hj]
      rw [← hsort]
      obtain ⟨l', hp, hf, hg⟩ := ih (l := l.mergeSort _) fun sort hs hc i hi =>
        hrest sort hs hc i (List.mem_mergeSort.1 hi)
      exact ⟨l', hp.trans (List.mergeSort_perm ..), hf, hg⟩
    · exact ih hrest

end Table

end EventTable
