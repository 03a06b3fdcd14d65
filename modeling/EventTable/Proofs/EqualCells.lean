/-
  EventTable — what a sort does to equal cells.

  * `isNaN_and_eq_or_of_beq`: doubles that are equal as numbers are the same, or zeros of
    opposite signs;
  * `Cell.EqualTo` is equality of cells, with their keys equal as numbers, and
    `Cell.EqualTo.ofCell_eq_or`: equal cells have the same value to sort by, unless their
    keys are such zeros;
  * `EqualBefore` says how equal cells stand in a sorted table: in the order they had, but
    for such zeros, of which the negative one comes first, or last if descending;
  * `equal_cells_keep_their_order_but_for_zeros` says that they do, and
    `readings_about_zero_are_exchanged` is a table of equal cells that are exchanged.
-/
import EventTable.EventCatalog
import EventTable.Proofs.DecimalRounding
import EventTable.Proofs.Sorting

namespace EventTable

open Number

/-! ## Keys that are equal as numbers -/

namespace Number

open Float.Model (UnpackedFloat)
open Float.Model.UnpackedFloat (Sign)

/-- The one is the negative zero and the other the positive one. -/
def NegativeZeroFirst (x y : Float) : Prop := x = -0.0 ∧ y = 0.0

theorem pack_zero_positive : Float.ofModel (.pack (.zero .positive)) = 0.0 := by decide +kernel

theorem pack_zero_negative : Float.ofModel (.pack (.zero .negative)) = -0.0 := by decide +kernel

theorem eq_of_unpack_eq {x y : Float} (h : x.toModel.unpack = y.toModel.unpack) : x = y := by
  rw [eq_pack_unpack x, h, ← eq_pack_unpack]

theorem eq_of_unpack_zero {x : Float} {s : Sign} (h : x.toModel.unpack = .zero s) :
    x = .ofModel (.pack (.zero s)) := by
  rw [eq_pack_unpack x, h]

theorem eq_of_then_compare_eq {e e' : ℤ} {m m' : ℕ}
    (h : (compare e e').then (compare m m') = .eq) : e = e' ∧ m = m' := by
  rw [Ordering.then_eq_eq] at h
  exact ⟨Std.LawfulEqCmp.compare_eq_iff_eq.1 h.1, Std.LawfulEqCmp.compare_eq_iff_eq.1 h.2⟩

/-- What is equal as numbers, unpacked: only zeros can have different signs. -/
theorem isNaN_and_eq_or_of_compare_eq {u v : UnpackedFloat} (h : u.compare v = some .eq) :
    u.isNaN = false ∧ (u = v ∨ ∃ s s', u = .zero s ∧ v = .zero s') := by
  cases u with
  | notANumber => cases h
  | infinity s =>
    refine ⟨rfl, .inl ?_⟩
    cases v with
    | infinity s' =>
      have hsign : s = s' := by cases s <;> cases s' <;> first | rfl | cases h
      rw [hsign]
    | _ => cases s <;> cases h
  | zero s =>
    refine ⟨rfl, .inr ?_⟩
    cases v with
    | zero s' => exact ⟨s, s', rfl, rfl⟩
    | notANumber => cases h
    | infinity s' | finite s' => cases s' <;> cases h
  | finite s m e hpos =>
    refine ⟨rfl, .inl ?_⟩
    cases v with
    | finite s' m' e' hpos' =>
      have hsame : s = s' ∧ (compare e e').then (compare m m') = .eq := by
        cases s with
        | positive =>
          cases s' with
          | positive => exact ⟨rfl, Option.some.inj h⟩
          | negative => cases h
        | negative =>
          cases s' with
          | positive => cases h
          | negative => exact ⟨rfl, Ordering.swap_eq_eq.1 (Option.some.inj h)⟩
      obtain ⟨rfl, hthen⟩ := hsame
      obtain ⟨rfl, rfl⟩ := eq_of_then_compare_eq hthen
      rfl
    | notANumber => cases h
    | infinity s' => cases s' <;> cases h
    | zero => cases s <;> cases h

/-- **Doubles that are equal as numbers** are the same, or zeros of opposite signs. -/
theorem isNaN_and_eq_or_of_beq {x y : Float} (h : (x == y) = true) :
    x.isNaN = false ∧ (x = y ∨ NegativeZeroFirst x y ∨ NegativeZeroFirst y x) := by
  have hcompare : x.toModel.unpack.compare y.toModel.unpack = some .eq := beq_iff_eq.1 h
  obtain ⟨hnan, heq | ⟨s, s', hs, hs'⟩⟩ := isNaN_and_eq_or_of_compare_eq hcompare
  · exact ⟨hnan, .inl (eq_of_unpack_eq heq)⟩
  · refine ⟨hnan, ?_⟩
    rw [eq_of_unpack_zero hs, eq_of_unpack_zero hs', NegativeZeroFirst, NegativeZeroFirst]
    cases s <;> cases s' <;> simp [pack_zero_positive, pack_zero_negative]

theorem NegativeZeroFirst.orderKey_lt {x y : Float} (h : NegativeZeroFirst x y) :
    orderKey x < orderKey y := by
  rw [h.1, h.2]
  decide +kernel

theorem NegativeZeroFirst.isNaN_eq_false {x y : Float} (h : NegativeZeroFirst x y) :
    x.isNaN = false ∧ y.isNaN = false := by
  rw [h.1, h.2]
  decide +kernel

end Number

/-! ## Equal cells -/

/-- **Two cells are equal**: all that they hold is the same, but for their keys, which are
    equal as numbers. -/
structure Cell.EqualTo (c d : Cell) : Prop where
  text : c.text = d.text
  filler : c.filler = d.filler
  sortKey : Option.Rel (fun x y : Float => (x == y) = true) c.sortKey d.sortKey
  foreground : c.foreground = d.foreground
  background : c.background = d.background
  link : c.link = d.link
  image : c.image = d.image

/-- The keys of two cells are the negative zero and the positive one. -/
def Cell.ZeroBelow (c d : Cell) : Prop :=
  ∃ x y, c.sortKey = some x ∧ d.sortKey = some y ∧ NegativeZeroFirst x y

section
variable {c d : Cell}

theorem Cell.ZeroBelow.below (h : c.ZeroBelow d) :
    (SortValue.ofCell (some c)).Below (.ofCell (some d)) := by
  obtain ⟨x, y, hx, hy, hzero⟩ := h
  obtain ⟨hnan, hnan'⟩ := hzero.isNaN_eq_false
  rw [SortValue.ofCell_of_sortKey hx hnan, SortValue.ofCell_of_sortKey hy hnan']
  exact .numbers hzero.orderKey_lt

/-- Equal cells are sorted by the same value, unless their keys are opposite zeros. -/
theorem Cell.EqualTo.ofCell_eq_or (h : c.EqualTo d) :
    SortValue.ofCell (some c) = .ofCell (some d) ∨ c.ZeroBelow d ∨ d.ZeroBelow c := by
  have hkey := h.sortKey
  cases hc : c.sortKey with
  | none =>
    rw [hc] at hkey
    cases hd : d.sortKey with
    | some y => rw [hd] at hkey; cases hkey
    | none =>
      have hblank : c.isBlank = d.isBlank := by rw [isBlank, isBlank, h.text]
      have hvalue : c.value = d.value := by rw [value, value, h.text, h.filler]
      left
      simp only [SortValue.ofCell, hc, hd, hblank, hvalue]
  | some x =>
    rw [hc] at hkey
    cases hd : d.sortKey with
    | none => rw [hd] at hkey; cases hkey
    | some y =>
      rw [hd] at hkey
      cases hkey with
      | some hbeq =>
        obtain ⟨hnan, rfl | hzero | hzero⟩ := isNaN_and_eq_or_of_beq hbeq
        · left
          rw [SortValue.ofCell_of_sortKey hc hnan, SortValue.ofCell_of_sortKey hd hnan]
        · exact .inr (.inl ⟨x, y, hc, hd, hzero⟩)
        · exact .inr (.inr ⟨y, x, hd, hc, hzero⟩)

end

/-! ## Rows with equal cells -/

/-- Two rows have equal cells in a column, or both have none. -/
def EqualAt (column : ℕ) (a b : List Cell) : Prop := Option.Rel Cell.EqualTo a[column]? b[column]?

/-- The keys of two rows in a column are the negative zero and the positive one. -/
def ZeroBelowAt (column : ℕ) (a b : List Cell) : Prop :=
  ∃ c d, a[column]? = some c ∧ b[column]? = some d ∧ c.ZeroBelow d

/-- **How numbered rows with equal cells stand**, the one before the other: in the order of
    their numbers, but for opposite zeros. -/
inductive EqualBefore (s : SortSpec) (column : ℕ) (a b : List Cell × ℕ) : Prop
  | kept : ¬ ZeroBelowAt column a.1 b.1 → ¬ ZeroBelowAt column b.1 a.1 → a.2 < b.2 →
      EqualBefore s column a b
  | ascending : s.descending = false → ZeroBelowAt column a.1 b.1 → EqualBefore s column a b
  | descending : s.descending = true → ZeroBelowAt column b.1 a.1 → EqualBefore s column a b

theorem SortValue.not_below_self (v : SortValue) : ¬ v.Below v := by
  intro h
  cases h with
  | numbers h => exact Int.lt_irrefl _ h
  | texts h => exact String.lt_irrefl _ h

section
variable {s : SortSpec} {v w : SortValue}

theorem SortValue.Below.before_iff (h : v.Below w) : s.Before v w ↔ s.descending = false := by
  rw [SortSpec.before_iff_of_ne_null h.left_ne_null h.right_ne_null]
  cases s.descending with
  | false => exact iff_of_true h rfl
  | true => exact iff_of_false (fun h' => not_below_self v (h.trans h')) nofun

theorem SortValue.Below.before_swap_iff (h : v.Below w) :
    s.Before w v ↔ s.descending = true := by
  rw [SortSpec.before_iff_of_ne_null h.right_ne_null h.left_ne_null]
  cases s.descending with
  | false => exact iff_of_false (fun h' => not_below_self v (h.trans h')) nofun
  | true => exact iff_of_true h rfl

end

section
variable {s : SortSpec} {column : ℕ} {a b : List Cell × ℕ}

theorem ZeroBelowAt.below {a b : List Cell} (h : ZeroBelowAt column a b) :
    (sortValueAt column a).Below (sortValueAt column b) := by
  obtain ⟨c, d, hc, hd, hzero⟩ := h
  rw [sortValueAt, sortValueAt, hc, hd]
  exact hzero.below

theorem EqualAt.sortValueAt_eq_or {a b : List Cell} (h : EqualAt column a b) :
    sortValueAt column a = sortValueAt column b ∨ ZeroBelowAt column a b ∨
      ZeroBelowAt column b a := by
  rw [EqualAt] at h
  rw [sortValueAt, sortValueAt]
  cases ha : a[column]? with
  | none =>
    rw [ha] at h
    cases hb : b[column]? with
    | none => exact .inl rfl
    | some d => rw [hb] at h; cases h
  | some c =>
    rw [ha] at h
    cases hb : b[column]? with
    | none => rw [hb] at h; cases h
    | some d =>
      rw [hb] at h
      cases h with
      | some h =>
        exact h.ofCell_eq_or.imp_right (Or.imp (fun hz => ⟨c, d, ha, hb, hz⟩)
          fun hz => ⟨d, c, hb, ha, hz⟩)

/-- What a sort does to one pair of rows. -/
theorem EqualAt.equalBefore (h : EqualAt column a.1 b.1)
    (hsorted : s.Before (sortValueAt column a.1) (sortValueAt column b.1) ∨
      sortValueAt column a.1 = sortValueAt column b.1 ∧ a.2 < b.2) :
    EqualBefore s column a b := by
  rcases h.sortValueAt_eq_or with heq | hzero | hzero
  · -- the values tie, so the numbers decide
    obtain hbefore | ⟨-, hlt⟩ := hsorted
    · exact absurd (heq ▸ hbefore) SortSpec.not_before_self
    · exact .kept (fun hz => SortValue.not_below_self _ (heq ▸ hz.below))
        (fun hz => SortValue.not_below_self _ (heq ▸ hz.below)) hlt
  · obtain hbefore | ⟨heq, -⟩ := hsorted
    · exact .ascending (hzero.below.before_iff.1 hbefore) hzero
    · exact absurd (heq ▸ hzero.below) (SortValue.not_below_self _)
  · obtain hbefore | ⟨heq, -⟩ := hsorted
    · exact .descending (hzero.below.before_swap_iff.1 hbefore) hzero
    · exact absurd (heq ▸ hzero.below) (SortValue.not_below_self _)

end

/-- **Equal cells keep their order, but for zeros.**  In a sorted table, rows with equal cells
    in the column stand in the order they had, unless the keys of those cells are zeros of
    opposite signs: then the negative one comes first, or last if the sort is descending,
    wherever they stood.  A column out of range changes nothing. -/
theorem equal_cells_keep_their_order_but_for_zeros (t : Table) (column : ℕ) (s : SortSpec) :
    (t.columnCount ≤ column → t.sortByColumn column s = t) ∧
    (column < t.columnCount → ∃ numbered : List (List Cell × ℕ),
      numbered.Perm t.rows.zipIdx ∧ (t.sortByColumn column s).rows = numbered.map Prod.fst ∧
      numbered.Pairwise fun a b => EqualAt column a.1 b.1 → EqualBefore s column a b) := by
  refine ⟨Table.sortByColumn_of_le s, fun h => ?_⟩
  obtain ⟨numbered, hperm, hrows, horder⟩ := (Table.sortedBy_sortByColumn s h).order
  exact ⟨numbered, hperm, hrows, horder.imp fun hsorted heq => heq.equalBefore hsorted⟩

/-- Equal texts, missing cells, and zeros of both signs. -/
theorem zeros_stand_by_their_signs :
    let zero : Cell := (Cell.ofText "0").withSortKey 0.0
    let negative : Cell := (Cell.ofText "0").withSortKey (-0.0)
    let t : Table := ⟨["key"], [[zero], [.ofText "a"], [], [negative], [.ofText "a"], [zero], []]⟩
    let s : SortSpec := { descending := true, nulls := .last }
    EqualAt 0 [zero] [negative] ∧ t.columnCount ≤ 1 ∧ t.sortByColumn 1 s = t ∧
      0 < t.columnCount ∧ ∃ numbered : List (List Cell × ℕ), numbered.Perm t.rows.zipIdx ∧
        (t.sortByColumn 0 s).rows = numbered.map Prod.fst ∧
        numbered.Pairwise fun a b => EqualAt 0 a.1 b.1 → EqualBefore s 0 a b := by
  intro zero negative t s
  obtain ⟨houtside, -⟩ := equal_cells_keep_their_order_but_for_zeros t 1 s
  obtain ⟨-, hinside⟩ := equal_cells_keep_their_order_but_for_zeros t 0 s
  exact ⟨.some ⟨rfl, rfl, .some (by decide +kernel), rfl, rfl, rfl, rfl⟩, by decide,
    houtside (by decide), by decide, hinside (by decide)⟩

theorem mergeSort_pair_of_eq_false {α : Type} {le : α → α → Bool} {a b : α}
    (h : le a b = false) : [a, b].mergeSort le = [b, a] := by
  simp [List.mergeSort, h]

/-- Two readings about zero are shown alike, and their cells are equal, but the sort puts the
    later one first. -/
theorem readings_about_zero_are_exchanged :
    let requests : List ColumnRequest := [{ key := "ambientTemp" }, { key := "index" }]
    let events : List Event := [{ ambientTempC := some 0.001 }, { ambientTempC := some (-0.001) }]
    let table := assembleEvents { now := 0 } requests events
    ∃ a b, table.rows = [a, b] ∧ a.map Cell.value = ["0.0°C", "1"] ∧
      b.map Cell.value = ["0.0°C", "2"] ∧ EqualAt 0 a b ∧
      (table.sortByColumn 0 {}).rows = [b, a] := by
  intro requests events table
  let cell : String → Float → Cell := fun text key =>
    ((Cell.ofText text).withSortKey key).withFiller Cell.defaultFiller
  let a : List Cell := [cell "0.0°C" 0.0, cell "1" 0.0]
  let b : List Cell := [cell "0.0°C" (-0.0), cell "2" 1.0]
  have hrows : table.rows = [a, b] := by decide +kernel
  have hle : (SortSpec.compareRows {} 0 a b).isLE = false := by decide +kernel
  refine ⟨a, b, hrows, by decide, by decide, ?_, ?_⟩
  · exact .some ⟨rfl, rfl, .some (by decide +kernel), rfl, rfl, rfl, rfl⟩
  · rw [Table.sortByColumn_of_lt {} (by decide), hrows]
    exact mergeSort_pair_of_eq_false hle

end EventTable
