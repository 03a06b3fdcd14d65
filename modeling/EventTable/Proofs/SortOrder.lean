/-
  EventTable — the order that rows are sorted by.

  * `SortValue.Below` is the ascending order: numbers along the line of doubles,
    then texts by code points;
  * `SortSpec.Before` is the order of a sort: the ascending one or its exact
    reverse, with nulls at the chosen end;
  * `SortSpec.compare_eq_lt_iff` and `SortSpec.compare_eq_eq_iff`: what is
    compared is that order, and only equal values tie; so the comparison is a
    linear order of values, and a total preorder of rows.
-/
import EventTable.Table

namespace EventTable

open Number

/-- Of two elements one is not behind the other. -/
theorem isLE_or_isLE {α : Type} {cmp : α → α → Ordering} [Std.OrientedCmp cmp] (a b : α) :
    (cmp a b).isLE || (cmp b a).isLE := by
  have hswap : cmp b a = (cmp a b).swap := Std.OrientedCmp.eq_swap
  rw [hswap]
  cases cmp a b <;> rfl

/-! ## Numbers -/

/-- Every double has its own place on the line. -/
theorem orderKey_injective {x y : Float} (h : orderKey x = orderKey y) : x = y := by
  have hx := x.toBits.toNat_lt
  have hy := y.toBits.toNat_lt
  have hbits : x.toBits.toNat = y.toBits.toNat := by
    simp only [orderKey, twoPow, show Nat.pow 2 63 = 9223372036854775808 from rfl] at h
    split at h <;> split at h <;> omega
  have hmodel : x.toModel.toBits = y.toModel.toBits := UInt64.toNat_inj.1 hbits
  cases x with
  | ofModel x =>
    cases y with
    | ofModel y =>
      cases x
      cases y
      cases hmodel
      rfl

theorem compareTotal_eq_lt_iff {x y : Float} :
    compareTotal x y = .lt ↔ orderKey x < orderKey y := by
  simp [compareTotal, Int.compare_eq_lt]

theorem compareTotal_eq_eq_iff {x y : Float} : compareTotal x y = .eq ↔ x = y := by
  rw [compareTotal, Std.LawfulEqCmp.compare_eq_iff_eq]
  exact ⟨orderKey_injective, congrArg orderKey⟩

theorem compareTotal_swap (x y : Float) : compareTotal y x = (compareTotal x y).swap := by
  rw [compareTotal, compareTotal]
  exact Std.OrientedCmp.eq_swap

/-! ## Values in ascending order -/

namespace SortValue

/-- **The ascending order**: numbers come before texts. -/
inductive Below : SortValue → SortValue → Prop
  | numbers {x y} : orderKey x < orderKey y → Below (number x) (number y)
  | mixed {x s} : Below (number x) (text s)
  | texts {s t} : s < t → Below (text s) (text t)

theorem Below.trans {a b c : SortValue} (h : a.Below b) (h' : b.Below c) : a.Below c := by
  cases h with
  | numbers h =>
    cases h' with
    | numbers h' => exact .numbers (Int.lt_trans h h')
    | mixed => exact .mixed
  | mixed =>
    cases h' with
    | texts _ => exact .mixed
  | texts h =>
    cases h' with
    | texts h' => exact .texts (String.lt_trans h h')

theorem Below.left_ne_null {a b : SortValue} (h : a.Below b) : a ≠ null := by
  cases h <;> nofun

theorem Below.right_ne_null {a b : SortValue} (h : a.Below b) : b ≠ null := by
  cases h <;> nofun

theorem isNull_iff {a : SortValue} : a.isNull = true ↔ a = null := by
  cases a <;> simp [isNull]

theorem isNull_eq_false_iff {a : SortValue} : a.isNull = false ↔ a ≠ null := by
  cases a <;> simp [isNull]

theorem compare_eq_lt_iff {a b : SortValue} : a.compare b = .lt ↔ a.Below b := by
  constructor
  · intro h
    cases a <;> cases b <;> simp only [compare, reduceCtorEq] at h
    · exact .numbers (compareTotal_eq_lt_iff.1 h)
    · exact .mixed
    · exact .texts (compareOfLessAndEq_eq_lt.1 h)
  · intro h
    cases h with
    | numbers h => exact compareTotal_eq_lt_iff.2 h
    | mixed => rfl
    | texts h => exact compareOfLessAndEq_eq_lt.2 h

theorem compare_eq_eq_iff {a b : SortValue} (ha : a ≠ null) (hb : b ≠ null) :
    a.compare b = .eq ↔ a = b := by
  cases a with
  | null => exact absurd rfl ha
  | number x =>
    cases b with
    | null => exact absurd rfl hb
    | number y => simp [compare, compareTotal_eq_eq_iff]
    | text t => simp [compare]
  | text s =>
    cases b with
    | null => exact absurd rfl hb
    | number y => simp [compare]
    | text t => simp [compare]

theorem compare_swap (a b : SortValue) : b.compare a = (a.compare b).swap := by
  cases a with
  | null => cases b <;> rfl
  | number x =>
    cases b with
    | number y => exact compareTotal_swap x y
    | null | text => rfl
  | text s =>
    cases b with
    | text t =>
      show Ord.compare t s = (Ord.compare s t).swap
      exact Std.OrientedCmp.eq_swap
    | null | number => rfl

end SortValue

/-! ## Values in the order of a sort -/

namespace SortSpec

/-- **The order of a sort.** -/
inductive Before (s : SortSpec) : SortValue → SortValue → Prop
  | nullFirst {b} : s.nulls = .first → b ≠ .null → Before s .null b
  | nullLast {a} : s.nulls = .last → a ≠ .null → Before s a .null
  | ascending {a b} : s.descending = false → a.Below b → Before s a b
  | descending {a b} : s.descending = true → b.Below a → Before s a b

variable {s : SortSpec} {a b c : SortValue}

theorem Before.trans (h : s.Before a b) (h' : s.Before b c) : s.Before a c := by
  cases h with
  | nullFirst hs hb =>
    cases h' with
    | nullFirst _ hc => exact absurd rfl hb
    | nullLast hs' _ => simp [hs] at hs'
    | ascending _ h' => exact .nullFirst hs h'.right_ne_null
    | descending _ h' => exact .nullFirst hs h'.left_ne_null
  | nullLast hs ha =>
    cases h' with
    | nullFirst hs' _ => simp [hs] at hs'
    | nullLast _ hb => exact absurd rfl hb
    | ascending _ h' => exact absurd rfl h'.left_ne_null
    | descending _ h' => exact absurd rfl h'.right_ne_null
  | ascending hd h =>
    cases h' with
    | nullFirst _ _ => exact absurd rfl h.right_ne_null
    | nullLast hs _ => exact .nullLast hs h.left_ne_null
    | ascending _ h' => exact .ascending hd (h.trans h')
    | descending hd' _ => simp [hd] at hd'
  | descending hd h =>
    cases h' with
    | nullFirst _ _ => exact absurd rfl h.left_ne_null
    | nullLast hs _ => exact .nullLast hs h.right_ne_null
    | ascending hd' _ => simp [hd] at hd'
    | descending _ h' => exact .descending hd (h'.trans h)

/-- Between values that are there, a sort follows the ascending order or its
    reverse. -/
theorem before_iff_of_ne_null (ha : a ≠ .null) (hb : b ≠ .null) :
    s.Before a b ↔ if s.descending then b.Below a else a.Below b := by
  constructor
  · intro h
    cases h with
    | nullFirst _ _ => exact absurd rfl ha
    | nullLast _ _ => exact absurd rfl hb
    | ascending hd h => simpa [hd] using h
    | descending hd h => simpa [hd] using h
  · intro h
    cases hd : s.descending with
    | true => exact .descending hd (by simpa [hd] using h)
    | false => exact .ascending hd (by simpa [hd] using h)

theorem before_null_left_iff : s.Before .null b ↔ s.nulls = .first ∧ b ≠ .null := by
  constructor
  · intro h
    cases h with
    | nullFirst hs hb => exact ⟨hs, hb⟩
    | nullLast _ ha => exact absurd rfl ha
    | ascending _ h => exact absurd rfl h.left_ne_null
    | descending _ h => exact absurd rfl h.right_ne_null
  · exact fun ⟨hs, hb⟩ => .nullFirst hs hb

theorem before_null_right_iff : s.Before a .null ↔ s.nulls = .last ∧ a ≠ .null := by
  constructor
  · intro h
    cases h with
    | nullFirst _ hb => exact absurd rfl hb
    | nullLast hs ha => exact ⟨hs, ha⟩
    | ascending _ h => exact absurd rfl h.right_ne_null
    | descending _ h => exact absurd rfl h.left_ne_null
  · exact fun ⟨hs, ha⟩ => .nullLast hs ha

/-- What is compared is the order of the sort. -/
theorem compare_eq_lt_iff : s.compare a b = .lt ↔ s.Before a b := by
  by_cases ha : a = .null
  · subst ha
    rw [before_null_left_iff, compare]
    by_cases hb : b = .null
    · simp [hb, SortValue.isNull]
    · rw [SortValue.isNull_eq_false_iff.2 hb]
      by_cases hs : s.nulls = .first <;> simp [hb, hs, SortValue.isNull]
  · by_cases hb : b = .null
    · subst hb
      rw [before_null_right_iff, compare, SortValue.isNull_eq_false_iff.2 ha]
      cases hs : s.nulls <;> simp [ha, SortValue.isNull]
    · rw [before_iff_of_ne_null ha hb, compare, SortValue.isNull_eq_false_iff.2 ha,
        SortValue.isNull_eq_false_iff.2 hb]
      dsimp only
      split <;> exact SortValue.compare_eq_lt_iff

/-- Only equal values tie. -/
theorem compare_eq_eq_iff : s.compare a b = .eq ↔ a = b := by
  by_cases ha : a = .null
  · by_cases hb : b = .null
    · simp [ha, hb, compare, SortValue.isNull]
    · rw [compare, SortValue.isNull_eq_false_iff.2 hb, ha]
      by_cases hs : s.nulls = .first <;> simp [hs, SortValue.isNull, Ne.symm hb]
  · by_cases hb : b = .null
    · rw [compare, SortValue.isNull_eq_false_iff.2 ha, hb]
      by_cases hs : s.nulls = .first <;> simp [hs, SortValue.isNull, ha]
    · rw [compare, SortValue.isNull_eq_false_iff.2 ha, SortValue.isNull_eq_false_iff.2 hb]
      dsimp only
      split
      · rw [SortValue.compare_eq_eq_iff hb ha, eq_comm]
      · exact SortValue.compare_eq_eq_iff ha hb

theorem not_before_self : ¬ s.Before a a := by
  rw [← compare_eq_lt_iff, compare_eq_eq_iff.2 rfl]
  nofun

theorem Before.asymm (h : s.Before a b) : ¬ s.Before b a := fun h' =>
  not_before_self (h.trans h')

theorem compare_swap (s : SortSpec) (a b : SortValue) :
    s.compare a b = (s.compare b a).swap := by
  simp only [compare]
  cases a.isNull <;> cases b.isNull <;> dsimp only
  · split <;> exact SortValue.compare_swap ..
  · split <;> rfl
  · split <;> rfl
  · rfl

theorem isLE_compare_iff : (s.compare a b).isLE = true ↔ s.Before a b ∨ a = b := by
  rw [← compare_eq_lt_iff, ← compare_eq_eq_iff (s := s)]
  cases s.compare a b <;> simp [Ordering.isLE]

instance : Std.OrientedCmp s.compare where
  eq_swap := compare_swap ..

/-- Values are linearly ordered by a sort. -/
instance : Std.TransCmp s.compare where
  isLE_trans h h' := by
    rw [isLE_compare_iff] at *
    rcases h with h | rfl
    · rcases h' with h' | rfl
      · exact .inl (h.trans h')
      · exact .inl h
    · exact h'

end SortSpec

/-! ## Rows in the order of a sort -/

/-- What a row is sorted by. -/
def sortValueAt (column : Nat) (row : List Cell) : SortValue := .ofCell row[column]?

namespace SortSpec

variable {s : SortSpec} {column : Nat}

theorem compareRows_eq (a b : List Cell) : s.compareRows column a b =
    s.compare (sortValueAt column a) (sortValueAt column b) := rfl

instance : Std.OrientedCmp (s.compareRows column) where
  eq_swap := compare_swap ..

/-- Rows are totally preordered by a sort. -/
instance : Std.TransCmp (s.compareRows column) where
  isLE_trans h h' := by
    rw [compareRows] at *
    exact Std.TransCmp.isLE_trans h h'

theorem isLE_compareRows_trans (a b c : List Cell) (h : (s.compareRows column a b).isLE)
    (h' : (s.compareRows column b c).isLE) : (s.compareRows column a c).isLE :=
  Std.TransCmp.isLE_trans h h'

theorem isLE_compareRows_total (a b : List Cell) :
    (s.compareRows column a b).isLE || (s.compareRows column b a).isLE :=
  isLE_or_isLE a b

end SortSpec

end EventTable
