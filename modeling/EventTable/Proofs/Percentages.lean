/-
  EventTable — columns that show levels in percent.

  * `Ranked key p P g`: in the column `key` a level of `P` percent is shown as `p` percent, and
    sorted by the whole part of `g` (`exists_ranked`);
  * `Ranked.floor_le` and `Ranked.floor_lt`: which percentages that keeps in order;
  * `LevelOf` names the columns and their levels, and `PercentAt` a cell that shows a
    percentage and has a sort key;
  * `percent_columns_sort_as_they_read` puts these together, and
    `fuel_levels_are_sorted_by_whole_parts` is a pair of levels that does not.
-/
import EventTable.Proofs.Chronology
import EventTable.Proofs.LevelRanks

namespace EventTable

open Text Number Columns

/-! ## Percentages and keys -/

section
variable {level : Float} {l : ℚ}

theorem exists_positiveValue_percentage (h : PositiveValue level l) :
    ∃ P, PositiveValue (percentage level) P := by
  rw [percentage]
  split
  · rename_i hle
    obtain ⟨P, hP, -⟩ := exists_positiveValue_mul_hundred h (h.le_one_iff.1 hle)
    exact ⟨P, hP⟩
  · exact ⟨l, h⟩

/-- **A fuel level** is shown as a percentage, and sorted by the whole part of its rank. -/
theorem exists_fuelRank (h : PositiveValue level l) : ∃ P g, PositiveValue (percentage level) P ∧
    FuelRank P g ∧ WholeKey (hundredths (fraction level)) ⌊g⌋₊ := by
  rw [percentage, hundredths, fraction]
  by_cases hle : level ≤ 1.0
  · rw [if_pos hle, if_pos hle]
    obtain ⟨P, hP, hhundred⟩ := exists_positiveValue_mul_hundred h (h.le_one_iff.1 hle)
    exact ⟨P, P, hP, .fraction hhundred, wholeKey_truncate hP⟩
  · rw [if_neg hle, if_neg hle]
    have hone : 1 < l := not_le.1 (h.le_one_iff.not.1 hle)
    rcases h.hasValue_or with hl | ⟨m, hpos, hux, hm, rfl⟩
    · have hlow : (2 : ℚ) ^ (-1021 : ℤ) ≤ l / 100 := by
        refine (zpow_le_zpow_right₀ one_le_two (by decide : (-1021 : ℤ) ≤ -7)).trans ?_
        norm_num
        linarith
      have hhigh : l / 100 < 2 ^ (1023 : ℤ) := by
        have hdouble : (2 : ℚ) ^ 1024 = 2 ^ (1023 : ℤ) * 2 := by
          rw [← zpow_natCast, ← zpow_add_one₀ two_ne_zero]
          rfl
        have hlt := hl.lt_two_pow
        have hpos := two_zpow_pos 1023
        rw [hdouble] at hlt
        generalize (2 : ℚ) ^ (1023 : ℤ) = limit at *
        linarith
      obtain ⟨f, hf, hfirst⟩ := exists_hasValue_div hl hasValue_hundred hlow hhigh
      have hflow : 1 / 2 ^ 7 ≤ f :=
        hfirst.le (short_div_two_pow (n := 1) (by decide) 7) (by linarith)
      obtain ⟨g, hg, hsecond⟩ := exists_rounded_mul hf hasValue_hundred
        (two_zpow_le_of_le (by linarith))
      exact ⟨l, g, h, .percentage hl.short hfirst hsecond, hg.wholeKey_truncate⟩
    · exact absurd hone ((mul_two_zpow_lt hm).le.trans two_zpow_le_one).not_gt

end

theorem signed_injective {i j : ℤ} (h : signed i = signed j) : i = j := by
  have hminus : ∀ n : ℕ, '-' ∉ digits n := fun n hmem =>
    absurd (isDigit_of_mem_digits hmem) (by decide)
  have habs : ∀ {a b : ℕ}, digits a = digits b → a = b := by
    intro a b hab
    rw [← natOfDigits_digits a, hab, natOfDigits_digits]
  rw [signed, signed] at h
  split at h <;> split at h
  · have := habs (List.cons.inj h).2
    omega
  · exact absurd (h ▸ List.mem_cons_self) (hminus j.natAbs)
  · exact absurd (h.symm ▸ List.mem_cons_self) (hminus i.natAbs)
  · have := habs h
    omega

/-- What a column of levels sorts a level by. -/
def levelKey (key : String) (level : Float) : Float :=
  if key = "fuelLevel" then hundredths (fraction level) else roundHalfAway (percentage level)

/-- `p` percent are shown of `P` percent, which have the rank `g` in the column. -/
structure Ranked (key : String) (p : ℤ) (P g : ℚ) : Prop where
  nonneg : 0 ≤ P
  shown : p = min (⌊P + 1 / 2⌋₊ : ℤ) maxInt64
  fuel : key = "fuelLevel" → FuelRank P g
  other : key ≠ "fuelLevel" → g = P + 1 / 2

theorem exists_ranked (key : String) {level : Float} {l : ℚ} (h : PositiveValue level l) :
    ∃ P g, Ranked key (roundToInt64 (percentage level)) P g ∧
      WholeKey (levelKey key level) ⌊g⌋₊ := by
  rw [levelKey]
  by_cases hkey : key = "fuelLevel"
  · obtain ⟨P, g, hP, hrank, hwhole⟩ := exists_fuelRank h
    rw [if_pos hkey]
    exact ⟨P, g, ⟨hP.pos.le, roundToInt64_of_positiveValue hP, fun _ => hrank,
      fun hne => absurd hkey hne⟩, hwhole⟩
  · obtain ⟨P, hP⟩ := exists_positiveValue_percentage h
    rw [if_neg hkey]
    exact ⟨P, P + 1 / 2, ⟨hP.pos.le, roundToInt64_of_positiveValue hP,
      fun heq => absurd heq hkey, fun _ => rfl⟩, wholeKey_roundHalfAway hP⟩

section
variable {key : String} {p p' : ℤ} {P P' g g' : ℚ} (h : Ranked key p P g)
  (h' : Ranked key p' P' g') (hlt : p < p')
include h h' hlt

/-- Of two shown percentages the smaller one is not too great, so that it is that of the
    level. -/
theorem Ranked.exists_nat : ∃ k : ℕ, p = k ∧ k < 2 ^ 63 ∧ ⌊P + 1 / 2⌋₊ = k ∧ P < k + 1 / 2 ∧
    k + 1 ≤ ⌊P' + 1 / 2⌋₊ := by
  obtain ⟨-, rfl, -, -⟩ := h
  obtain ⟨-, rfl, -, -⟩ := h'
  unfold maxInt64 at *
  exact ⟨⌊P + 1 / 2⌋₊, by omega, by omega, rfl, by linarith [Nat.lt_floor_add_one (P + 1 / 2)],
    by omega⟩

/-- **A smaller percentage has no greater rank.** -/
theorem Ranked.floor_le : ⌊g⌋₊ ≤ ⌊g'⌋₊ := by
  obtain ⟨k, -, -, hk, hhigh, hnext⟩ := h.exists_nat h' hlt
  by_cases hkey : key = "fuelLevel"
  · have hlow := (Nat.le_floor_iff (by linarith [h'.nonneg])).1 hnext
    push_cast at hlow
    rcases lt_or_ge k (2 ^ 51) with hsmall | hlarge
    · have hkq : (k : ℚ) + 1 ≤ 2 ^ 51 := by exact_mod_cast hsmall
      have hg : ⌊g⌋₊ < k + 1 := by
        rw [Nat.floor_lt' (Nat.succ_ne_zero k), Nat.cast_succ]
        exact (h.fuel hkey).lt_of_half h.nonneg hhigh (by linarith) (by omega)
      have hg' : k ≤ ⌊g'⌋₊ := Nat.le_floor ((h'.fuel hkey).le_of_half hsmall (by linarith))
      omega
    · have hlargeq : (2 : ℚ) ^ 51 ≤ k := by exact_mod_cast hlarge
      have hP : 100 < P := by
        have hfloor := Nat.floor_le (a := P + 1 / 2) (by linarith [h.nonneg])
        rw [hk] at hfloor
        linarith
      exact Nat.floor_mono ((h.fuel hkey).mono (h'.fuel hkey) hP (by linarith))
  · rw [h.other hkey, h'.other hkey, hk]
    omega

/-- **It has a smaller one** in the columns of batteries, and in that of fuel levels if another
    percentage lies between the two. -/
theorem Ranked.floor_lt (hfar : key = "fuelLevel" → p + 1 < p' ∧ p' ≤ 2 ^ 53) :
    ⌊g⌋₊ < ⌊g'⌋₊ ∧ ⌊g⌋₊ < 2 ^ 63 := by
  obtain ⟨k, hp, hlimit, hk, hhigh, hnext⟩ := h.exists_nat h' hlt
  by_cases hkey : key = "fuelLevel"
  · obtain ⟨hfar, hbound⟩ := hfar hkey
    have hshown := h'.shown
    unfold maxInt64 at hshown
    have hlow := (Nat.le_floor_iff (n := k + 2) (by linarith [h'.nonneg])).1
      (by omega : k + 2 ≤ ⌊P' + 1 / 2⌋₊)
    have hle : (⌊P' + 1 / 2⌋₊ : ℚ) ≤ 2 ^ 53 := by
      exact_mod_cast (by omega : ⌊P' + 1 / 2⌋₊ ≤ 2 ^ 53)
    push_cast at hlow
    obtain ⟨n, hn, hg, hg'⟩ := (h.fuel hkey).exists_between (h'.fuel hkey) h.nonneg (by omega)
      hhigh (by linarith) (by linarith [Nat.lt_floor_add_one (P' + 1 / 2)])
    have hfloor : ⌊g⌋₊ < n + 1 := by
      rw [Nat.floor_lt' (Nat.succ_ne_zero n), Nat.cast_succ]
      exact hg
    have hfloor' : n + 1 ≤ ⌊g'⌋₊ := Nat.le_floor (by exact_mod_cast hg')
    omega
  · rw [h.other hkey, h'.other hkey, hk]
    exact ⟨hnext, hlimit⟩

end

/-! ## The columns of levels -/

/-- **The columns that show a level in percent**, and the level that they show of an event. -/
inductive LevelOf (ctx : Context) (e : Event) : (key : String) → (level : Float) → Prop
  | fuelLevel : LevelOf ctx e "fuelLevel" e.fuelLevel
  | batteryPercent : LevelOf ctx e "batteryPercent" e.batteryLevel
  | deviceBattery {d : Device} : deviceOf ctx e = .ok (some d) →
      LevelOf ctx e "deviceBattery" d.lastBatteryLevel
  | lastBatteryPercent {d : Device} : deviceOf ctx e = .ok (some d) →
      LevelOf ctx e "lastBatteryPercent" d.lastBatteryLevel

section
variable {ctx : Context} {requests : List ColumnRequest} {request : ColumnRequest} {column : ℕ}
  {row row' : ℕ} {e e' : Event} {level : Float} {p p' : ℤ} {k k' : Float}

theorem not_lt_zero_of_positiveValue {l : ℚ} (h : PositiveValue level l) : ¬ level < 0.0 := by
  obtain ⟨v, hv, hsign, -⟩ := h.exists_exact
  rw [lt_zero_iff_of_ofFloat? hv, hsign]
  exact fun hlt => absurd hlt.1 Bool.false_ne_true

/-- The cell of a battery. -/
theorem percentCell_eq (h : 0.0 < level) {key : String} (hkey : key ≠ "fuelLevel") :
    percentCell level = (Cell.ofText (percentText level)).withSortKey (levelKey key level) := by
  rw [percentCell, positiveCell, if_pos h, levelKey, if_neg hkey]

/-- Such a column shows a positive level in percent, and sorts by its key. -/
theorem LevelOf.resolveCell_eq (h : LevelOf ctx e request.key level) {l : ℚ}
    (hl : PositiveValue level l) (row : ℕ) : resolveCell eventCatalog ctx row e request =
      (Cell.ofText (percentText level)).withSortKey (levelKey request.key level) := by
  have hpos : 0.0 < level := (exists_positiveValue_iff.1 ⟨l, hl⟩).1
  rw [resolveCell]
  generalize request.key = key at h
  cases h with
  | fuelLevel =>
    show fuelLevelCell ctx e = _
    rw [fuelLevelCell, if_neg (not_lt_zero_of_positiveValue hl), positiveCell, if_pos hpos,
      levelKey, if_pos rfl]
  | batteryPercent => exact percentCell_eq hpos (by decide)
  | deviceBattery hd =>
    have hlookup : eventCatalog.lookup? "deviceBattery" = some (deviceColumn "deviceBattery"
      (fixedTitle "col.deviceBattery" "Last\nBattery") lastBatteryCell) := rfl
    simp only [hlookup, deviceColumn, hd]
    exact percentCell_eq hpos (by decide)
  | lastBatteryPercent hd =>
    have hlookup : eventCatalog.lookup? "lastBatteryPercent" = some (deviceColumn
      "lastBatteryPercent" (fixedTitle "col.lastBatteryPercent" "Latest\nBatt %")
      lastBatteryCell) := rfl
    simp only [hlookup, deviceColumn, hd]
    exact percentCell_eq hpos (by decide)

/-- **A cell in percent**: for a positive and finite level of the event, the cell of the column
    shows `p` percent and has the sort key `k`. -/
structure PercentAt (ctx : Context) (requests : List ColumnRequest) (column row : ℕ) (e : Event)
    (p : ℤ) (k : Float) : Prop where
  level : ∃ request level, requests[column]? = some request ∧ LevelOf ctx e request.key level ∧
    0.0 < level ∧ level.isFinite = true
  cell : ∃ cell, (assembleRow eventCatalog ctx requests row e)[column]? = some cell ∧
    cell.value = String.ofList (signed p ++ ['%']) ∧ cell.sortKey = some k

section
variable (hq : requests[column]? = some request)
include hq

/-- Every positive and finite level is shown so. -/
theorem percentAt_of_levelOf (h : LevelOf ctx e request.key level) (hpos : 0.0 < level)
    (hfinite : level.isFinite = true) (row : ℕ) : PercentAt ctx requests column row e
      (roundToInt64 (percentage level)) (levelKey request.key level) := by
  obtain ⟨l, hl⟩ := exists_positiveValue_iff.2 ⟨hpos, hfinite⟩
  refine ⟨⟨request, level, hq, h, hpos, hfinite⟩,
    (resolveCell eventCatalog ctx row e request).withFiller (columnFiller ctx request), ?_, ?_, ?_⟩
  · rw [getElem?_assembleRow, hq]
    rfl
  · rw [h.resolveCell_eq hl]
    exact Cell.value_of_text rfl (isBlank_percentText level)
  · rw [h.resolveCell_eq hl]
    rfl

/-- What is shown has a rank, and the whole part of that is the sort key. -/
theorem PercentAt.exists_ranked (h : PercentAt ctx requests column row e p k) :
    ∃ P g, Ranked request.key p P g ∧ WholeKey k ⌊g⌋₊ ∧
      sortValueAt column (assembleRow eventCatalog ctx requests row e) = .number k := by
  obtain ⟨⟨request', level, hq', hlevel, hpos, hfinite⟩, cell, hcell, hvalue, hkey⟩ := h
  obtain rfl := Option.some.inj (hq.symm.trans hq')
  obtain ⟨-, cell', hcell', hvalue', hkey'⟩ := percentAt_of_levelOf hq hlevel hpos hfinite row
  obtain rfl := Option.some.inj (hcell.symm.trans hcell')
  obtain rfl := Option.some.inj (hkey.symm.trans hkey')
  have htexts := String.ofList_injective (hvalue.symm.trans hvalue')
  have hshown : p = roundToInt64 (percentage level) :=
    signed_injective (List.append_cancel_right htexts)
  obtain ⟨l, hl⟩ := exists_positiveValue_iff.2 ⟨hpos, hfinite⟩
  obtain ⟨P, g, hranked, hwhole⟩ := EventTable.exists_ranked request.key hl
  refine ⟨P, g, hshown ▸ hranked, hwhole, ?_⟩
  rw [sortValueAt, hcell]
  exact SortValue.ofCell_of_sortKey hkey hwhole.isNaN_eq_false

variable (h : PercentAt ctx requests column row e p k)
  (h' : PercentAt ctx requests column row' e' p' k') (hlt : p < p')
include h h' hlt

theorem PercentAt.orderKey_le : orderKey k ≤ orderKey k' := by
  obtain ⟨P, g, hranked, hwhole, -⟩ := h.exists_ranked hq
  obtain ⟨P', g', hranked', hwhole', -⟩ := h'.exists_ranked hq
  exact hwhole.orderKey_le hwhole' (hranked.floor_le hranked' hlt)

theorem PercentAt.orderKey_lt (hfar : request.key = "fuelLevel" → p + 1 < p' ∧ p' ≤ 2 ^ 53) :
    orderKey k < orderKey k' := by
  obtain ⟨P, g, hranked, hwhole, -⟩ := h.exists_ranked hq
  obtain ⟨P', g', hranked', hwhole', -⟩ := h'.exists_ranked hq
  obtain ⟨hfloor, hlimit⟩ := hranked.floor_lt hranked' hlt hfar
  exact hwhole.orderKey_lt hwhole' hfloor hlimit

end

/-- Two cells in percent, one of which stands before the other in an ascending sort. -/
theorem PercentAt.le_or_of_before (hq : requests[column]? = some request)
    (h : PercentAt ctx requests column row e p k) (h' : PercentAt ctx requests column row' e' p' k')
    {nulls : NullsPlacement}
    (hbefore : SortSpec.Before { nulls }
        (sortValueAt column (assembleRow eventCatalog ctx requests row e))
        (sortValueAt column (assembleRow eventCatalog ctx requests row' e')) ∨
      sortValueAt column (assembleRow eventCatalog ctx requests row e) =
        sortValueAt column (assembleRow eventCatalog ctx requests row' e')) :
    p ≤ p' ∨ request.key = "fuelLevel" ∧ (p = p' + 1 ∨ 2 ^ 53 < p) := by
  obtain ⟨-, -, -, -, hvalue⟩ := h.exists_ranked hq
  obtain ⟨-, -, -, -, hvalue'⟩ := h'.exists_ranked hq
  have hle : orderKey k ≤ orderKey k' := by
    rw [hvalue, hvalue'] at hbefore
    rcases hbefore with hbefore | heq
    · rw [SortSpec.before_iff_of_ne_null (by simp) (by simp), if_neg Bool.false_ne_true] at hbefore
      cases hbefore with
      | numbers hlt => exact hlt.le
    · rw [SortValue.number.inj heq]
  by_contra hnot
  rw [not_or, not_le] at hnot
  obtain ⟨hlt, hnear⟩ := hnot
  have hfar : request.key = "fuelLevel" → p' + 1 < p ∧ p ≤ 2 ^ 53 := by
    intro hkey
    rw [not_and, not_or, not_lt] at hnear
    have hnear' := hnear hkey
    omega
  exact absurd hle (not_le.2 (h'.orderKey_lt hq h hlt hfar))

end

/-- **Percent columns sort as they read.**  Every positive and finite level is shown in
    percent.  In a column of batteries a smaller percentage has a smaller sort key, so that
    after an ascending sort no percentage is followed by a smaller one.  In the column of fuel
    levels a smaller percentage has no greater key, and a smaller one if it is up to `2 ^ 53`
    and not the next one, so that there a percentage may be followed by the next smaller one. -/
theorem percent_columns_sort_as_they_read (ctx : Context) {requests : List ColumnRequest}
    {request : ColumnRequest} {column : ℕ} (hq : requests[column]? = some request) :
    (∀ row e level, LevelOf ctx e request.key level → 0.0 < level → level.isFinite = true →
      ∃ p k, PercentAt ctx requests column row e p k) ∧
    (∀ row row' e e' p p' k k', PercentAt ctx requests column row e p k →
      PercentAt ctx requests column row' e' p' k' → p < p' → compareTotal k k' ≠ .gt ∧
        ((request.key = "fuelLevel" → p + 1 < p' ∧ p' ≤ 2 ^ 53) → compareTotal k k' = .lt)) ∧
    ∀ nulls events, ∃ listing : List (Event × ℕ), listing.Perm events.zipIdx ∧
      ((assembleEvents ctx requests events).sortByColumn column { nulls }).rows =
        listing.map (fun a => assembleRow eventCatalog ctx requests a.2 a.1) ∧
      listing.Pairwise fun a b => ∀ p p' k k', PercentAt ctx requests column a.2 a.1 p k →
        PercentAt ctx requests column b.2 b.1 p' k' →
          p ≤ p' ∨ request.key = "fuelLevel" ∧ (p = p' + 1 ∨ 2 ^ 53 < p) := by
  refine ⟨?_, ?_, ?_⟩
  · intro row e level h hpos hfinite
    exact ⟨_, _, percentAt_of_levelOf hq h hpos hfinite row⟩
  · intro row row' e e' p p' k k' h h' hlt
    refine ⟨?_, fun hfar => compareTotal_eq_lt_iff.2 (h.orderKey_lt hq h' hlt hfar)⟩
    rw [compareTotal, Ne, Int.compare_eq_gt, not_lt]
    exact h.orderKey_le hq h' hlt
  · intro nulls events
    refine ⟨_, List.mergeSort_perm .., rows_sortByColumn_assemble _ hq ctx _ events, ?_⟩
    refine (pairwise_mergeSort_values (pairwise_snd_zipIdx events)).imp ?_
    intro a b hbefore p p' k k' h h'
    exact h.le_or_of_before hq h' (hbefore.imp_right And.left)

/-- A level above 1 and a fraction, in a column of batteries: the cell of the fraction has the
    smaller key. -/
theorem two_batteries_sort_as_they_read :
    let requests : List ColumnRequest := [{ key := "index" }, { key := "batteryPercent" }]
    let events : List Event := [{ batteryLevel := 80.0 }, {}, { batteryLevel := 0.5 }]
    let ctx : Context := { now := 0 }
    requests[1]? = some { key := "batteryPercent" } ∧
      (assembleEvents ctx requests events).rows.map (·.map Cell.value) =
        [["1", "80%"], ["2", "--"], ["3", "50%"]] ∧
      PercentAt ctx requests 1 1 { batteryLevel := 80.0 } 80 80.0 ∧
      PercentAt ctx requests 1 3 { batteryLevel := 0.5 } 50 50.0 ∧
      compareTotal 50.0 80.0 = .lt ∧
      ∃ listing : List (Event × ℕ), listing.Perm events.zipIdx ∧
        ((assembleEvents ctx requests events).sortByColumn 1 {}).rows =
          listing.map (fun a => assembleRow eventCatalog ctx requests a.2 a.1) ∧
        listing.Pairwise fun a b => ∀ p p' k k', PercentAt ctx requests 1 a.2 a.1 p k →
          PercentAt ctx requests 1 b.2 b.1 p' k' → p ≤ p' := by
  intro requests events ctx
  have hq : requests[1]? = some { key := "batteryPercent" } := rfl
  obtain ⟨-, hkeys, hsorts⟩ := percent_columns_sort_as_they_read ctx hq
  have h80 : PercentAt ctx requests 1 1 { batteryLevel := 80.0 } 80 80.0 :=
    ⟨⟨_, _, hq, .batteryPercent, by decide, by decide⟩, _, rfl, by decide +kernel,
      by decide +kernel⟩
  have h50 : PercentAt ctx requests 1 3 { batteryLevel := 0.5 } 50 50.0 :=
    ⟨⟨_, _, hq, .batteryPercent, by decide, by decide⟩, _, rfl, by decide +kernel,
      by decide +kernel⟩
  obtain ⟨-, hlt⟩ := hkeys 3 1 _ _ 50 80 _ _ h50 h80 (by decide)
  obtain ⟨listing, hperm, hrows, hpairwise⟩ := hsorts .first events
  refine ⟨hq, by decide +kernel, h80, h50, hlt (fun h => absurd h (by decide)), listing, hperm,
    hrows, hpairwise.imp ?_⟩
  intro a b hab p p' k k' h h'
  exact (hab p p' k k' h h').resolve_right fun hfuel => absurd hfuel.1 (by decide)

/-- Two fuel levels with one whole part in percent, of which the greater one is rounded up: they
    have the same sort key, and an ascending sort leaves them as they are. -/
theorem fuel_levels_are_sorted_by_whole_parts :
    let requests : List ColumnRequest := [{ key := "fuelLevel" }]
    let events : List Event := [{ fuelLevel := 0.556 }, { fuelLevel := 0.554 }]
    let table := assembleEvents { now := 0 } requests events
    table.rows.map (·.map Cell.value) = [["56%"], ["55%"]] ∧
      table.rows.map (·.map Cell.sortKey) = [[some 55.0], [some 55.0]] ∧
      (table.sortByColumn 0 {}).rows.map (·.map Cell.value) = [["56%"], ["55%"]] := by
  intro requests events table
  have hvalues : table.rows.map (·.map Cell.value) = [["56%"], ["55%"]] := by decide +kernel
  have hsorted : table.rows.Pairwise fun a b =>
      (SortSpec.compareRows {} 0 a b).isLE = true := by decide +kernel
  refine ⟨hvalues, by decide +kernel, ?_⟩
  rw [Table.sortByColumn_of_lt {} (by decide), List.mergeSort_of_pairwise hsorted]
  exact hvalues

end EventTable
