/-
  EventTable — ages and row numbers that do not fit in 64 bits.

  Ages are differences of 64-bit times, and wrap around where they do not fit; so does the
  number of the last row there can be.  A build with overflow checks aborts the resolver of the
  column there, and is the same in everything else.

  * `Event.creationAge_of_not_ageFits` and `Context.ageOf_of_not_fits` say what an age wraps
    around to: the one of an event that was stored too late is below zero, and shown as zero
    (`createAgeCell_of_not_ageFits`), and that of a check-in too far to come is above it, and
    shown as that of one long ago (`checkinAgeCell_of_not_fits`);
  * `text_createDateTimeCell` and `text_checkinDateTimeCell`: times are shown whatever their
    ages are;
  * `now_lt_of_ageOf_neg`: an age below zero is always that of a check-in to come;
  * `ageTaken?` is the difference of times that a column takes for an event, and `Overflows`
    holds if that or the number of the row does not fit; `overflows_iff` says where that is so;
  * `checked` is a column in a build with overflow checks, and `checkedCatalog` has them all;
  * `resolveCell_checkedCatalog`: in a table an overflow leaves its own cell blank and no other.
-/
import EventTable.EventCatalog

namespace EventTable

open Number Columns

/-! ## Ages that wrap around -/

/-- The age of storage of an event, if it has one, fits in 64 bits. -/
def Event.AgeFits (e : Event) : Prop :=
  0 < e.creationTime → FitsInt64 (e.creationTime - e.timestamp)

instance (e : Event) : Decidable e.AgeFits :=
  inferInstanceAs (Decidable (0 < e.creationTime → FitsInt64 (e.creationTime - e.timestamp)))

section
variable {ctx : Context} {e : Event} {time : Int}

theorem Event.not_ageFits_iff :
    ¬ e.AgeFits ↔ 0 < e.creationTime ∧ ¬ FitsInt64 (e.creationTime - e.timestamp) :=
  Classical.not_imp

theorem Event.creationAge_eq_iff (hpos : 0 < e.creationTime) :
    e.creationAge = e.creationTime - e.timestamp ↔ e.AgeFits := by
  rw [creationAge, if_pos hpos, wrapInt64_eq_self_iff, AgeFits, imp_iff_right hpos]

/-- An event is stored too late for its age to fit, and never too early. -/
theorem Event.creationAge_of_not_ageFits (htime : FitsInt64 e.timestamp)
    (hmillis : FitsInt64 e.creationMillis) (h : ¬ e.AgeFits) :
    e.creationAge = e.creationTime - e.timestamp - 0x10000000000000000 ∧ e.creationAge < 0 := by
  obtain ⟨hpos, hfits⟩ := Event.not_ageFits_iff.1 h
  have hseconds : e.creationTime.natAbs = e.creationMillis.natAbs / 1000 := Int.natAbs_tdiv ..
  unfold FitsInt64 minInt64 maxInt64 at *
  have hwrap : wrapInt64 (e.creationTime - e.timestamp) =
      e.creationTime - e.timestamp - 0x10000000000000000 := by
    refine wrapInt64_of_gt ?_ ?_ <;> unfold maxInt64 <;> omega
  rw [creationAge, if_pos hpos, hwrap]
  omega

/-- Such an age is shown as zero, and sorted below zero. -/
theorem createAgeCell_of_not_ageFits (htime : FitsInt64 e.timestamp)
    (hmillis : FitsInt64 e.creationMillis) (h : ¬ e.AgeFits) (ctx : Context)
    (argument : String) :
    (createAgeCell ctx argument e).text =
        some ((ElapsedFormat.ofArgument argument .hoursMinutesSeconds).write 0) ∧
      (createAgeCell ctx argument e).sortKey =
        some (Float.ofInt (e.creationTime - e.timestamp - 0x10000000000000000)) := by
  obtain ⟨hpos, -⟩ := Event.not_ageFits_iff.1 h
  obtain ⟨hage, hneg⟩ := Event.creationAge_of_not_ageFits htime hmillis h
  have hzero : e.creationAge.toNat = (0 : Int).toNat := by omega
  rw [createAgeCell, if_neg (Int.not_le.2 hpos)]
  constructor
  · rw [Cell.text_withAgeBand, ElapsedFormat.write, hzero]
    rfl
  · rw [Cell.sortKey_withAgeBand, hage]
    rfl

/-- A check-in is too far to come for its age to fit, and never too long ago. -/
theorem Context.ageOf_of_not_fits (hpos : 0 < time) (htime : time ≤ maxInt64)
    (h : ¬ FitsInt64 (ctx.now - time)) :
    ctx.ageOf time = ctx.now - time + 0x10000000000000000 ∧ 0 < ctx.ageOf time := by
  have hnow := ctx.now_fits
  unfold FitsInt64 minInt64 maxInt64 at *
  have hwrap : wrapInt64 (ctx.now - time) = ctx.now - time + 0x10000000000000000 := by
    refine wrapInt64_of_lt ?_ ?_ <;> unfold minInt64 <;> omega
  rw [ageOf, hwrap]
  omega

/-- Such a check-in is shown, and sorted, as one of long ago. -/
theorem checkinAgeCell_of_not_fits (hpos : 0 < time) (htime : time ≤ maxInt64)
    (h : ¬ FitsInt64 (ctx.now - time)) :
    (checkinAgeCell ctx time).text =
        some (daysHoursMinutes (ctx.now - time + 0x10000000000000000).toNat) ∧
      (checkinAgeCell ctx time).sortKey =
        some (Float.ofInt (ctx.now - time + 0x10000000000000000)) := by
  obtain ⟨hage, habove⟩ := Context.ageOf_of_not_fits hpos htime h
  have hmax : max (ctx.ageOf time) 0 = ctx.now - time + 0x10000000000000000 :=
    (Int.max_eq_left (Int.le_of_lt habove)).trans hage
  rw [checkinAgeCell, hmax]
  exact ⟨Cell.text_withAgeBand .., Cell.sortKey_withAgeBand ..⟩

/-- An age has a say in the colour of a time only. -/
theorem text_createDateTimeCell (ctx : Context) (e : Event) : (createDateTimeCell ctx e).text =
    (timeCell e.creationTime (ctx.formatDateTime? e.creationTime)).text := by
  rw [createDateTimeCell]
  split
  · rfl
  · exact Cell.text_withAgeBand ..

theorem text_checkinDateTimeCell (ctx : Context) (time : Int) :
    (checkinDateTimeCell ctx time).text = (timeCell time (ctx.formatDateTime? time)).text :=
  Cell.text_withAgeBand ..

/-- Only a check-in to come has an age below zero: up to now no age of a time that is set
    wraps around. -/
theorem now_lt_of_ageOf_neg (hpos : 0 < time) (hage : ctx.ageOf time < 0) : ctx.now < time := by
  refine Int.not_le.1 fun hpast => ?_
  have hfits : FitsInt64 (ctx.now - time) := by
    have hnow := ctx.now_fits
    unfold FitsInt64 minInt64 maxInt64 at hnow ⊢
    omega
  rw [Context.ageOf, wrapInt64_of_fits hfits] at hage
  omega

/-- Only a time that is set has a text. -/
theorem pos_of_isBlank_timeCell {text : Option String}
    (h : (timeCell time text).isBlank = false) : 0 < time := by
  refine Decidable.byContradiction fun hpos => ?_
  cases text with
  | none => exact absurd h.symm Bool.false_ne_true
  | some text =>
    rw [timeCell, if_neg hpos] at h
    exact absurd h.symm Bool.false_ne_true

end

/-! ## Overflow checks -/

/-- **The difference of times that a column takes** for an event, if it takes one: the time of
    storage has no colour unless it is shown, and there is no age without a time. -/
def ageTaken? (ctx : Context) (e : Event) (key : String) : Option Int :=
  if key = "createDateTime" then
    if (timeCell e.creationTime (ctx.formatDateTime? e.creationTime)).isBlank then none
    else some (e.creationTime - e.timestamp)
  else if key = "createAge" then
    if e.creationTime ≤ 0 then none else some (e.creationTime - e.timestamp)
  else if key = "checkinDateTime" ∨ key = "checkinAge" then
    match checkinTime ctx e with
    | .ok time => time.map (ctx.now - ·)
    | .error _ => none
  else none

/-- The number of the row, or the difference of times, that a column takes does not fit in
    64 bits. -/
def Overflows (row : Nat) (ctx : Context) (e : Event) (key : String) : Prop :=
  key = "index" ∧ maxNat64 < row + 1 ∨ ∃ age ∈ ageTaken? ctx e key, ¬ FitsInt64 age

instance (row : Nat) (ctx : Context) (e : Event) (key : String) :
    Decidable (Overflows row ctx e key) :=
  inferInstanceAs (Decidable (_ ∨ _))

/-- A column in a build with overflow checks. -/
def checked (c : Column Event) : Column Event where
  key := c.key
  title := c.title
  value row ctx argument e :=
    if Overflows row ctx e c.key then .error .aborted else c.value row ctx argument e

section
variable {c : Column Event} {row : Nat} {ctx : Context} {argument : String} {e : Event}

theorem value_checked_of_overflows (h : Overflows row ctx e c.key) :
    (checked c).value row ctx argument e = .error .aborted :=
  if_pos h

theorem value_checked_of_not_overflows (h : ¬ Overflows row ctx e c.key) :
    (checked c).value row ctx argument e = c.value row ctx argument e :=
  if_neg h

end

/-- The catalog of all columns over events, in a build with overflow checks. -/
def checkedCatalog : Catalog Event := ⟨eventColumns.map checked⟩

/-- **Where a column overflows**: with the number of the last row there can be; with an age of
    storage, but in the column of times only where that time has a text; or with the age of a
    check-in that is known. -/
theorem overflows_iff {row : Nat} {ctx : Context} {e : Event} {key : String} :
    Overflows row ctx e key ↔
    key = "index" ∧ maxNat64 < row + 1 ∨
    key = "createDateTime" ∧
      (timeCell e.creationTime (ctx.formatDateTime? e.creationTime)).isBlank = false ∧
      ¬ e.AgeFits ∨
    key = "createAge" ∧ ¬ e.AgeFits ∨
    (key = "checkinDateTime" ∨ key = "checkinAge") ∧
      ∃ time, checkinTime ctx e = .ok (some time) ∧ ¬ FitsInt64 (ctx.now - time) := by
  rw [Overflows]
  refine or_congr_right ?_
  unfold ageTaken?
  by_cases hdate : key = "createDateTime"
  · subst hdate
    cases hb : (timeCell e.creationTime (ctx.formatDateTime? e.creationTime)).isBlank with
    | true => simp
    | false => simp [Event.not_ageFits_iff, pos_of_isBlank_timeCell hb]
  by_cases hage : key = "createAge"
  · subst hage
    by_cases hpos : 0 < e.creationTime
    · simp [Event.not_ageFits_iff, hpos, Int.not_le.2 hpos]
    · simp [Event.not_ageFits_iff, hpos, Int.not_lt.1 hpos]
  by_cases hcheckin : key = "checkinDateTime" ∨ key = "checkinAge"
  · cases htime : checkinTime ctx e with
    | error error => simp [hdate, hage]
    | ok time => cases time <;> simp [hdate, hage, hcheckin]
  · simp [hdate, hage, hcheckin]

theorem lookup?_checkedCatalog (key : String) :
    checkedCatalog.lookup? key = (eventCatalog.lookup? key).map checked := by
  rw [Catalog.lookup?, checkedCatalog, List.find?_map]
  rfl

/-- An overflow leaves its own cell blank, and every other cell as it is. -/
theorem resolveCell_checkedCatalog (ctx : Context) (row : Nat) (e : Event)
    (request : ColumnRequest) : resolveCell checkedCatalog ctx row e request =
      if Overflows row ctx e request.key then .blank
      else resolveCell eventCatalog ctx row e request := by
  rw [resolveCell, resolveCell, lookup?_checkedCatalog]
  cases hl : eventCatalog.lookup? request.key with
  | none => simp
  | some column =>
    have hkey : column.key = request.key := by simpa using List.find?_some hl
    rw [← hkey, Option.map_some]
    dsimp only
    by_cases h : Overflows row ctx e column.key
    · rw [if_pos h, value_checked_of_overflows h]
    · rw [if_neg h, value_checked_of_not_overflows h]

end EventTable
