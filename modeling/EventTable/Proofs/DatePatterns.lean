/-
  EventTable — what patterns for dates and times show.

  * `month_ofDays` and `weekday_lt`: months and weekdays are those that have names;
  * `Item.isVisible` holds of the items that can be seen, and `visible_write_iff`: they can
    be seen at every time, and the others at none;
  * `ShowsNothing` holds of a pattern without such an item;
  * `blankTime_formatTimestamp?_iff`: a time is shown as a blank text exactly if it is
    dated and the pattern shows nothing.
-/
import EventTable.Proofs.Chronology
import EventTable.Proofs.VisibleTexts

namespace EventTable

open Text

namespace Calendar

/-! ## Months and weekdays -/

/-- A year counted from March has not more days than fit in twelve months. -/
theorem dayOfYear_le {dayOfEra yearOfEra : Nat} (h : dayOfEra < 146097)
    (hy : yearOfEra =
      (dayOfEra - dayOfEra / 1460 + dayOfEra / 36524 - dayOfEra / 146096) / 365) :
    dayOfEra - (365 * yearOfEra + yearOfEra / 4 - yearOfEra / 100) ≤ 366 := by
  omega

theorem month_ofDays (days : Int) :
    1 ≤ (Date.ofDays days).month ∧ (Date.ofDays days).month ≤ 12 := by
  have hera : ((days + 719468) % 146097).toNat < 146097 := by omega
  have hday := dayOfYear_le hera rfl
  unfold Date.ofDays
  dsimp only
  generalize ((days + 719468) % 146097).toNat - _ = dayOfYear at hday ⊢
  split <;> omega

theorem weekday_lt (d : Date) : d.weekday < 7 := by
  unfold Date.weekday
  omega

/-! ## Items that can be seen -/

/-- The item writes a character that is not blank. -/
def Item.isVisible : Item → Bool
  | .literal c => !isBlankChar c
  | .fraction point places => point || places != 0
  | _ => true

theorem visible_twoPlaces (p : Padding) (n : Nat) : Visible (twoPlaces p n) := by
  have hdigit : ∀ d < 10, isBlankChar (Char.ofNat ('0'.toNat + d)) = false := by decide
  refine ⟨Char.ofNat ('0'.toNat + n % 10), ?_, hdigit _ (Nat.mod_lt n (by decide))⟩
  unfold twoPlaces
  split
  · cases p <;> simp
  · simp

theorem visible_fill (p : Padding) (width : Nat) (plus : Bool) (n : Int) :
    Visible (fill p width plus n) := by
  cases p with
  | none => exact (visible_digits _).append_right _
  | zeros => exact (visible_padded ..).append_right _
  | blanks => exact ((visible_digits _).append_right _).append_right _

theorem visible_writeNumber (n : NumberItem) (p : Padding) (m : Moment) :
    Visible (n.write p m) := by
  cases n with
  | year | isoYear | dayOfYear | nanosecond | timestamp => exact visible_fill ..
  | quarter | weekdayFromSunday | weekdayFromMonday => exact visible_digits _
  | century | yearOfCentury | isoYearOfCentury | month | day | weekFromSunday | weekFromMonday
  | isoWeek | hour | hour12 | minute | second => exact visible_twoPlaces ..

theorem visible_nameOf {names : List String} (short : Bool) {n : Nat} (hn : n < names.length)
    (h : ∀ name ∈ names, (name.toList.take 3).any (!isBlankChar ·) = true) :
    Visible (nameOf names short n) := by
  have hname := h _ (List.getElem_mem hn)
  have htake : Visible (names[n].toList.take 3) := by simpa [Visible] using hname
  rw [nameOf, List.getD_eq_getElem _ _ hn]
  split
  · exact htake
  · obtain ⟨c, hc, hb⟩ := htake
    exact ⟨c, List.mem_of_mem_take hc, hb⟩

/-- What can be seen of a pattern does not hang on the time. -/
theorem visible_write_iff (m : Moment) (i : Item) :
    Visible (i.write m) ↔ i.isVisible = true := by
  cases i with
  | literal c => simp [Item.write, Item.isVisible, Visible]
  | number n p => exact iff_of_true (visible_writeNumber n p m) rfl
  | monthName short =>
    have hmonth := month_ofDays (m.clock / 86400)
    have hn : m.date.month - 1 < monthNames.length := by
      show m.date.month - 1 < 12
      unfold Moment.date
      omega
    exact iff_of_true (visible_nameOf short hn (by decide)) rfl
  | weekdayName short =>
    exact iff_of_true (visible_nameOf short (weekday_lt m.date) (by decide)) rfl
  | halfOfDay lower =>
    refine iff_of_true ?_ rfl
    dsimp only [Item.write]
    split <;> exact ⟨_, List.mem_cons_self, rfl⟩
  | fraction point places =>
    cases point with
    | true => exact iff_of_true ⟨'.', List.mem_cons_self, rfl⟩ rfl
    | false =>
      cases places with
      | zero => exact iff_of_false (fun ⟨_, hc, _⟩ => List.not_mem_nil hc) Bool.false_ne_true
      | succ places => exact iff_of_true ⟨'0', List.mem_cons_self, rfl⟩ rfl
  | offset minutes seconds colons =>
    refine iff_of_true ?_ rfl
    show Visible (writeOffset minutes seconds colons m.offset)
    unfold writeOffset
    exact (((visible_padded ..).append_right [_]).append_left _).append_left _

/-- **A pattern shows nothing**: it is readable, and none of its items can be seen. -/
def ShowsNothing (pattern : List Char) : Prop :=
  ∃ is, items? pattern = some is ∧ ∀ i ∈ is, i.isVisible = false

instance (pattern : List Char) : Decidable (ShowsNothing pattern) :=
  decidable_of_iff ((items? pattern).any (·.all (!·.isVisible)) = true) <| by
    rw [ShowsNothing, Option.any_eq_true]
    simp

theorem isBlank_flatMap_iff (m : Moment) (is : List Item) :
    isBlank (String.ofList (is.flatMap (Item.write m))) = true ↔
      ∀ i ∈ is, i.isVisible = false := by
  rw [← Bool.not_eq_false, isBlank_ofList_eq_false_iff]
  constructor
  · intro h i hi
    by_contra hv
    obtain ⟨c, hc, hb⟩ := (visible_write_iff m i).2 (Bool.not_eq_false _ ▸ hv)
    exact h ⟨c, List.mem_flatMap.2 ⟨i, hi, hc⟩, hb⟩
  · rintro h ⟨c, hc, hb⟩
    obtain ⟨i, hi, hc⟩ := List.mem_flatMap.1 hc
    have hv := (visible_write_iff m i).1 ⟨c, hc, hb⟩
    exact Bool.false_ne_true ((h i hi).symm.trans hv)

end Calendar

open Calendar

/-! ## Times that are shown as a blank text -/

/-- A time that is set is shown as a blank text. -/
def BlankTime (time : Int) (text : Option String) : Prop :=
  0 < time ∧ ∃ shown, text = some shown ∧ isBlank shown = true

section
variable (ctx : Context) (time : Int)

/-- An unreadable pattern is replaced by one that can be seen. -/
theorem blankTime_formatTimestamp?_iff {pattern fallback : List Char}
    (hf : (items? fallback).any (·.any Item.isVisible) = true) :
    BlankTime time (ctx.formatTimestamp? time pattern fallback) ↔
      Dated time ∧ ShowsNothing pattern := by
  obtain ⟨is', hfallback, hany⟩ := (Option.any_eq_true ..).1 hf
  obtain ⟨i, hi, hv⟩ := List.any_eq_true.1 hany
  by_cases ht : Moment.earliest ≤ time ∧ time ≤ Moment.latest
  · have hm : ctx.moment? time = some ⟨time, ctx.zone.offset⟩ := if_pos ht
    rw [Context.formatTimestamp?, hm, BlankTime, Dated, ShowsNothing]
    cases hp : items? pattern with
    | none =>
      have hvisible : isBlank (String.ofList (is'.flatMap (Item.write ⟨time, ctx.zone.offset⟩))) =
          false := by
        refine Bool.eq_false_iff.2 fun hb => ?_
        exact Bool.false_ne_true (((isBlank_flatMap_iff _ is').1 hb i hi).symm.trans hv)
      simp [format?, hp, hfallback, hvisible]
    | some is => simp [format?, hp, isBlank_flatMap_iff, ht]
  · have hm : ctx.moment? time = none := if_neg ht
    rw [Context.formatTimestamp?, hm]
    simp [BlankTime, Dated, ht]

theorem blankTime_formatDate?_iff : BlankTime time (ctx.formatDate? time) ↔
    Dated time ∧ ShowsNothing ctx.dateFormat.toList :=
  blankTime_formatTimestamp?_iff ctx time (by decide +kernel)

theorem blankTime_formatTime?_iff : BlankTime time (ctx.formatTime? time) ↔
    Dated time ∧ ShowsNothing ctx.timeFormat.toList :=
  blankTime_formatTimestamp?_iff ctx time (by decide +kernel)

theorem blankTime_formatDateTime?_iff : BlankTime time (ctx.formatDateTime? time) ↔
    Dated time ∧ ShowsNothing (ctx.dateFormat.toList ++ ' ' :: ctx.timeFormat.toList) :=
  blankTime_formatTimestamp?_iff ctx time (by decide +kernel)

end

end EventTable
