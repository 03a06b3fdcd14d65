/-
  EventTable — the colours of the two columns about a check-in.

  * `bandForAge?_eq_some_of_met`: a smaller age that meets the threshold of a band has the
    same band, so that `ageColor?_ne_iff` tells when two ages have different colours;
  * `DescribeCheckin ctx time c c'`: the cells are those for the time of a check-in and for how
    long ago it was;
  * `checkin_colors_differ_for_times_to_come`: both columns describe the same check-in, and in
    the same colour unless it is still to come and a band ends between its age and zero;
  * `a_checkin_to_come_has_two_colors` is one of those.
-/
import EventTable.Proofs.AgeBands
import EventTable.Proofs.OverflowChecks
import EventTable.Proofs.BlankCells

namespace EventTable

open Text Columns AgeBand

/-! ## Colours of ages -/

section
variable {age age' : Int} {bands : List AgeBand} {band : AgeBand}

/-- Of the bands in front of it a smaller age meets none either. -/
theorem bandForAge?_eq_some_of_met (hle : age ≤ age') (h : bandForAge? age' bands = some band)
    (hmet : band.threshold ≤ age) : bandForAge? age bands = some band := by
  obtain ⟨-, before, after, hsplit, hbefore⟩ := List.find?_eq_some_iff_append.1 h
  refine List.find?_eq_some_iff_append.2 ⟨decide_eq_true hmet, before, after, hsplit, ?_⟩
  intro b hb
  have hgreater : age' < b.threshold := by simpa using hbefore b hb
  simpa using Int.lt_of_le_of_lt hle hgreater

theorem bandForAge?_eq_none_of_le (hle : age ≤ age') (h : bandForAge? age' bands = none) :
    bandForAge? age bands = none :=
  bandForAge?_eq_none_iff.2 fun b hb =>
    Int.lt_of_le_of_lt hle (bandForAge?_eq_none_iff.1 h b hb)

/-- The colour that bands give to an age; a blank one counts as none. -/
def ageColor? (age : Int) (bands : List AgeBand) : Option String :=
  (bandForAge? age bands).bind fun band => nonBlank? band.color

/-- **A smaller age has another colour** if it is below the band of the greater one, and that
    has another colour than the band below. -/
theorem ageColor?_ne_iff (hle : age ≤ age') : ageColor? age bands ≠ ageColor? age' bands ↔
    ∃ band, bandForAge? age' bands = some band ∧ age < band.threshold ∧
      ageColor? age bands ≠ nonBlank? band.color := by
  cases h : bandForAge? age' bands with
  | none => simp [ageColor?, h, bandForAge?_eq_none_of_le hle h]
  | some band =>
    have hcolor : ageColor? age' bands = nonBlank? band.color := by
      rw [ageColor?, h, Option.bind_some]
    rw [hcolor]
    constructor
    · intro hne
      refine ⟨band, rfl, Int.not_le.1 fun hmet => hne ?_, hne⟩
      rw [ageColor?, bandForAge?_eq_some_of_met hle h hmet, Option.bind_some]
    · rintro ⟨band', hband, -, hne⟩
      rwa [Option.some.inj hband]

end

theorem Cell.foreground_withAgeBand {c : Cell} (h : c.foreground = none) (age : Int)
    (bands : List AgeBand) :
    (c.withAgeBand (bandForAge? age bands)).foreground = ageColor? age bands := by
  rw [ageColor?]
  cases bandForAge? age bands with
  | none => exact h
  | some band =>
    rw [withAgeBand, h]
    rfl

/-! ## The two columns -/

/-- **The cells describe a check-in**: one says when it was, and the other how long ago. -/
structure DescribeCheckin (ctx : Context) (time : Int) (c c' : Cell) : Prop where
  time_text : c.text = ctx.formatDateTime? time
  time_sortKey : c.sortKey = some (Float.ofInt time)
  age_text : c'.text = some (daysHoursMinutes (max (ctx.ageOf time) 0).toNat)
  age_sortKey : c'.sortKey = some (Float.ofInt (max (ctx.ageOf time) 0))

section
variable {ctx : Context} {e : Event} {c c' : Cell} {row : ℕ} {argument argument' : String}

/-- A cell about a check-in that is not blank is that for its time. -/
theorem exists_checkinTime_of_answer {key : String} {title : Context → String → String}
    {value : Context → Int → Cell}
    (h : answer? (some (checkinColumn key title value)) ctx row e argument = some (.ok c))
    (hb : c.isBlank = false) : ∃ time, checkinTime ctx e = .ok (some time) ∧ c = value ctx time := by
  obtain ⟨known, htime, rfl⟩ := map_eq_ok_iff.1 (Option.some.inj h)
  cases known with
  | none => exact absurd hb.symm Bool.false_ne_true
  | some time => exact ⟨time, htime, rfl⟩

theorem exists_text_of_timeCell {time : Int} {text : Option String}
    (hb : (timeCell time text).isBlank = false) :
    ∃ s, text = some s ∧ timeCell time text = (Cell.ofText s).withSortKey (Float.ofInt time) := by
  cases text with
  | none => exact absurd hb.symm Bool.false_ne_true
  | some s =>
    rw [timeCell] at hb ⊢
    split at hb
    · exact ⟨s, rfl, if_pos ‹_›⟩
    · exact absurd hb.symm Bool.false_ne_true

theorem isBlank_checkinDateTimeCell (ctx : Context) (time : Int) :
    (checkinDateTimeCell ctx time).isBlank =
      (timeCell time (ctx.formatDateTime? time)).isBlank :=
  Cell.isBlank_withAgeBand ..

/-- What the cells show, and what they are sorted by. -/
theorem describeCheckin_of_isBlank_eq_false {time : Int}
    (hb : (checkinDateTimeCell ctx time).isBlank = false) :
    DescribeCheckin ctx time (checkinDateTimeCell ctx time) (checkinAgeCell ctx time) := by
  rw [isBlank_checkinDateTimeCell] at hb
  obtain ⟨s, hs, hcell⟩ := exists_text_of_timeCell hb
  refine ⟨?_, ?_, Cell.text_withAgeBand .., Cell.sortKey_withAgeBand ..⟩
  · rw [text_checkinDateTimeCell, hcell]
    exact hs.symm
  · rw [checkinDateTimeCell, Cell.sortKey_withAgeBand, hcell]
    rfl

theorem foreground_checkinDateTimeCell {time : Int}
    (hb : (checkinDateTimeCell ctx time).isBlank = false) :
    (checkinDateTimeCell ctx time).foreground = ageColor? (ctx.ageOf time) ctx.checkinAgeBands := by
  rw [isBlank_checkinDateTimeCell] at hb
  obtain ⟨s, -, hcell⟩ := exists_text_of_timeCell hb
  rw [checkinDateTimeCell, hcell]
  exact Cell.foreground_withAgeBand rfl ..

theorem foreground_checkinAgeCell (time : Int) : (checkinAgeCell ctx time).foreground =
    ageColor? (max (ctx.ageOf time) 0) ctx.checkinAgeBands :=
  Cell.foreground_withAgeBand rfl ..

/-- The colour of an age and of that age kept from zero on. -/
theorem ageColor?_ne_max_zero_iff {time : Int} {bands : List AgeBand} (ht : 0 < time) :
    ageColor? (ctx.ageOf time) bands ≠ ageColor? (max (ctx.ageOf time) 0) bands ↔
      ctx.now < time ∧ ∃ band, bandForAge? 0 bands = some band ∧ ctx.ageOf time < band.threshold ∧
        ageColor? (ctx.ageOf time) bands ≠ nonBlank? band.color := by
  by_cases hage : 0 ≤ ctx.ageOf time
  · rw [Int.max_eq_left hage]
    refine iff_of_false (fun hne => hne rfl) ?_
    rintro ⟨-, band, hband, hbelow, -⟩
    exact Int.not_lt.2 (Int.le_trans (bandForAge?_eq_some hband).2 hage) hbelow
  · have hneg : ctx.ageOf time < 0 := Int.not_le.1 hage
    have hle : ctx.ageOf time ≤ 0 := Int.le_of_lt hneg
    rw [Int.max_eq_right hle, ageColor?_ne_iff hle, and_iff_right (now_lt_of_ageOf_neg ht hneg)]

end

/-- **The columns about a check-in agree up to now.**  Cells of the same row that are not blank
    describe the same check-in.  Their colours are the same unless it is still to come, and
    its age below zero is below the threshold of the band for the age zero, which the column of
    ages shows it in, and that has another colour. -/
theorem checkin_colors_differ_for_times_to_come {ctx : Context} {row : ℕ} {e : Event}
    {argument argument' : String} {c c' : Cell}
    (hc : answer? (eventCatalog.lookup? "checkinDateTime") ctx row e argument = some (.ok c))
    (hc' : answer? (eventCatalog.lookup? "checkinAge") ctx row e argument' = some (.ok c'))
    (hb : c.isBlank = false) (hb' : c'.isBlank = false) :
    ∃ time, checkinTime ctx e = .ok (some time) ∧ DescribeCheckin ctx time c c' ∧
      (c.foreground ≠ c'.foreground ↔ ctx.now < time ∧
        ∃ band, bandForAge? 0 ctx.checkinAgeBands = some band ∧ ctx.ageOf time < band.threshold ∧
          ageColor? (ctx.ageOf time) ctx.checkinAgeBands ≠ nonBlank? band.color) := by
  have hlookup : eventCatalog.lookup? "checkinDateTime" = some (checkinColumn "checkinDateTime"
    (fixedTitle "col.checkinDateTime" "Last Check-In\nTime") checkinDateTimeCell) := rfl
  have hlookup' : eventCatalog.lookup? "checkinAge" = some (checkinColumn "checkinAge"
    (fixedTitle "col.checkinAge" "Since Last\nCheck-In") checkinAgeCell) := rfl
  rw [hlookup] at hc
  rw [hlookup'] at hc'
  obtain ⟨time, htime, rfl⟩ := exists_checkinTime_of_answer hc hb
  obtain ⟨time', htime', rfl⟩ := exists_checkinTime_of_answer hc' hb'
  obtain rfl : time = time' := Option.some.inj (Except.ok.inj (htime.symm.trans htime'))
  refine ⟨time, htime, describeCheckin_of_isBlank_eq_false hb, ?_⟩
  have ht : 0 < time := by
    rw [isBlank_checkinDateTimeCell] at hb
    exact pos_of_isBlank_timeCell hb
  rw [foreground_checkinDateTimeCell hb, foreground_checkinAgeCell]
  exact ageColor?_ne_max_zero_iff ht

/-- A table that colours all check-ins up to now, with one that was `age` seconds ago. -/
def checkinContext (age : Int) : Context where
  now := 1700000000
  checkinAgeBands := [⟨0, "#00AA00"⟩]
  directory := some (DeviceStore.withLastEvent {} "acme" "truck1" (1700000000 - age)).directory

/-- An hour ago: both columns have the same colour. -/
theorem a_checkin_of_an_hour_ago_has_one_color :
    let ctx := checkinContext 3600
    let e : Event := { accountId := "acme", deviceId := "truck1" }
    ∃ c c', answer? (eventCatalog.lookup? "checkinDateTime") ctx 0 e "" = some (.ok c) ∧
      answer? (eventCatalog.lookup? "checkinAge") ctx 0 e "" = some (.ok c') ∧
      c.isBlank = false ∧ c'.isBlank = false ∧ c.foreground = c'.foreground := by
  intro ctx e
  have htime : checkinTime ctx e = .ok (some 1699996400) := rfl
  have hc : answer? (eventCatalog.lookup? "checkinDateTime") ctx 0 e "" =
      some (.ok (checkinDateTimeCell ctx 1699996400)) := rfl
  have hc' : answer? (eventCatalog.lookup? "checkinAge") ctx 0 e "" =
      some (.ok (checkinAgeCell ctx 1699996400)) := rfl
  have hb : (checkinDateTimeCell ctx 1699996400).isBlank = false := by decide +kernel
  have hb' : (checkinAgeCell ctx 1699996400).isBlank = false := by decide +kernel
  refine ⟨_, _, hc, hc', hb, hb', ?_⟩
  obtain ⟨time, htime', -, hcolor⟩ := checkin_colors_differ_for_times_to_come hc hc' hb hb'
  obtain rfl : 1699996400 = time := Option.some.inj (Except.ok.inj (htime.symm.trans htime'))
  by_contra hne
  exact absurd (hcolor.1 hne).1 (by decide)

/-- In a minute: the column of times has no colour, and the column of ages that of now. -/
theorem a_checkin_to_come_has_two_colors :
    let ctx := checkinContext (-60)
    let e : Event := { accountId := "acme", deviceId := "truck1" }
    ∃ c c', answer? (eventCatalog.lookup? "checkinDateTime") ctx 0 e "" = some (.ok c) ∧
      answer? (eventCatalog.lookup? "checkinAge") ctx 0 e "" = some (.ok c') ∧
      c.isBlank = false ∧ c'.isBlank = false ∧
      c.foreground = none ∧ c'.foreground = some "#00AA00" := by
  intro ctx e
  exact ⟨_, _, rfl, rfl, by decide +kernel, by decide +kernel, by decide +kernel, by decide +kernel⟩

end EventTable
