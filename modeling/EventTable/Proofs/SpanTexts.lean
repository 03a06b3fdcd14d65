/-
  EventTable — spans of time, read back from their texts.

  * `HourMinuteText`, `HourMinuteSecondText` and `DayHourMinuteText` say which seconds a text of
    hours and minutes, or of days, stands for: `01:01`, `01:01:01` and `0d 01h 01m`;
  * `HourMinuteSecondText.unique`: a text with seconds stands for no other number of them;
  * `spans_are_read_back_from_their_texts`: the texts of spans, and of the age of a check-in,
    stand for what they were made of.
-/
import EventTable.Proofs.CheckinColors
import EventTable.Proofs.DigitFields

namespace EventTable

open Text Columns ElapsedFormat

/-! ## Texts of spans -/

/-- **Hours and minutes** for `n` seconds: two digits at least for the hours, and two for the
    minutes. -/
inductive HourMinuteText : List Char → ℕ → Prop
  | intro {hs ms : List Char} {hours minutes : ℕ} : LeadingField 2 hs hours →
      TwoDigits 60 ms minutes →
      HourMinuteText (hs ++ ':' :: ms) (hours * 3600 + minutes * 60)

/-- **Hours, minutes and seconds** for `n` seconds. -/
inductive HourMinuteSecondText : List Char → ℕ → Prop
  | intro {hs ms ss : List Char} {hours minutes seconds : ℕ} : LeadingField 2 hs hours →
      TwoDigits 60 ms minutes → TwoDigits 60 ss seconds →
      HourMinuteSecondText (hs ++ ':' :: ms ++ ':' :: ss) (hours * 3600 + minutes * 60 + seconds)

/-- **Days, hours and minutes** for `n` seconds. -/
inductive DayHourMinuteText : List Char → ℕ → Prop
  | intro {ds hs ms : List Char} {days hours minutes : ℕ} : LeadingField 1 ds days →
      TwoDigits 24 hs hours → TwoDigits 60 ms minutes →
      DayHourMinuteText (ds ++ 'd' :: ' ' :: hs ++ 'h' :: ' ' :: ms ++ ['m'])
        (days * 86400 + hours * 3600 + minutes * 60)

/-- **The seconds can be read** from the text. -/
theorem HourMinuteSecondText.unique {text : List Char} {n n' : ℕ}
    (h : HourMinuteSecondText text n) (h' : HourMinuteSecondText text n') : n = n' := by
  generalize htext : text = text' at h'
  obtain ⟨hhours, hminutes, hseconds⟩ := h
  obtain ⟨hhours', hminutes', hseconds'⟩ := h'
  obtain ⟨htext, rfl⟩ := hseconds.append_inj hseconds' [':'] htext
  obtain ⟨rfl, rfl⟩ := hminutes.append_inj hminutes' [':'] htext
  obtain rfl := hhours.value.symm.trans hhours'.value
  rfl

/-! ## Spans and ages -/

theorem hourMinuteText_writeHoursMinutes (n : ℕ) :
    HourMinuteText (writeHoursMinutes n) (n - n % 60) := by
  have htext : HourMinuteText _ _ := .intro (leadingField_padded Nat.two_pos (n / 3600))
    (twoDigits_padded (show n % 3600 / 60 < 60 by omega) (by decide))
  rwa [show n / 3600 * 3600 + n % 3600 / 60 * 60 = n - n % 60 by omega] at htext

theorem hourMinuteSecondText_write (span : ℤ) :
    HourMinuteSecondText (hoursMinutesSeconds.write span).toList span.toNat := by
  obtain ⟨n, hn⟩ : ∃ n, n = span.toNat := ⟨_, rfl⟩
  have htext : HourMinuteSecondText _ _ := .intro (leadingField_padded Nat.two_pos (n / 3600))
    (twoDigits_padded (show n % 3600 / 60 < 60 by omega) (by decide))
    (twoDigits_padded (show n % 60 < 60 by omega) (by decide))
  rw [show n / 3600 * 3600 + n % 3600 / 60 * 60 + n % 60 = n by omega] at htext
  rw [write, writeNat, String.toList_ofList, ← hn]
  exact htext

theorem dayHourMinuteText_daysHoursMinutes (n : ℕ) :
    DayHourMinuteText (daysHoursMinutes n).toList (n - n % 60) := by
  have htext : DayHourMinuteText _ _ := .intro (leadingField_digits (n / 86400))
    (twoDigits_padded (show n % 86400 / 3600 < 24 by omega) (by decide))
    (twoDigits_padded (show n % 3600 / 60 < 60 by omega) (by decide))
  rw [show n / 86400 * 86400 + n % 86400 / 3600 * 3600 + n % 3600 / 60 * 60 = n - n % 60 by omega]
    at htext
  rw [daysHoursMinutes, String.toList_ofList]
  exact htext

theorem write_hoursMinutesSeconds_eq_iff (span span' : ℤ) :
    hoursMinutesSeconds.write span = hoursMinutesSeconds.write span' ↔
      max span 0 = max span' 0 := by
  constructor
  · intro heq
    have htext := hourMinuteSecondText_write span
    rw [heq] at htext
    have htotals := htext.unique (hourMinuteSecondText_write span')
    omega
  · intro hspans
    rw [write, write, show span.toNat = span'.toNat by omega]

theorem value_checkinAgeCell (ctx : Context) (time : ℤ) :
    (checkinAgeCell ctx time).value = daysHoursMinutes (max (ctx.ageOf time) 0).toNat :=
  Cell.value_of_text (Cell.text_withAgeBand ..) (isBlank_daysHoursMinutes _)

theorem answer?_checkinAge {ctx : Context} {e : Event} {time : ℤ}
    (htime : checkinTime ctx e = .ok (some time)) (row : ℕ) (argument : String) :
    answer? (eventCatalog.lookup? "checkinAge") ctx row e argument =
      some (.ok (checkinAgeCell ctx time)) := by
  have hlookup : eventCatalog.lookup? "checkinAge" = some (checkinColumn "checkinAge"
    (fixedTitle "col.checkinAge" "Since Last\nCheck-In") checkinAgeCell) := rfl
  have hcell : ((checkinTime ctx e).map fun time => (time.map (checkinAgeCell ctx)).getD .blank) =
      .ok (checkinAgeCell ctx time) := by
    rw [htime]
    rfl
  rw [hlookup]
  exact congrArg some hcell

/-- **Spans are read back from their texts.**  The text with seconds stands for the span, and the
    texts without for all its whole minutes; a negative span, or age, counts as zero.  The fields
    behind the first one have two digits and are below the next unit, and the first one takes
    all the rest: hours and days are not limited.  So spans that are not negative have different
    texts with seconds. -/
theorem spans_are_read_back_from_their_texts :
    (∀ span : ℤ,
      HourMinuteSecondText (hoursMinutesSeconds.write span).toList (max span 0).toNat) ∧
    (∀ span : ℤ, HourMinuteText (hoursMinutes.write span).toList
      (max span 0 - max span 0 % 60).toNat) ∧
    (∀ ctx row e argument time, checkinTime ctx e = .ok (some time) →
      ∃ cell, answer? (eventCatalog.lookup? "checkinAge") ctx row e argument = some (.ok cell) ∧
        DayHourMinuteText cell.value.toList
          (max (ctx.ageOf time) 0 - max (ctx.ageOf time) 0 % 60).toNat) ∧
    ∀ span span' : ℤ, hoursMinutesSeconds.write span = hoursMinutesSeconds.write span' ↔
      max span 0 = max span' 0 := by
  refine ⟨?seconds, ?minutes, ?ages, write_hoursMinutesSeconds_eq_iff⟩
  case seconds =>
    intro span
    rw [show (max span 0).toNat = span.toNat by omega]
    exact hourMinuteSecondText_write span
  case minutes =>
    intro span
    rw [write, writeNat, String.toList_ofList,
      show (max span 0 - max span 0 % 60).toNat = span.toNat - span.toNat % 60 by omega]
    exact hourMinuteText_writeHoursMinutes _
  case ages =>
    intro ctx row e argument time htime
    refine ⟨checkinAgeCell ctx time, answer?_checkinAge htime row argument, ?_⟩
    generalize hage : max (ctx.ageOf time) 0 = age
    have hnonneg : 0 ≤ age := by omega
    rw [value_checkinAgeCell, hage, show (age - age % 60).toNat = age.toNat - age.toNat % 60 by
      omega]
    exact dayHourMinuteText_daysHoursMinutes _

/-- A hundred days without a check-in, and a minute. -/
theorem a_check_in_of_long_ago_is_read_back :
    let ctx := checkinContext 8640119
    let e : Event := { accountId := "acme", deviceId := "truck1" }
    checkinTime ctx e = .ok (some 1691359881) ∧
      ∃ cell, answer? (eventCatalog.lookup? "checkinAge") ctx 0 e "" = some (.ok cell) ∧
        DayHourMinuteText cell.value.toList 8640060 := by
  intro ctx e
  have htime : checkinTime ctx e = .ok (some 1691359881) := rfl
  exact ⟨htime, spans_are_read_back_from_their_texts.2.2.1 ctx 0 e "" 1691359881 htime⟩

/-- Hours of more than two digits. -/
example : hoursMinutesSeconds.write 360061 = "100:01:01" := by decide

end EventTable
