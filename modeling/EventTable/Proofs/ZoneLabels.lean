/-
  EventTable — the labels of time zones, read back.

  * `WholeMinutes` holds of the offsets that zones have: whole minutes, and less than a
    day; `wholeMinutes_of_offsetText`: the grammar has no others;
  * `parse?_offsetLabel`: the label of such an offset is a text of the grammar, and read as
    the zone with that offset and that label;
  * `zone_of_toContext`: the zone of the settings is the one that titles and cells have;
  * `zone_labels_are_read_as_their_zones` puts these together.
-/
import EventTable.Proofs.Arguments
import EventTable.Proofs.Numerals
import EventTable.Proofs.ZoneTexts
import EventTable.Settings.Basic

namespace EventTable

open Text Number

/-! ## Written numbers -/

namespace Number

/-- What is written with leading zeros is a numeral. -/
theorem unsigned_padded (width n : Nat) : Unsigned (padded width n) n := by
  have hne : padded width n ≠ [] := by
    rw [padded, padLeft, Ne, List.append_eq_nil_iff, not_and]
    exact fun _ => digits_ne_nil n
  have h := Unsigned.digits hne fun _ => isDigit_of_mem_padded
  rwa [natOfDigits_padded] at h

end Number

namespace Calendar

/-! ## Offsets -/

/-- A whole number of minutes, and less than a day to the east or to the west. -/
structure WholeMinutes (offset : Int) : Prop where
  minutes : offset % 60 = 0
  bound : offset.natAbs ≤ 86340

variable {cs : List Char} {o : Int} {zone : Zone}

/-- An offset has hours and minutes of its own. -/
theorem wholeMinutes_of_offsetText {Number : List Char → Nat → Prop} (h : OffsetText Number cs o) :
    WholeMinutes o := by
  cases h with
  | east _ hh hm => exact ⟨by omega, by omega⟩
  | west _ hh hm => exact ⟨by omega, by omega⟩

theorem wholeMinutes_of_zoneText {Number : List Char → Nat → Prop} (h : ZoneText Number cs zone) :
    WholeMinutes zone.offset := by
  cases h with
  | empty => exact ⟨rfl, by decide⟩
  | z => exact ⟨rfl, by decide⟩
  | offset ho => exact wholeMinutes_of_offsetText ho

/-! ## Labels -/

/-- The characters of a label: signs, a colon and digits. -/
theorem eq_of_mem_offsetLabel {c : Char} (h : c ∈ (offsetLabel o).toList) :
    c ∈ ['+', '-', ':'] ∨ ∃ d < 10, c = Nat.digitChar d := by
  have hpadded : ∀ {n}, c ∈ padded 2 n → ∃ d < 10, c = Nat.digitChar d := by
    intro n hc
    rcases eq_or_mem_of_mem_padLeft hc with rfl | hc
    · exact ⟨0, by decide, rfl⟩
    · exact exists_of_mem_toDigits (by decide) hc
  rw [offsetLabel, String.toList_ofList, List.cons_append, List.mem_cons, List.mem_append,
    List.mem_cons] at h
  rcases h with rfl | hc | rfl | hc
  · left
    split <;> decide
  · exact .inr (hpadded hc)
  · exact .inl (by decide)
  · exact .inr (hpadded hc)

/-- A label is read as it stands: nothing is trimmed, there are no small letters, and no
    name stands in front. -/
theorem afterName_offsetLabel (o : Int) :
    Zone.afterName (upperAscii (trimChars (offsetLabel o).toList)) = (offsetLabel o).toList := by
  have hsigns : ∀ c ∈ ['+', '-', ':'], isBlankChar c = false ∧ c.toUpper = c :=
    List.forall_mem_cons.2 ⟨by decide, List.forall_mem_cons.2 ⟨by decide,
      List.forall_mem_singleton.2 (by decide)⟩⟩
  have hdigits : ∀ d < 10, isBlankChar (Nat.digitChar d) = false ∧
      (Nat.digitChar d).toUpper = Nat.digitChar d := by decide
  have hplain : ∀ c ∈ (offsetLabel o).toList, isBlankChar c = false ∧ c.toUpper = c := by
    intro c hc
    rcases eq_of_mem_offsetLabel hc with hc | ⟨d, hd, rfl⟩
    · exact hsigns c hc
    · exact hdigits d hd
  have hupper : upperAscii (offsetLabel o).toList = (offsetLabel o).toList :=
    (List.map_congr_left fun c hc => (hplain c hc).2).trans (List.map_id _)
  rw [trimChars_eq_self fun c hc => (hplain c hc).1, hupper, offsetLabel, String.toList_ofList]
  split <;> rfl

/-- The label of an offset is a text of the grammar. -/
theorem offsetText_offsetLabel (h : WholeMinutes o) :
    OffsetText Unsigned (offsetLabel o).toList o := by
  obtain ⟨hminutes, hbound⟩ := h
  have hclock : ClockText Unsigned
      (padded 2 (o.natAbs / 3600) ++ ':' :: padded 2 (o.natAbs / 60 % 60))
      (o.natAbs / 3600) (o.natAbs / 60 % 60) :=
    .colon (unsigned_padded 2 _) (unsigned_padded 2 _)
  rw [offsetLabel, String.toList_ofList]
  split
  · have hwest := OffsetText.west hclock (by omega) (by omega)
    rwa [show -(((o.natAbs / 3600 : Nat) : Int) * 3600 + (o.natAbs / 60 % 60 : Nat) * 60) = o by
      omega] at hwest
  · have heast := OffsetText.east hclock (by omega) (by omega)
    rwa [show ((o.natAbs / 3600 : Nat) : Int) * 3600 + (o.natAbs / 60 % 60 : Nat) * 60 = o by
      omega] at heast

/-- **A label is read as the zone that it stands for.** -/
theorem parse?_offsetLabel (h : WholeMinutes o) :
    Zone.parse? (offsetLabel o) = some ⟨o, offsetLabel o⟩ := by
  rw [parse?_eq_some_iff, afterName_offsetLabel]
  exact (ZoneText.offset (offsetText_offsetLabel h)).imp fun _ _ _ hn => .inl hn

/-- **What the label of a zone says**: universal time, or the offset. -/
inductive Named : Zone → Prop
  | utc : Named { offset := 0, label := "UTC" }
  | offset {label : String} {o : Int} : OffsetText Unsigned label.toList o → Named ⟨o, label⟩

theorem Named.of_zoneText {Number : List Char → Nat → Prop} (h : ZoneText Number cs zone) :
    Named zone := by
  cases h with
  | empty => exact .utc
  | z => exact .utc
  | offset ho => exact .offset (offsetText_offsetLabel (wholeMinutes_of_offsetText ho))

theorem parse?_label {Number : List Char → Nat → Prop} (h : ZoneText Number cs zone) :
    Zone.parse? zone.label = some zone := by
  cases h with
  | empty => decide +kernel
  | z => decide +kernel
  | offset ho => exact parse?_offsetLabel (wholeMinutes_of_offsetText ho)

end Calendar

open Calendar

/-! ## Contexts of settings -/

theorem zone_of_toContext {s : Settings} {now : Int} {directory : Option Directory} {ctx : Context}
    (h : s.toContext now directory = .ok ctx) : Zone.parse? s.timezone = some ctx.zone := by
  unfold Settings.toContext at h
  cases hz : Zone.parse? s.timezone with
  | none => simp [hz, bind, Except.bind] at h
  | some zone =>
    cases hs : Settings.stylesByCode s.statusStyles with
    | error e => simp [hz, hs, bind, Except.bind] at h
    | ok styles =>
      simp only [hz, hs, bind, Except.bind, pure, Except.pure, Except.ok.injEq] at h
      rw [← h]

/-- Times are shown on the clock of the zone. -/
theorem offset_of_moment? {ctx : Context} {time : Int} {m : Moment}
    (h : ctx.moment? time = some m) : m.offset = ctx.zone.offset := by
  rw [Context.moment?, Moment.ofTimestamp?] at h
  split at h
  · obtain rfl := Option.some.inj h
    rfl
  · cases h

/-- **The label of a zone is read as that zone.**  A text that is read as a zone has an offset
    of whole minutes, less than a day, and a label that names this offset and is read as the
    same zone again.  In a context made with the text, the label that titles show is read as
    the offset of every time that is shown. -/
theorem zone_labels_are_read_as_their_zones {text : String} {zone : Zone}
    (h : Zone.parse? text = some zone) :
    (zone.offset % 60 = 0 ∧ zone.offset.natAbs ≤ 86340) ∧ Named zone ∧
      Zone.parse? zone.label = some zone ∧
      ∀ (s : Settings) now directory ctx, s.timezone = text → s.toContext now directory = .ok ctx →
        ctx.titleValues.lookup "timezone" = some zone.label ∧
          ∀ time m, ctx.moment? time = some m →
            Zone.parse? zone.label = some ⟨m.offset, zone.label⟩ := by
  have htext := parse?_eq_some_iff.1 h
  obtain ⟨hminutes, hbound⟩ := wholeMinutes_of_zoneText htext
  refine ⟨⟨hminutes, hbound⟩, .of_zoneText htext, parse?_label htext, ?contexts⟩
  case contexts =>
    intro s now directory ctx hs hctx
    have hzone := zone_of_toContext hctx
    rw [hs, h] at hzone
    obtain rfl := Option.some.inj hzone
    refine ⟨rfl, fun time m hm => ?_⟩
    rw [offset_of_moment? hm]
    exact parse?_label htext

/-- Minutes to the west of a zero of hours, in small letters and with blanks. -/
theorem minutes_to_the_west_are_read_again :
    let s : Settings := { timezone := " gmt-0:45\t" }
    let zone : Zone := ⟨-2700, "-00:45"⟩
    Zone.parse? s.timezone = some zone ∧
      (zone.offset % 60 = 0 ∧ zone.offset.natAbs ≤ 86340) ∧ Named zone ∧
      Zone.parse? zone.label = some zone ∧
      ∃ ctx m, s.toContext 0 none = .ok ctx ∧ ctx.moment? 0 = some m ∧
        ctx.titleValues.lookup "timezone" = some zone.label ∧
        Zone.parse? zone.label = some ⟨m.offset, zone.label⟩ := by
  intro s zone
  have h : Zone.parse? s.timezone = some zone := by decide +kernel
  obtain ⟨hoffset, hnamed, hlabel, hcontexts⟩ := zone_labels_are_read_as_their_zones h
  have hmade : (s.toContext 0 none).toOption.any fun ctx => (ctx.moment? 0).isSome := by
    decide +kernel
  refine ⟨h, hoffset, hnamed, hlabel, ?_⟩
  cases hctx : s.toContext 0 none with
  | error e => simp [hctx, Except.toOption] at hmade
  | ok ctx =>
    rw [hctx] at hmade
    have hshown : (ctx.moment? 0).isSome = true := hmade
    obtain ⟨m, hm⟩ := Option.isSome_iff_exists.1 hshown
    obtain ⟨htitle, hcells⟩ := hcontexts s 0 none ctx rfl hctx
    exact ⟨ctx, m, rfl, hm, htitle, hcells 0 m hm⟩

end EventTable
