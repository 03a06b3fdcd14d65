/-
  EventTable — patterns of date and time, read as one.

  * `Reads` says what a pattern stands for, specifier by specifier, and `items?_eq_some_iff`:
    this is what the scanner finds;
  * `Specifier.not_mem_blank`: no specifier reaches over a blank, so that
    `reads_append_blank_iff`: two patterns with a blank between them are read each on its own;
  * `Shows` holds of the text of a time by a pattern;
  * `date_and_time_are_shown_side_by_side`: so a date with its time is the date, a blank and the
    time, and both by the usual patterns if one of the patterns cannot be read.
-/
import EventTable.Proofs.SortKeys

namespace EventTable

open Text

namespace Calendar

/-! ## What patterns stand for -/

/-- The characters behind a percent sign that say how a number is filled up. -/
inductive PaddingMark : Char → Padding → Prop
  | none : PaddingMark '-' .none
  | blanks : PaddingMark '_' .blanks
  | zeros : PaddingMark '0' .zeros

/-- A run of colons before `z`, and the offset it asks for. -/
inductive OffsetMark : List Char → Item → Prop
  | minutes : OffsetMark [':'] (.offset true false true)
  | seconds : OffsetMark [':', ':'] (.offset true true true)
  | hours : OffsetMark [':', ':', ':'] (.offset false false false)

/-- The numbers of digits that a fraction can be asked for. -/
inductive FractionMark : Char → Nat → Prop
  | milli : FractionMark '3' 3
  | micro : FractionMark '6' 6
  | nano : FractionMark '9' 9

/-- **A specifier**: what can stand behind a percent sign, and the items it stands for. -/
inductive Specifier : List Char → List Item → Prop
  | number {c n p} : numberOf? c = some (n, p) → Specifier [c] [.number n p]
  | filled {mark c n p padding} : PaddingMark mark padding → numberOf? c = some (n, p) →
      Specifier [mark, c] [.number n padding]
  | letter {c is} : lettered? c = some is → Specifier [c] is
  | offset {colons i} : OffsetMark colons i → Specifier (colons ++ ['z']) [i]
  /-- Times are whole seconds, so that a fraction as long as it has to be is empty. -/
  | shortFraction : Specifier ['.', 'f'] []
  | fraction {mark places} : FractionMark mark places →
      Specifier [mark, 'f'] [.fraction false places]
  | pointFraction {mark places} : FractionMark mark places →
      Specifier ['.', mark, 'f'] [.fraction true places]

/-- **What a pattern stands for**: a percent sign and a specifier for the items of that, and any
    other character for itself. -/
inductive Reads : List Char → List Item → Prop
  | nil : Reads [] []
  | literal {c p is} : c ≠ '%' → Reads p is → Reads (c :: p) (.literal c :: is)
  | specifier {s p js is} : Specifier s js → Reads p is → Reads ('%' :: s ++ p) (js ++ is)

/-- The pattern has no unknown and no incomplete specifier. -/
def ReadablePattern (pattern : List Char) : Prop := ∃ is, Reads pattern is

/-! ## What the scanner finds -/

/-- The letter of a number is none of the marks that a longer specifier starts with. -/
theorem specifier?_number {c : Char} {n : NumberItem} {p : Padding}
    (h : numberOf? c = some (n, p)) (r : List Char) :
    specifier? (c :: r) = some ([.number n p], r) := by
  revert h
  fun_cases numberOf? c <;> intro h <;> cases h <;> rfl

theorem specifier?_letter {c : Char} {is : List Item} (h : lettered? c = some is)
    (r : List Char) : specifier? (c :: r) = some (is, r) := by
  revert h
  fun_cases lettered? c <;> intro h <;> cases h <;> rfl

theorem specifier?_filled {mark : Char} {padding : Padding} (hmark : PaddingMark mark padding)
    (c : Char) (r : List Char) : specifier? (mark :: c :: r) =
      (numberOf? c).map fun (n, _) => ([.number n padding], r) := by
  cases hmark <;> rfl

theorem exists_filled {mark c : Char} {padding : Padding} {rest r : List Char} {is : List Item}
    (hmark : PaddingMark mark padding)
    (h : ((numberOf? c).map fun (n, _) => ([Item.number n padding], rest)) = some (is, r)) :
    ∃ s, Specifier s is ∧ mark :: c :: rest = s ++ r := by
  obtain ⟨⟨n, p⟩, hn, heq⟩ := Option.map_eq_some_iff.1 h
  cases heq
  exact ⟨[mark, c], .filled hmark hn, rfl⟩

theorem exists_specifier {cs r : List Char} {is : List Item} (h : specifier? cs = some (is, r)) :
    ∃ s, Specifier s is ∧ cs = s ++ r := by
  revert h
  fun_cases specifier? cs with
  | case1 => rintro ⟨⟩
  | case2 => exact exists_filled .none
  | case3 => exact exists_filled .blanks
  | case4 => exact exists_filled .zeros
  | case5 => rintro ⟨⟩; exact ⟨_, .offset .hours, rfl⟩
  | case6 => rintro ⟨⟩; exact ⟨_, .offset .seconds, rfl⟩
  | case7 => rintro ⟨⟩; exact ⟨_, .offset .minutes, rfl⟩
  | case8 => rintro ⟨⟩; exact ⟨_, .shortFraction, rfl⟩
  | case9 => rintro ⟨⟩; exact ⟨_, .pointFraction .milli, rfl⟩
  | case10 => rintro ⟨⟩; exact ⟨_, .pointFraction .micro, rfl⟩
  | case11 => rintro ⟨⟩; exact ⟨_, .pointFraction .nano, rfl⟩
  | case12 => rintro ⟨⟩; exact ⟨_, .fraction .milli, rfl⟩
  | case13 => rintro ⟨⟩; exact ⟨_, .fraction .micro, rfl⟩
  | case14 => rintro ⟨⟩; exact ⟨_, .fraction .nano, rfl⟩
  | case15 => rintro ⟨⟩; exact ⟨_, .number ‹_›, rfl⟩
  | case16 =>
    intro h
    obtain ⟨is, hletter, heq⟩ := Option.map_eq_some_iff.1 h
    cases heq
    exact ⟨_, .letter hletter, rfl⟩

theorem Specifier.specifier?_append {s : List Char} {is : List Item} (h : Specifier s is)
    (r : List Char) : specifier? (s ++ r) = some (is, r) := by
  cases h with
  | number hn => exact specifier?_number hn r
  | letter hl => exact specifier?_letter hl r
  | filled hmark hn => exact (specifier?_filled hmark _ r).trans (congrArg (Option.map _) hn)
  | offset hmark => cases hmark <;> rfl
  | shortFraction => rfl
  | fraction hmark => cases hmark <;> rfl
  | pointFraction hmark => cases hmark <;> rfl

theorem items?_literal {c : Char} (hc : c ≠ '%') (r : List Char) :
    items? (c :: r) = (items? r).map (.literal c :: ·) := by
  rw [items?, if_neg hc]

theorem items?_specifier {s : List Char} {js : List Item} (h : Specifier s js) (r : List Char) :
    items? ('%' :: s ++ r) = (items? r).map (js ++ ·) := by
  rw [List.cons_append, items?, if_pos rfl]
  split
  · rename_i heq
    cases heq.symm.trans (h.specifier?_append r)
    rfl
  · rename_i heq
    cases heq.symm.trans (h.specifier?_append r)

theorem reads_of_items? {p : List Char} {is : List Item} (h : items? p = some is) :
    Reads p is := by
  fun_induction items? p generalizing is with
  | case1 => cases h; exact .nil
  | case2 r js r' heq _ ih =>
    obtain ⟨ks, hks, rfl⟩ := Option.map_eq_some_iff.1 h
    obtain ⟨s, hs, rfl⟩ := exists_specifier heq
    exact .specifier hs (ih hks)
  | case3 => cases h
  | case4 c r hc ih =>
    obtain ⟨js, hjs, rfl⟩ := Option.map_eq_some_iff.1 h
    exact .literal hc (ih hjs)

/-- **The scanner finds what the pattern stands for.** -/
theorem items?_eq_some_iff {p : List Char} {is : List Item} :
    items? p = some is ↔ Reads p is := by
  refine ⟨reads_of_items?, fun h => ?_⟩
  induction h with
  | nil => rw [items?]
  | literal hc _ ih => rw [items?_literal hc, ih, Option.map_some]
  | specifier hs _ ih => rw [items?_specifier hs, ih, Option.map_some]

instance (pattern : List Char) : Decidable (ReadablePattern pattern) :=
  decidable_of_iff ((items? pattern).isSome = true) <| by
    simp only [Option.isSome_iff_exists, items?_eq_some_iff, ReadablePattern]

/-! ## Two patterns with a blank between them -/

/-- No specifier reaches over a blank. -/
theorem Specifier.not_mem_blank {s : List Char} {is : List Item} (h : Specifier s is) :
    ' ' ∉ s := by
  have hnumber : ∀ {c np}, numberOf? c = some np → ' ' ≠ c := by rintro c np h rfl; cases h
  have hletter : ∀ {c is}, lettered? c = some is → ' ' ≠ c := by rintro c is h rfl; cases h
  cases h with
  | number hn => simp [hnumber hn]
  | letter hl => simp [hletter hl]
  | filled hmark hn => cases hmark <;> simp [hnumber hn]
  | offset hmark => cases hmark <;> decide
  | shortFraction => decide
  | fraction hmark => cases hmark <;> decide
  | pointFraction hmark => cases hmark <;> decide

/-- A text that ends before a mark ends before it in a longer text, too. -/
theorem exists_append_of_not_mem {mark : Char} {s r a b : List Char} (hs : mark ∉ s)
    (h : a ++ mark :: b = s ++ r) : ∃ t, a = s ++ t ∧ r = t ++ mark :: b := by
  obtain ⟨t, rfl, hb⟩ | ⟨t, rfl, hr⟩ := List.append_eq_append_iff.1 h
  · cases t with
    | nil => exact ⟨[], by simp, hb.symm⟩
    | cons c t =>
      obtain rfl : mark = c := (List.cons.inj hb).1
      exact absurd (List.mem_append_right a List.mem_cons_self) hs
  · exact ⟨t, rfl, hr⟩

theorem Reads.append {a b : List Char} {is js : List Item} (ha : Reads a is) (hb : Reads b js) :
    Reads (a ++ b) (is ++ js) := by
  induction ha with
  | nil => exact hb
  | literal hc _ ih => exact .literal hc ih
  | specifier hs _ ih => simpa using Reads.specifier hs ih

theorem Reads.split_blank {a b : List Char} {is : List Item} (h : Reads (a ++ ' ' :: b) is) :
    ∃ is₁ is₂, Reads a is₁ ∧ Reads b is₂ ∧ is = is₁ ++ .literal ' ' :: is₂ := by
  generalize hp : a ++ ' ' :: b = p at h
  induction h generalizing a with
  | nil => simp at hp
  | @literal c p is hc hr ih =>
    obtain ⟨rfl, heq⟩ | ⟨a', rfl, ha'⟩ := List.append_eq_cons_iff.1 hp
    · cases heq
      exact ⟨[], is, .nil, hr, rfl⟩
    · obtain ⟨is₁, is₂, ha, hb, rfl⟩ := ih ha'.symm
      exact ⟨_, is₂, .literal hc ha, hb, rfl⟩
  | @specifier s p js is hs hr ih =>
    obtain ⟨rfl, heq⟩ | ⟨a', rfl, ha'⟩ := List.append_eq_cons_iff.1 hp
    · cases heq
    · -- The specifier ends before the blank, so what follows it has the blank.
      obtain ⟨t, rfl, hrest⟩ := exists_append_of_not_mem hs.not_mem_blank ha'.symm
      obtain ⟨is₁, is₂, ha, hb, rfl⟩ := ih hrest.symm
      exact ⟨js ++ is₁, is₂, .specifier hs ha, hb, by simp⟩

theorem reads_append_blank_iff {a b : List Char} {is : List Item} :
    Reads (a ++ ' ' :: b) is ↔
      ∃ is₁ is₂, Reads a is₁ ∧ Reads b is₂ ∧ is = is₁ ++ .literal ' ' :: is₂ := by
  refine ⟨Reads.split_blank, ?_⟩
  rintro ⟨is₁, is₂, ha, hb, rfl⟩
  exact ha.append (.literal (by decide) hb)

theorem readablePattern_append_blank_iff {a b : List Char} :
    ReadablePattern (a ++ ' ' :: b) ↔ ReadablePattern a ∧ ReadablePattern b := by
  constructor
  · rintro ⟨is, hr⟩
    obtain ⟨is₁, is₂, ha, hb, -⟩ := reads_append_blank_iff.1 hr
    exact ⟨⟨is₁, ha⟩, ⟨is₂, hb⟩⟩
  · rintro ⟨⟨is₁, ha⟩, ⟨is₂, hb⟩⟩
    exact ⟨_, reads_append_blank_iff.2 ⟨is₁, is₂, ha, hb, rfl⟩⟩

/-! ## Texts by patterns -/

/-- **The text of a time by a pattern**: what its items write, one after the other. -/
inductive Shows (m : Moment) : List Char → String → Prop
  | intro {pattern is} : Reads pattern is →
      Shows m pattern (String.ofList (is.flatMap (Item.write m)))

theorem format?_map_eq_some_iff {m : Moment} {pattern : List Char} {text : String} :
    (format? m pattern).map String.ofList = some text ↔ Shows m pattern text := by
  constructor
  · rw [format?, Option.map_map]
    intro h
    obtain ⟨is, hr, rfl⟩ := Option.map_eq_some_iff.1 h
    exact .intro (items?_eq_some_iff.1 hr)
  · rintro ⟨hr⟩
    rw [format?, items?_eq_some_iff.2 hr]
    rfl

theorem format?_map_eq_none_iff {m : Moment} {pattern : List Char} :
    (format? m pattern).map String.ofList = none ↔ ¬ ReadablePattern pattern := by
  rw [format?, Option.map_map, Option.map_eq_none_iff, Option.eq_none_iff_forall_ne_some]
  simp [items?_eq_some_iff, ReadablePattern]

/-- **A text by two patterns** with a blank between them is the text by the one, a blank, and the
    text by the other. -/
theorem shows_append_blank_iff {m : Moment} {a b : List Char} {text : String} :
    Shows m (a ++ ' ' :: b) text ↔
      ∃ date clock, Shows m a date ∧ Shows m b clock ∧ text = date ++ " " ++ clock := by
  constructor
  · rintro ⟨hr⟩
    obtain ⟨is₁, is₂, ha, hb, rfl⟩ := reads_append_blank_iff.1 hr
    refine ⟨_, _, .intro ha, .intro hb, ?_⟩
    rw [← String.toList_inj]
    simp [Item.write]
  · rintro ⟨_, _, ⟨ha⟩, ⟨hb⟩, rfl⟩
    have htext : Shows m _ _ := .intro (reads_append_blank_iff.2 ⟨_, _, ha, hb, rfl⟩)
    rw [List.flatMap_append, List.flatMap_cons, String.ofList_append] at htext
    simpa [Item.write, String.append_assoc] using htext

end Calendar

open Calendar

/-! ## Dates with their times -/

/-- The time has a date. -/
def HasDate (time : Int) : Prop := Moment.earliest ≤ time ∧ time ≤ Moment.latest

/-- Each of the two patterns of a context can be read. -/
def ReadablePatterns (ctx : Context) : Prop :=
  ReadablePattern ctx.dateFormat.toList ∧ ReadablePattern ctx.timeFormat.toList

instance (ctx : Context) : Decidable (ReadablePatterns ctx) := inferInstanceAs (Decidable (_ ∧ _))

/-- The patterns of a date and a time, with a blank between them. -/
def joinedPatterns (date clock : String) : List Char := date.toList ++ ' ' :: clock.toList

section
variable {ctx : Context} {time : Int} {pattern fallback : List Char} {text : String}

/-- **A time is shown by the first pattern that can be read.** -/
theorem formatTimestamp?_eq_some_iff : ctx.formatTimestamp? time pattern fallback = some text ↔
    HasDate time ∧ (Shows ⟨time, ctx.zone.offset⟩ pattern text ∨
      ¬ ReadablePattern pattern ∧ Shows ⟨time, ctx.zone.offset⟩ fallback text) := by
  by_cases ht : HasDate time
  · have hm : ctx.moment? time = some ⟨time, ctx.zone.offset⟩ := if_pos ht
    have hmap : ctx.formatTimestamp? time pattern fallback =
        ((format? ⟨time, ctx.zone.offset⟩ pattern).or
          (format? ⟨time, ctx.zone.offset⟩ fallback)).map String.ofList := by
      rw [Context.formatTimestamp?, hm, Option.map_eq_bind]
      rfl
    rw [hmap, Option.map_or, Option.or_eq_some_iff, format?_map_eq_some_iff,
      format?_map_eq_none_iff, format?_map_eq_some_iff]
    simp only [ht, true_and]
  · have hm : ctx.moment? time = none := if_neg ht
    simp [Context.formatTimestamp?, hm, ht]

theorem eq_none_iff_of_isSome {shown : Option String}
    (h : shown.isSome = decide (Moment.earliest ≤ time ∧ time ≤ Moment.latest)) :
    shown = none ↔ ¬ HasDate time := by
  rw [← Option.not_isSome_iff_eq_none, h, decide_eq_true_eq, HasDate]

end

/-- **A date with its time** is shown as the date, a blank and the time.  Date, time and both are
    shown for the times that have a date, and for no others.  The blank ends every specifier, so
    that neither pattern changes what the other one stands for: if both can be read, the text of
    both is made of the texts of each; and if one of them cannot be read, the text of both is that
    of the usual patterns, with nothing of the other one in it. -/
theorem date_and_time_are_shown_side_by_side (ctx : Context) (time : Int) :
    ((ctx.formatDate? time = none ↔ ¬ HasDate time) ∧
      (ctx.formatTime? time = none ↔ ¬ HasDate time) ∧
      (ctx.formatDateTime? time = none ↔ ¬ HasDate time)) ∧
    (HasDate time → ReadablePatterns ctx →
      ∃ date clock, ctx.formatDate? time = some date ∧ ctx.formatTime? time = some clock ∧
        ctx.formatDateTime? time = some (date ++ " " ++ clock)) ∧
    (HasDate time → ¬ ReadablePatterns ctx →
      ∃ text, ctx.formatDateTime? time = some text ∧
        Shows ⟨time, ctx.zone.offset⟩ (joinedPatterns Default.dateFormat Default.timeFormat)
          text) := by
  refine ⟨⟨?date, ?time, ?both⟩, ?readable, ?unreadable⟩
  case date => exact eq_none_iff_of_isSome (ctx.isSome_formatDate? time)
  case time => exact eq_none_iff_of_isSome (ctx.isSome_formatTime? time)
  case both => exact eq_none_iff_of_isSome (ctx.isSome_formatDateTime? time)
  case readable =>
    rintro ht ⟨⟨is, hdate⟩, ⟨js, hclock⟩⟩
    refine ⟨_, _, formatTimestamp?_eq_some_iff.2 ⟨ht, .inl (.intro hdate)⟩,
      formatTimestamp?_eq_some_iff.2 ⟨ht, .inl (.intro hclock)⟩,
      formatTimestamp?_eq_some_iff.2 ⟨ht, .inl ?_⟩⟩
    exact shows_append_blank_iff.2 ⟨_, _, .intro hdate, .intro hclock, rfl⟩
  case unreadable =>
    intro ht hpatterns
    have husual : ReadablePattern (joinedPatterns Default.dateFormat Default.timeFormat) := by
      decide +kernel
    have hjoined : ¬ ReadablePattern (ctx.dateFormat.toList ++ ' ' :: ctx.timeFormat.toList) :=
      fun h => hpatterns (readablePattern_append_blank_iff.1 h)
    obtain ⟨is, hreads⟩ := husual
    exact ⟨_, formatTimestamp?_eq_some_iff.2 ⟨ht, .inr ⟨hjoined, .intro hreads⟩⟩, .intro hreads⟩

/-- A pattern of dates that is read on its own, beside one of times that ends too early. -/
theorem an_incomplete_clock_is_replaced_with_its_date :
    let ctx : Context := { now := 0, dateFormat := "%d.%m.%Y", timeFormat := "%H.%M" }
    let broken : Context := { ctx with timeFormat := "%H.%M%" }
    HasDate 1700000000 ∧ ReadablePatterns ctx ∧ ¬ ReadablePatterns broken ∧
      (∃ date clock, ctx.formatDate? 1700000000 = some date ∧
        ctx.formatTime? 1700000000 = some clock ∧
        ctx.formatDateTime? 1700000000 = some (date ++ " " ++ clock)) ∧
      ∃ text, broken.formatDateTime? 1700000000 = some text ∧
        Shows ⟨1700000000, 0⟩ (joinedPatterns Default.dateFormat Default.timeFormat) text := by
  intro ctx broken
  have ht : HasDate 1700000000 := ⟨by decide, by decide⟩
  have hctx : ReadablePatterns ctx := by decide +kernel
  have hbroken : ¬ ReadablePatterns broken := by decide +kernel
  exact ⟨ht, hctx, hbroken,
    (date_and_time_are_shown_side_by_side ctx 1700000000).2.1 ht hctx,
    (date_and_time_are_shown_side_by_side broken 1700000000).2.2 ht hbroken⟩

/-- A percent sign at the end does not take the first letter of the other pattern. -/
example : ({ now := 0, dateFormat := "%Y %", timeFormat := "M" } : Context).formatDateTime?
    1700000000 = some "2023/11/14 22:13:20" := by decide +kernel

end EventTable
