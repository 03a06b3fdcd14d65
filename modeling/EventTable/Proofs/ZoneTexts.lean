/-
  EventTable — which texts name a time zone.

  * `ClockText` is what follows the sign of an offset, and `clockText_iff`: it is cut
    into hours and minutes as the grammar says;
  * `ZoneText` is the grammar of zones for a kind of numbers, and `parse?_eq_some_iff`:
    the texts that are read are those of the grammar for both kinds;
  * `zones_are_read_with_inner_signs`: without inner signs they are the texts of the
    grammar for decimal digits, and an inner sign is all that sets the others apart.
-/
import EventTable.Calendar.Zone
import EventTable.Proofs.SignedNumerals

namespace EventTable

open Text Number

namespace Calendar

/-! ## The grammar of zones -/

/-- **What follows the sign of an offset**, with the numbers of hours and minutes: two
    numbers with a colon between them, two of two characters each, or the hours. -/
inductive ClockText (Number : List Char → Nat → Prop) : List Char → Nat → Nat → Prop
  | colon {a b h m} : Number a h → Number b m → ClockText Number (a ++ ':' :: b) h m
  | four {a b h m} : a.length = 2 → b.length = 2 → Number a h → Number b m →
      ClockText Number (a ++ b) h m
  | hours {a h} : a.length ≠ 4 → Number a h → ClockText Number a h 0

/-- A sign and less than a day, with the offset in seconds. -/
inductive OffsetText (Number : List Char → Nat → Prop) : List Char → Int → Prop
  | east {r h m} : ClockText Number r h m → h < 24 → m < 60 →
      OffsetText Number ('+' :: r) (h * 3600 + m * 60)
  | west {r h m} : ClockText Number r h m → h < 24 → m < 60 →
      OffsetText Number ('-' :: r) (-(h * 3600 + m * 60))

/-- **The texts of zones**, in upper case and without a name in front. -/
inductive ZoneText (Number : List Char → Nat → Prop) : List Char → Zone → Prop
  | empty : ZoneText Number [] { offset := 0, label := "UTC" }
  | z : ZoneText Number ['Z'] { offset := 0, label := "UTC" }
  | offset {cs o} : OffsetText Number cs o → ZoneText Number cs ⟨o, offsetLabel o⟩

/-- A text without the name that may stand in front of it. -/
inductive Unnamed : List Char → List Char → Prop
  | utc {cs} : Unnamed ("UTC".toList ++ cs) cs
  | gmt {cs} : Unnamed ("GMT".toList ++ cs) cs
  | bare {cs} : ¬ "UTC".toList <+: cs → ¬ "GMT".toList <+: cs → Unnamed cs cs

/-- No sign stands behind the first character. -/
def NoInnerSign (cs : List Char) : Prop := ∀ c ∈ cs.tail, c ≠ '+' ∧ c ≠ '-'

variable {cs r : List Char} {h m : Nat} {o : Int} {zone : Zone}

theorem ClockText.imp {Number Number' : List Char → Nat → Prop}
    (hr : ClockText Number r h m)
    (himp : ∀ a n, (∀ c ∈ a, c ∈ r) → Number a n → Number' a n) : ClockText Number' r h m := by
  cases hr with
  | colon ha hb =>
    refine .colon (himp _ _ (fun c hc => ?_) ha) (himp _ _ (fun c hc => ?_) hb)
    · exact List.mem_append_left _ hc
    · exact List.mem_append_right _ (List.mem_cons_of_mem _ hc)
  | four hla hlb ha hb =>
    refine .four hla hlb (himp _ _ (fun c hc => ?_) ha) (himp _ _ (fun c hc => ?_) hb)
    · exact List.mem_append_left _ hc
    · exact List.mem_append_right _ hc
  | hours hl ha => exact .hours hl (himp _ _ (fun _ hc => hc) ha)

theorem ZoneText.imp {Number Number' : List Char → Nat → Prop} (hcs : ZoneText Number cs zone)
    (himp : ∀ a n, (∀ c ∈ a, c ∈ cs.tail) → Number a n → Number' a n) :
    ZoneText Number' cs zone := by
  cases hcs with
  | empty => exact .empty
  | z => exact .z
  | offset ho =>
    cases ho with
    | east hr hh hm => exact .offset (.east (hr.imp himp) hh hm)
    | west hr hh hm => exact .offset (.west (hr.imp himp) hh hm)

theorem noInnerSign_of_zoneText (hcs : ZoneText Unsigned cs zone) : NoInnerSign cs := by
  have hdigit : ∀ {a n c}, Unsigned a n → c ∈ a → c ≠ '+' ∧ c ≠ '-' := by
    intro a n c ha hc
    have hd := ha.isDigit c hc
    constructor <;> rintro rfl <;> exact absurd hd (by decide)
  have hclock : ∀ {r h m}, ClockText Unsigned r h m → ∀ c ∈ r, c ≠ '+' ∧ c ≠ '-' := by
    intro r h m hr c hc
    cases hr with
    | colon ha hb =>
      rcases List.mem_append.1 hc with hc | hc
      · exact hdigit ha hc
      · rcases List.mem_cons.1 hc with rfl | hc
        · decide
        · exact hdigit hb hc
    | four _ _ ha hb =>
      rcases List.mem_append.1 hc with hc | hc
      · exact hdigit ha hc
      · exact hdigit hb hc
    | hours _ ha => exact hdigit ha hc
  intro c hc
  cases hcs with
  | empty => exact absurd hc List.not_mem_nil
  | z => exact absurd hc List.not_mem_nil
  | offset ho =>
    cases ho with
    | east hr => exact hclock hr c hc
    | west hr => exact hclock hr c hc

/-! ## Reading -/

/-- Hours and minutes are cut as the grammar says. -/
theorem clockText_iff : ClockText Readable r h m ↔
    Readable (Zone.hoursAndMinutes r).1 h ∧ Readable (Zone.hoursAndMinutes r).2 m := by
  constructor
  · intro hr
    cases hr with
    | @colon a b _ _ ha hb =>
      have hcut : cut? ':' (a ++ ':' :: b) = some (a, b) :=
        cut?_eq_some_iff.2 ⟨rfl, ha.colon_not_mem⟩
      rw [Zone.hoursAndMinutes, hcut]
      exact ⟨ha, hb⟩
    | @four a b _ _ hla hlb ha hb =>
      have hcut : cut? ':' (a ++ b) = none := by
        rw [cut?_eq_none_iff, List.mem_append, not_or]
        exact ⟨ha.colon_not_mem, hb.colon_not_mem⟩
      have hlength : (a ++ b).length = 4 := by rw [List.length_append, hla, hlb]
      rw [Zone.hoursAndMinutes, hcut]
      simp only [hlength, if_true, ← hla, List.take_left, List.drop_left]
      exact ⟨ha, hb⟩
    | hours hl ha =>
      rw [Zone.hoursAndMinutes, cut?_eq_none_iff.2 ha.colon_not_mem]
      simp only [hl, if_false]
      exact ⟨ha, readable_zero_iff.2 rfl⟩
  · rintro ⟨hh, hm⟩
    rw [Zone.hoursAndMinutes] at hh hm
    cases hcut : cut? ':' r with
    | some parts =>
      obtain ⟨rfl, -⟩ := cut?_eq_some_iff.1 hcut
      rw [hcut] at hh hm
      exact .colon hh hm
    | none =>
      rw [hcut] at hh hm
      by_cases hl : r.length = 4
      · simp only [hl, if_true] at hh hm
        rw [← List.take_append_drop 2 r]
        exact .four (by simp [hl]) (by simp [hl]) hh hm
      · simp only [hl, if_false] at hh hm
        rw [readable_zero_iff] at hm
        subst hm
        exact .hours hl hh

theorem ofOffset?_eq_some_iff {sign : Int} : Zone.ofOffset? sign r = some zone ↔
    ∃ h m : Nat, ClockText Readable r h m ∧ h < 24 ∧ m < 60 ∧
      zone = ⟨sign * (h * 3600 + m * 60), offsetLabel (sign * (h * 3600 + m * 60))⟩ := by
  have hhours : ∀ cs (k : Int), boundedInt? 0 23 cs = some k ↔
      ∃ n : Nat, k = n ∧ n ≤ 23 ∧ Readable cs n := fun _ _ => boundedInt?_eq_some_iff
  have hminutes : ∀ cs (k : Int), boundedInt? 0 59 cs = some k ↔
      ∃ n : Nat, k = n ∧ n ≤ 59 ∧ Readable cs n := fun _ _ => boundedInt?_eq_some_iff
  simp only [Zone.ofOffset?, Option.bind_eq_bind, Option.bind_eq_some_iff, Option.pure_def,
    hhours, hminutes, Option.some.injEq]
  constructor
  · rintro ⟨_, ⟨h, rfl, hh, hr⟩, _, ⟨m, rfl, hm, hr'⟩, rfl⟩
    exact ⟨h, m, clockText_iff.2 ⟨hr, hr'⟩, by omega, by omega, rfl⟩
  · rintro ⟨h, m, hclock, hh, hm, rfl⟩
    obtain ⟨hr, hr'⟩ := clockText_iff.1 hclock
    exact ⟨h, ⟨h, rfl, by omega, hr⟩, m, ⟨m, rfl, by omega, hr'⟩, rfl⟩

/-- There is one text without the name. -/
theorem unnamed_iff : Unnamed cs r ↔ r = Zone.afterName cs := by
  have hleading : ∀ {p : List Char}, afterLeading? p cs = none ↔ ¬ p <+: cs := by
    intro p
    rw [Option.eq_none_iff_forall_not_mem]
    refine ⟨fun h => ?_, fun h s hs => h ⟨s, (afterLeading?_eq_some_iff.1 hs).symm⟩⟩
    rintro ⟨s, hs⟩
    exact h s (afterLeading?_eq_some_iff.2 hs.symm)
  constructor
  · intro h
    cases h with
    | utc => rw [Zone.afterName, afterLeading?_eq_some_iff.2 rfl, Option.some_or, Option.getD_some]
    | @gmt r =>
      have hutc : afterLeading? "UTC".toList ("GMT".toList ++ r) = none := rfl
      rw [Zone.afterName, hutc, afterLeading?_eq_some_iff.2 rfl, Option.none_or, Option.getD_some]
    | bare hutc hgmt =>
      rw [Zone.afterName, hleading.2 hutc, hleading.2 hgmt, Option.none_or, Option.getD_none]
  · rintro rfl
    rw [Zone.afterName]
    cases hutc : afterLeading? "UTC".toList cs with
    | some r =>
      obtain rfl := afterLeading?_eq_some_iff.1 hutc
      exact .utc
    | none =>
      cases hgmt : afterLeading? "GMT".toList cs with
      | some r =>
        obtain rfl := afterLeading?_eq_some_iff.1 hgmt
        exact .gmt
      | none => exact .bare (hleading.1 hutc) (hleading.1 hgmt)

/-- **The texts that are read** are those of the grammar, with all readable numbers. -/
theorem parse?_eq_some_iff {text : String} : Zone.parse? text = some zone ↔
    ZoneText Readable (Zone.afterName (upperAscii (trimChars text.toList))) zone := by
  rw [Zone.parse?]
  generalize Zone.afterName (upperAscii (trimChars text.toList)) = cs
  constructor
  · intro h
    split at h
    · obtain rfl := Option.some.inj h
      exact .empty
    · obtain rfl := Option.some.inj h
      exact .z
    · obtain ⟨h, m, hr, hh, hm, rfl⟩ := ofOffset?_eq_some_iff.1 h
      rw [Int.one_mul]
      exact .offset (.east hr hh hm)
    · obtain ⟨h, m, hr, hh, hm, rfl⟩ := ofOffset?_eq_some_iff.1 h
      rw [Int.neg_one_mul]
      exact .offset (.west hr hh hm)
    · exact absurd h (by simp)
  · intro h
    cases h with
    | empty => rfl
    | z => rfl
    | offset ho =>
      cases ho with
      | @east r h m hr hh hm =>
        refine ofOffset?_eq_some_iff.2 ⟨h, m, hr, hh, hm, ?_⟩
        rw [Int.one_mul]
      | @west r h m hr hh hm =>
        refine ofOffset?_eq_some_iff.2 ⟨h, m, hr, hh, hm, ?_⟩
        rw [Int.neg_one_mul]

/-- **Zones are read by their grammar, and with inner signs.**  A text is trimmed, brought
    to upper case and freed of its name in one way.  It is read exactly if the rest is a
    text of the grammar in which numbers may have a sign of their own, and then as the
    zone of that grammar; the texts of the grammar for unsigned numbers are those that
    are read and hold no inner sign. -/
theorem zones_are_read_with_inner_signs (text : String) :
    ∃ cs, (∀ cs', Unnamed (upperAscii (trimChars text.toList)) cs' ↔ cs' = cs) ∧
      ∀ zone, (Zone.parse? text = some zone ↔ ZoneText Readable cs zone) ∧
        (ZoneText Unsigned cs zone ↔ Zone.parse? text = some zone ∧ NoInnerSign cs) := by
  refine ⟨_, fun _ => unnamed_iff, fun zone => ⟨parse?_eq_some_iff, ?_⟩⟩
  rw [parse?_eq_some_iff]
  constructor
  · intro h
    exact ⟨h.imp fun _ _ _ hn => .inl hn, noInnerSign_of_zoneText h⟩
  · rintro ⟨h, hsigns⟩
    exact h.imp fun a n ha hn => hn.unsigned fun c hc => hsigns c (ha c hc)

/-- An offset with two signs is read, but no text of the grammar for unsigned numbers. -/
theorem two_signs_make_an_offset :
    Zone.parse? "++5" = some ⟨18000, "+05:00"⟩ ∧
      ∀ cs, Unnamed (upperAscii (trimChars "++5".toList)) cs →
        ∀ zone, ¬ ZoneText Unsigned cs zone := by
  refine ⟨by decide +kernel, fun cs hcs zone hzone => ?_⟩
  have htext : Zone.afterName (upperAscii (trimChars "++5".toList)) = ['+', '+', '5'] := by
    decide +kernel
  rw [unnamed_iff, htext] at hcs
  subst hcs
  exact (noInnerSign_of_zoneText hzone '+' List.mem_cons_self).1 rfl

end Calendar

end EventTable
