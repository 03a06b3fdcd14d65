/-
  EventTable — spans of time that are properties.

  A property that is a number may be shown as a span of time.  Whether it is a number of seconds
  or of hours is told by the text of the number, and not by the number itself.

  * `Datum.Spells d N v x`: the property is the number `v`, which is written as `N` and has the
    double `x`; `exists_spells`: so is every finite number;
  * `Numeral.seconds` are the seconds that its text says, and `propertySeconds_of_spells`: these
    are read;
  * `Datum.Spells.eq_plainValue`, `Datum.Spells.near` and
    `Datum.Spells.roundToInt64_mul_hour_eq_zero`: what the text tells about the number;
  * `elapsed_properties_go_by_their_texts`: which numbers are shown as said, by their value.
-/
import EventTable.Proofs.HoursInSeconds
import EventTable.Proofs.PropertyColumns

namespace EventTable

open Text Number Columns

/-! ## Numbers and their texts -/

/-- **The property is the number** `v`, with the numeral `N` as its text and `x` as its double.
    A whole number and a double are written as they are in JSON. -/
inductive Datum.Spells : Datum → Numeral → ℚ → Float → Prop
  | int {n : ℤ} {N : Numeral} : N.text = signed n → Spells (.int n) N n (Float.ofInt n)
  | float {x : Float} {v : Exact} {N : Numeral} : Exact.ofFloat? x = some v →
      N.text = Datum.writeFloat x → Spells (.float x) N v.value x
  | text {s : String} {x : Float} {N : Numeral} : N.text = trimChars s.toList →
      Number.float? N.text = some x → x.isFinite = true → Spells (.text s) N N.value x

/-- The seconds that a numeral says: with a point it is a number of hours, and with neither a
    point nor an exponent a number of seconds, if that is not too great. -/
def Number.Numeral.seconds (N : Numeral) (x : Float) : ℤ :=
  if N.Pointed then roundToInt64 (x * 3600.0)
  else if N.Plain ∧ minInt64 ≤ N.plainValue ∧ N.plainValue ≤ maxInt64 then N.plainValue
  else 0

variable {d : Datum} {N : Numeral} {v : ℚ} {x : Float} {properties : Properties} {name : String}

/-- **Every finite number has such a text.** -/
theorem exists_spells (h : d.Holds x) (hx : x.isFinite = true) : ∃ N v, d.Spells N v x := by
  cases h with
  | int n =>
    obtain ⟨N, hN⟩ := exists_numeral_signed n
    exact ⟨N, n, .int hN⟩
  | float x =>
    obtain ⟨v, hv⟩ := exists_ofFloat?_of_isFinite hx
    obtain ⟨N, hN, -⟩ := exists_numeral_writeFloat hv
    exact ⟨N, v.value, .float hv hN⟩
  | text hs =>
    obtain ⟨N, hN⟩ := exists_numeral hs hx
    exact ⟨N, N.value, .text hN (hN ▸ hs) hx⟩

/-! ## The seconds that are read -/

/-- No other characters than blanks are trimmed. -/
theorem mem_trimChars_iff {c : Char} (hc : isBlankChar c = false) (cs : List Char) :
    c ∈ trimChars cs ↔ c ∈ cs := by
  have hdrop : ∀ cs : List Char, c ∈ cs.dropWhile isBlankChar ↔ c ∈ cs := by
    intro cs
    have hblank : c ∉ cs.takeWhile isBlankChar := fun hmem => by
      rw [List.mem_takeWhile_imp hmem] at hc
      exact Bool.noConfusion hc
    conv_rhs => rw [← List.takeWhile_append_dropWhile (p := isBlankChar) (l := cs)]
    rw [List.mem_append, or_iff_right hblank]
  rw [trimChars, trimEnd, List.mem_reverse, hdrop, List.mem_reverse, hdrop]

section
variable (h : d.Spells N v x)
include h

/-- The text of the property, but for blanks around it. -/
theorem Datum.Spells.trimChars_propertyText (hd : properties.lookup name = some d) :
    trimChars (propertyText properties name).toList = N.text := by
  rw [propertyText, hd]
  cases h with
  | int hN =>
    show trimChars (String.ofList (signed _)).toList = _
    rw [String.toList_ofList, ← hN, N.trimChars_text]
  | float hx hN =>
    show trimChars (String.ofList (Datum.writeFloat _)).toList = _
    rw [String.toList_ofList, ← hN, N.trimChars_text]
  | text hN => exact hN.symm

/-- A whole number is written without a point. -/
theorem Datum.Spells.float?_text (hN : N.Pointed) :
    Number.float? N.text = some x ∧ x.isFinite = true := by
  cases h with
  | int hint => exact absurd (N.plain_of_text_eq_signed hint).1.1 hN
  | float hx hN => exact ⟨by rw [hN, float?_writeFloat hx], isFinite_of_ofFloat? hx⟩
  | text hN hx hfinite => exact ⟨hx, hfinite⟩

/-- **The seconds of a property** are those that its text says. -/
theorem propertySeconds_of_spells (hd : properties.lookup name = some d) :
    propertySeconds properties name = N.seconds x := by
  have htext := h.trimChars_propertyText hd
  have hpoint : (propertyText properties name).toList.contains '.' = true ↔ N.Pointed := by
    rw [List.contains_iff_mem, ← mem_trimChars_iff (by decide), htext, N.point_mem_text_iff]
  simp only [propertySeconds, Numeral.seconds, hpoint]
  split
  · rename_i hpointed
    obtain ⟨hread, hfinite⟩ := h.float?_text hpointed
    simp only [parseNumber, htext, hread, hfinite, if_true]
  · rw [htext, boundedInt?, N.int?_text]
    by_cases hplain : N.Plain
    · rw [if_pos hplain, Option.filter_some]
      simp only [hplain, true_and, Bool.and_eq_true, decide_eq_true_eq]
      split <;> rfl
    · rw [if_neg hplain, if_neg fun hbounds => hplain hbounds.1]
      rfl

/-! ## What the text tells about the number -/

/-- Digits are written for the number they mean. -/
theorem Datum.Spells.eq_plainValue (hN : N.Plain) : v = N.plainValue := by
  cases h with
  | int hint => rw [(N.plain_of_text_eq_signed hint).2]
  | float hx htext =>
    obtain ⟨N', htext', -, hplain, -⟩ := exists_numeral_writeFloat hx
    have hread := N.int?_text
    rw [htext, ← htext', N'.int?_text, if_neg hplain, if_pos hN] at hread
    exact absurd hread.symm (Option.some_ne_none _)
  | text => exact hN.value_eq

/-- With a point in it, a whole number of 64 bits is near its double. -/
theorem Datum.Spells.near (hN : N.Pointed) {n : ℤ} (hn : v = n) (hlow : minInt64 ≤ n)
    (hhigh : n ≤ maxInt64) : Near x n := by
  rw [← hn]
  cases h with
  | int hint => exact absurd (N.plain_of_text_eq_signed hint).1.1 hN
  | float hx => exact near_value hx
  | text htext hread =>
    rw [N.float?_text] at hread
    rw [← Option.some.inj hread]
    have habs : N.magnitude = n.natAbs := by
      have hnonneg : 0 ≤ N.magnitude := mul_nonneg (Nat.cast_nonneg _) (ten_zpow_pos _).le
      rw [Nat.cast_natAbs, Int.cast_abs, ← hn, Numeral.value, abs_signFactor_mul _ hnonneg]
    apply N.near_value
    rw [habs]
    unfold minInt64 at hlow
    unfold maxInt64 at hhigh
    rcases Nat.eq_zero_or_pos n.natAbs with hzero | hpos
    · exact .inl (by rw [hzero, Nat.cast_zero])
    · refine .inr ⟨by exact_mod_cast hpos, ?_⟩
      exact_mod_cast (by omega : n.natAbs ≤ 2 ^ 64)

/-- A JSON number with a fraction is written with a point, or it is less than a second. -/
theorem Datum.Spells.roundToInt64_mul_hour_eq_zero (hN : ¬ N.Pointed) (hv : ∀ n : ℤ, v ≠ n)
    (hd : ∀ s, d ≠ .text s) : roundToInt64 (x * 3600.0) = 0 := by
  cases h with
  | int => exact absurd rfl (hv _)
  | @float _ w _ hx htext =>
    obtain ⟨N', htext', -, -, hpoint⟩ := exists_numeral_writeFloat hx
    rw [← N.point_mem_text_iff, htext, ← htext', N'.point_mem_text_iff] at hN
    rcases hpoint with hpointed | ⟨n, hn⟩ | hsmall
    · exact absurd hpointed hN
    · refine absurd ?_ (hv (w.signed n))
      rw [Exact.cast_signed, ← hn, Exact.value]
    · exact roundToInt64_mul_hour_of_lt hx hsmall
  | text => exact absurd rfl (hd _)

end

/-! ## Which numbers are shown as said -/

/-- A whole number of 64 bits is shown as that many seconds if it is made of digits only; with a
    point in it only zero is, or what has too many seconds. -/
theorem Datum.Spells.seconds_eq_iff (h : d.Spells N v x) {n : ℤ} (hn : v = n)
    (hlow : minInt64 ≤ n) (hhigh : n ≤ maxInt64) :
    N.seconds x = n ↔ N.Plain ∨ n = 0 ∨ N.Pointed ∧ (n = minInt64 ∨ n = maxInt64) := by
  rw [Numeral.seconds]
  by_cases hpointed : N.Pointed
  · have hplain : ¬ N.Plain := fun hplain => hpointed hplain.1
    rw [if_pos hpointed, (h.near hpointed hn hlow hhigh).roundToInt64_mul_hour_eq_iff hlow hhigh,
      or_iff_right hplain, and_iff_right hpointed]
  · rw [if_neg hpointed]
    by_cases hplain : N.Plain
    · have heq : N.plainValue = n := by
        rw [h.eq_plainValue hplain] at hn
        exact_mod_cast hn
      rw [heq, if_pos ⟨hplain, hlow, hhigh⟩]
      exact iff_of_true rfl (.inl hplain)
    · rw [if_neg fun hbounds => hplain hbounds.1, or_iff_right hplain]
      constructor
      · exact fun hzero => .inl hzero.symm
      · exact fun hor => (hor.resolve_right fun hlimit => hpointed hlimit.1).symm

/-- A number with a fraction is shown as that many hours if it is written with a point. -/
theorem Datum.Spells.seconds_eq_round_iff (h : d.Spells N v x) (hv : ∀ n : ℤ, v ≠ n) :
    N.seconds x = roundToInt64 (x * 3600.0) ↔ N.Pointed ∨ roundToInt64 (x * 3600.0) = 0 := by
  rw [Numeral.seconds]
  by_cases hpointed : N.Pointed
  · rw [if_pos hpointed]
    exact iff_of_true rfl (.inl hpointed)
  · rw [if_neg hpointed, if_neg fun hbounds => hv _ (h.eq_plainValue hbounds.1),
      or_iff_right hpointed]
    exact eq_comm

/-- The cell of a span of time. -/
def elapsedCell (argument : String) (seconds : ℤ) : Cell :=
  (Cell.ofText ((ElapsedFormat.ofArgument argument .hoursMinutesSeconds).write seconds)).withSortKey
    (Float.ofInt seconds)

section
variable {letter : Char} {e : Event} (hname : PropertyName name) (hletter : letter.toUpper = 'H')
  (hproperties : e.attachmentProperties = some properties)
include hname hletter hproperties

/-- A property as a span of time. -/
theorem answer?_elapsed (ctx : Context) (row : ℕ) (argument : String) :
    answer? (eventCatalog.lookup? "attachProp") ctx row e (namedArgument name letter argument) =
      some (.ok (elapsedCell argument (propertySeconds properties name))) := by
  have hanswer : answer? (eventCatalog.lookup? "attachProp") ctx row e
      (namedArgument name letter argument) =
        some (.ok (attachPropCell ctx (namedArgument name letter argument) e)) := rfl
  have hblank : isBlankChar letter = false :=
    isBlankChar_eq_false_of_toUpper (by rw [hletter]; decide)
  have hkind : PropertyKind.ofLetter letter.toUpper = .elapsed := by rw [hletter]; rfl
  have hformat : IgnoresBlanks fun argument =>
      ElapsedFormat.ofArgument argument .hoursMinutesSeconds := fun argument =>
    ElapsedFormat.ofArgument_trim argument .hoursMinutesSeconds
  rw [hanswer, attachPropCell_named hname hblank hproperties]
  simp only [propertyCell, hkind, elapsedCell]
  rw [hformat.trimEnd]

/-- **Spans of time that are properties go by their texts.**  A property that is a number, or a
    text of one, is shown as a span of time, and sorted by it: with a point in the text it has so
    many hours, with digits only so many seconds, and otherwise none.

    So a whole number that is written with a point or an exponent is not shown as that many
    seconds, unless it is zero or has too many seconds for 64 bits.  A number with a fraction is
    shown as so many hours if there is a point in its text, or if these are less than a second;
    this holds for all numbers that are not texts. -/
theorem elapsed_properties_go_by_their_texts (ctx : Context)
    (hd : properties.lookup name = some d) (hx : d.Holds x) (hfinite : x.isFinite = true)
    (row : ℕ) (argument : String) :
    (∃ N v, d.Spells N v x) ∧ ∀ N v, d.Spells N v x →
      answer? (eventCatalog.lookup? "attachProp") ctx row e (namedArgument name letter argument) =
          some (.ok (elapsedCell argument (N.seconds x))) ∧
        (∀ n : ℤ, v = n → minInt64 ≤ n → n ≤ maxInt64 →
          (N.seconds x = n ↔ N.Plain ∨ n = 0 ∨ N.Pointed ∧ (n = minInt64 ∨ n = maxInt64))) ∧
        ((∀ n : ℤ, v ≠ n) →
          (N.seconds x = roundToInt64 (x * 3600.0) ↔
            N.Pointed ∨ roundToInt64 (x * 3600.0) = 0) ∧
          ((∀ s, d ≠ .text s) → N.seconds x = roundToInt64 (x * 3600.0))) := by
  refine ⟨exists_spells hx hfinite, fun N v h => ⟨?_, fun n => h.seconds_eq_iff, fun hv =>
    ⟨h.seconds_eq_round_iff hv, fun htext => ?_⟩⟩⟩
  · rw [answer?_elapsed hname hletter hproperties, propertySeconds_of_spells h hd]
  · rw [h.seconds_eq_round_iff hv]
    by_cases hpointed : N.Pointed
    · exact .inl hpointed
    · exact .inr (h.roundToInt64_mul_hour_eq_zero hpointed hv htext)

end

/-- An hour and a half, as a text with a blank in front. -/
theorem an_hour_and_a_half_is_shown_in_seconds :
    let ctx : Context := { now := 0 }
    let properties : Properties := [("trip", .text " 1.5")]
    let e : Event := { attachmentProperties := some properties }
    answer? (eventCatalog.lookup? "attachProp") ctx 0 e (namedArgument "trip" 'h' "0") =
      some (.ok (elapsedCell "0" 5400)) := by
  intro ctx properties e
  let N : Numeral := {
    negative := false, sign := [], whole := ['1'], fraction? := some ['5'], rest := [], exponent := 0
    isSign := .none
    isDigit := by simp only [List.forall_mem_append, List.forall_mem_singleton, Option.getD]; decide
    ne_nil := List.cons_ne_nil _ _
    reads := rfl }
  have hspells : (Datum.text " 1.5").Spells N N.value 1.5 := .text (by decide) (by rfl) (by rfl)
  have hname : PropertyName "trip" := ⟨by decide, by decide, by decide⟩
  have hletter : 'h'.toUpper = 'H' := by decide
  have hproperties : e.attachmentProperties = some properties := rfl
  have hx : (Datum.text " 1.5").Holds 1.5 := .text (by rfl)
  have hseconds : N.seconds 1.5 = 5400 := by decide +kernel
  obtain ⟨-, h⟩ := elapsed_properties_go_by_their_texts hname hletter hproperties ctx rfl hx
    (by rfl) 0 "0"
  rw [← hseconds]
  exact (h N N.value hspells).1

/-- The number ninety: a minute and a half as a whole number, but ninety hours as a double. -/
theorem ninety_is_shown_in_two_ways :
    let e (d : Datum) : Event := { attachmentProperties := some [("idle", d)] }
    let answer (d : Datum) : Option (Except ResolveError Cell) :=
      answer? (eventCatalog.lookup? "attachProp") { now := 0 } 0 (e d) (namedArgument "idle" 'H' "")
    (Exact.ofFloat? 90.0).map Exact.value = some 90 ∧
      answer (.int 90) = some (.ok (elapsedCell "" 90)) ∧
      answer (.float 90.0) = some (.ok (elapsedCell "" 324000)) ∧
      (elapsedCell "" 90).text = some "00:01:30" ∧
      (elapsedCell "" 324000).text = some "90:00:00" := by
  intro e answer
  have hname : PropertyName "idle" := ⟨by decide, by decide, by decide⟩
  have hanswer : ∀ d, answer d = some (.ok (elapsedCell "" (propertySeconds [("idle", d)] "idle"))) :=
    fun d => answer?_elapsed hname (by decide) rfl { now := 0 } 0 ""
  have hvalue : Exact.ofFloat? 90.0 = some ⟨false, 45 * 2 ^ 47, -46⟩ := by decide +kernel
  have hint : propertySeconds [("idle", .int 90)] "idle" = 90 := by decide +kernel
  have hfloat : propertySeconds [("idle", .float 90.0)] "idle" = 324000 := by decide +kernel
  refine ⟨?_, ?_, ?_, by decide +kernel, by decide +kernel⟩
  · rw [hvalue, Option.map_some, Exact.value, Exact.magnitude_eq]
    norm_num [signFactor]
  · rw [hanswer, hint]
  · rw [hanswer, hfloat]

end EventTable
