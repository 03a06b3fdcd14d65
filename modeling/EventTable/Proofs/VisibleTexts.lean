/-
  EventTable — texts that are never blank.

  * `Visible` holds of a text with a character that is not blank; so do longer texts
    (`Visible.append_left`, `Visible.append_right`) and texts of digits
    (`visible_of_isDigit`);
  * `Shown.exists_digit`: what is shown of a double has a digit, and `visible_apply`: so a
    number is visible by every pattern and with the separators of every language;
  * `isBlank_…` of numbers, spans of time, coordinates and codes: none of them is blank,
    whatever the argument.
-/
import EventTable.Columns.Movement
import EventTable.Columns.StatusCode
import EventTable.Columns.Time
import EventTable.Proofs.Arguments
import EventTable.Proofs.Numerals

namespace EventTable

open Text Number Columns

/-! ## Visible texts -/

namespace Text

/-- The text has a character that is not blank. -/
def Visible (cs : List Char) : Prop := ∃ c ∈ cs, isBlankChar c = false

variable {a b cs : List Char}

theorem isBlank_ofList_eq_false_iff : isBlank (String.ofList cs) = false ↔ Visible cs := by
  rw [isBlank_eq_false_iff, String.toList_ofList]
  rfl

theorem isBlank_ofList (h : Visible cs) : isBlank (String.ofList cs) = false :=
  isBlank_ofList_eq_false_iff.2 h

theorem Visible.append_left (h : Visible a) (b : List Char) : Visible (a ++ b) := by
  obtain ⟨c, hc, hb⟩ := h
  exact ⟨c, List.mem_append_left b hc, hb⟩

theorem Visible.append_right (a : List Char) (h : Visible b) : Visible (a ++ b) := by
  obtain ⟨c, hc, hb⟩ := h
  exact ⟨c, List.mem_append_right a hc, hb⟩

theorem isBlank_append_left {s : String} (h : isBlank s = false) (t : String) :
    isBlank (s ++ t) = false := by
  rw [isBlank_eq_false_iff] at h ⊢
  rw [String.toList_append]
  exact Visible.append_left h _

theorem visible_of_isAlphanum (hne : cs ≠ []) (h : ∀ c ∈ cs, c.isAlphanum = true) :
    Visible cs := by
  obtain ⟨c, cs, rfl⟩ := List.exists_cons_of_ne_nil hne
  exact ⟨c, List.mem_cons_self, isBlankChar_eq_false_of_isAlphanum (h c List.mem_cons_self)⟩

theorem visible_digits (n : Nat) : Visible (digits n) :=
  visible_of_isAlphanum (digits_ne_nil n) fun _ => isAlphanum_of_mem_digits

theorem visible_padded (width n : Nat) : Visible (padded width n) :=
  (visible_digits n).append_right _

theorem visible_signed (n : Int) : Visible (signed n) := by
  rw [signed]
  split
  · exact (visible_digits n.natAbs).append_right ['-']
  · exact visible_digits n.natAbs

end Text

/-! ## Numbers -/

namespace Number

theorem isDigit_of_mem_roundedDigits {places : Nat} {magnitude : Float} {c : Char}
    (h : c ∈ (roundedDigits places magnitude).2) : c.isDigit = true := by
  rw [roundedDigits] at h
  dsimp only at h
  split at h
  · exact absurd h List.not_mem_nil
  · exact isDigit_of_mem_padded h

theorem mem_of_mem_stripZeros {keep : Nat} {ds : List Char} {c : Char}
    (h : c ∈ stripZeros keep ds) : c ∈ ds := by
  rw [stripZeros, List.mem_append, List.mem_reverse] at h
  rcases h with h | h
  · exact List.mem_of_mem_take h
  · have h := (List.dropWhile_sublist _).mem h
    exact List.mem_of_mem_drop (List.mem_reverse.1 h)

/-- What is shown of a double has a digit, in front of the point or behind it. -/
theorem Shown.exists_digit (p : Pattern) (x : Float) :
    ∃ c, (c ∈ (Shown.ofFloat p x).integer ∨ c ∈ (Shown.ofFloat p x).fraction) ∧
      c.isDigit = true := by
  unfold Shown.ofFloat
  generalize (if x.isFinite then x else 0.0) = x
  have hfraction : ∀ c ∈ stripZeros p.minFraction (roundedDigits p.maxFraction x.abs).2,
      c.isDigit = true :=
    fun c hc => isDigit_of_mem_roundedDigits (mem_of_mem_stripZeros hc)
  dsimp only
  generalize stripZeros p.minFraction (roundedDigits p.maxFraction x.abs).2 = fraction at hfraction ⊢
  generalize (roundedDigits p.maxFraction x.abs).1 = whole
  have hinteger : ∀ c ∈ padLeft '0' p.minInteger
      (if whole = 0 ∧ p.minInteger = 0 then [] else digits whole), c.isDigit = true := by
    intro c hc
    rcases eq_or_mem_of_mem_padLeft hc with rfl | hc
    · decide
    · split at hc
      · exact absurd hc List.not_mem_nil
      · exact isDigit_of_mem_digits hc
  generalize padLeft '0' p.minInteger
    (if whole = 0 ∧ p.minInteger = 0 then [] else digits whole) = integer at hinteger ⊢
  cases integer with
  | cons c integer => exact ⟨c, .inl List.mem_cons_self, hinteger c List.mem_cons_self⟩
  | nil =>
    cases fraction with
    | cons c fraction => exact ⟨c, .inr List.mem_cons_self, hfraction c List.mem_cons_self⟩
    | nil => exact ⟨'0', .inl List.mem_cons_self, rfl⟩

theorem mem_grouped_of_mem {separator c : Char} {ds : List Char} (h : c ∈ ds) :
    c ∈ grouped separator ds := by
  induction ds with
  | nil => exact h
  | cons d ds ih =>
    rw [grouped]
    rcases List.mem_cons.1 h with rfl | h
    · split <;> exact List.mem_cons_self
    · split
      · exact List.mem_cons_of_mem d (List.mem_cons_of_mem separator (ih h))
      · exact List.mem_cons_of_mem d (ih h)

/-- A digit is not blank, so it can be seen among the separators. -/
theorem visible_apply (p : Pattern) (symbols : Symbols) (x : Float) :
    Visible ((Shown.ofFloat p x).write p.grouping symbols) := by
  obtain ⟨c, hc, hdigit⟩ := Shown.exists_digit p x
  have hblank : isBlankChar c = false := by
    apply isBlankChar_eq_false_of_isAlphanum
    rw [Char.isAlphanum, hdigit, Bool.or_true]
  refine ⟨c, ?_, hblank⟩
  rw [Shown.write, List.mem_append, List.mem_append]
  rcases hc with hc | hc
  · refine .inl (.inr ?_)
    split
    · exact mem_grouped_of_mem hc
    · exact hc
  · refine .inr ?_
    rw [if_neg (by simpa using List.ne_nil_of_mem hc)]
    exact List.mem_cons_of_mem _ hc

@[simp] theorem isBlank_formatNumberWith (x : Float) (argument default : String)
    (symbols : Symbols) : isBlank (formatNumberWith x argument default symbols) = false :=
  isBlank_ofList (visible_apply ..)

end Number

@[simp] theorem isBlank_formatNumber (ctx : Context) (x : Float) (argument default : String) :
    isBlank (ctx.formatNumber x argument default) = false :=
  isBlank_formatNumberWith ..

/-! ## Spans of time, coordinates and codes -/

@[simp] theorem isBlank_write (f : ElapsedFormat) (span : Int) :
    isBlank (f.write span) = false := by
  have hclock : ∀ n, Visible (ElapsedFormat.writeHoursMinutes n) :=
    fun n => (visible_padded 2 (n / 3600)).append_left _
  rw [ElapsedFormat.write]
  cases f with
  | seconds => exact isBlank_ofList (visible_digits _)
  | hoursMinutesSeconds => exact isBlank_ofList ((hclock _).append_left _)
  | hoursMinutes => exact isBlank_ofList (hclock _)
  | hoursHundredths => exact isBlank_formatNumberWith ..
  | hoursTenths => exact isBlank_formatNumberWith ..

@[simp] theorem isBlank_daysHoursMinutes (n : Nat) : isBlank (daysHoursMinutes n) = false :=
  isBlank_ofList ((((visible_digits (n / 86400)).append_left _).append_left _).append_left _)

@[simp] theorem isBlank_formatCoordinate (h : Hemispheres) (x : Float) (f : CoordinateFormat)
    (symbols : Symbols) : isBlank (formatCoordinate h x f symbols) = false := by
  unfold formatCoordinate
  cases f with
  | decimal argument => exact isBlank_formatNumberWith ..
  | degreesMinutes =>
    refine isBlank_ofList (Visible.append_left ?_ _)
    exact (((visible_digits _).append_left _).append_left _).append_left _
  | degreesMinutesSeconds =>
    refine isBlank_ofList (Visible.append_left ?_ _)
    exact (((visible_digits _).append_left _).append_left _).append_left _

@[simp] theorem isBlank_intText (n : Int) : isBlank (intText n) = false :=
  isBlank_ofList (visible_signed n)

@[simp] theorem isBlank_percentText (level : Float) : isBlank (percentText level) = false :=
  isBlank_ofList ((visible_signed _).append_left ['%'])

@[simp] theorem isBlank_hexCode (code : StatusCode) : isBlank (hexCode code) = false :=
  isBlank_ofList ⟨'0', List.mem_cons_self, rfl⟩

@[simp] theorem isBlank_formatCode (a : StatusArgument) (code : StatusCode) :
    isBlank (a.formatCode code) = false := by
  rw [StatusArgument.formatCode]
  split
  · exact isBlank_ofList (visible_digits _)
  · exact isBlank_hexCode code

@[simp] theorem isBlank_statusDescription (ctx : Context) (code : StatusCode) :
    isBlank (statusDescription ctx code) = false := by
  rw [statusDescription]
  cases h : ((ctx.statusStyle? code).map (trim ·.description)).filter (· ≠ "") with
  | none => exact isBlank_hexCode code
  | some text =>
    obtain ⟨htext, hne⟩ := Option.filter_eq_some_iff.1 h
    obtain ⟨style, -, rfl⟩ := Option.map_eq_some_iff.1 htext
    have hn : trim style.description ≠ "" := of_decide_eq_true hne
    rw [Option.getD_some, isBlank_trim]
    exact Bool.eq_false_iff.2 fun hb => hn ((isBlank_iff _).1 hb)

end EventTable
