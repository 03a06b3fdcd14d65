/-
  EventTable — the texts of decimal numbers.

  * `Numeral` is a number as it may be written: a sign, digits with or without a point, and an
    exponent or nothing; `Numeral.text` is its text and `Numeral.value` the number that is meant;
  * `Numeral.float?_text` and `Numeral.int?_text`: as a double every numeral is read, but as a
    whole number only one with neither point nor exponent;
  * `exists_numeral`: what is read as a finite double is a numeral, and `exists_numeral_signed`:
    so is the text of an integer, which `int?_signed` reads back.
-/
import EventTable.Proofs.Arguments
import EventTable.Proofs.ShownNumbers

namespace EventTable.Number

open Text

/-! ## Numerals -/

/-- **A sign in front of a number**, which may be left out if it is not negative. -/
inductive SignText : Bool → List Char → Prop
  | none : SignText false []
  | plus : SignText false ['+']
  | minus : SignText true ['-']

/-- What follows the whole digits of a number: a point and digits, if there is a fraction, and
    the rest. -/
def afterWhole (fraction? : Option (List Char)) (rest : List Char) : List Char :=
  fraction?.elim rest fun fraction => '.' :: (fraction ++ rest)

/-- **A decimal numeral**, by its parts.  There is a digit in it, before or behind the point, and
    its rest is the exponent. -/
structure Numeral where
  negative : Bool
  sign : List Char
  whole : List Char
  fraction? : Option (List Char)
  rest : List Char
  exponent : ℤ
  isSign : SignText negative sign
  isDigit : ∀ c ∈ whole ++ fraction?.getD [], c.isDigit = true
  ne_nil : whole ++ fraction?.getD [] ≠ []
  reads : exponent? rest = some exponent

namespace Numeral

variable (N : Numeral)

/-- The digits behind the point. -/
def fraction : List Char := N.fraction?.getD []

/-- The numeral behind its whole digits. -/
def tail : List Char := afterWhole N.fraction? N.rest

/-- The numeral as it is written. -/
def text : List Char := N.sign ++ (N.whole ++ N.tail)

/-- The number of the digits. -/
def mantissa : ℕ := natOfDigits (N.whole ++ N.fraction)

/-- The power of ten of the last digit. -/
def scale : ℤ := N.exponent - N.fraction.length

/-- The number without its sign. -/
def magnitude : ℚ := N.mantissa * 10 ^ N.scale

/-- **The number that is meant.** -/
def value : ℚ := signFactor N.negative * N.magnitude

/-- The numeral has a point. -/
def Pointed : Prop := N.fraction? ≠ none

/-- The numeral is made of digits, and a sign, only. -/
def Plain : Prop := N.fraction? = none ∧ N.rest = []

instance : Decidable N.Pointed := inferInstanceAs (Decidable (¬ _))

instance : Decidable N.Plain := inferInstanceAs (Decidable (_ ∧ _))

end Numeral

/-! ## Exponents -/

variable {cs : List Char} {x : Float}

/-- An exponent follows a letter. -/
theorem exponent?_eq_some {e : ℤ} (h : exponent? cs = some e) : cs = [] ∧ e = 0 ∨
    ∃ c ds, cs = c :: ds ∧ (c = 'e' ∨ c = 'E') ∧ int? ds = some e := by
  unfold exponent? at h
  split at h
  · exact .inl ⟨rfl, (Option.some.inj h).symm⟩
  · exact .inr ⟨'e', _, rfl, .inl rfl, h⟩
  · exact .inr ⟨'E', _, rfl, .inr rfl, h⟩
  · exact absurd h.symm (Option.some_ne_none _)

/-- A character of a whole number is a digit or a sign. -/
theorem mem_of_int?_eq_some {k : ℤ} (h : int? cs = some k) {c : Char} (hc : c ∈ cs) :
    c.isDigit = true ∨ c = '+' ∨ c = '-' := by
  rcases int?_eq_some_iff.1 h with ⟨n, hn, -⟩ | ⟨ds, n, rfl, hn, -⟩ | ⟨ds, n, rfl, hn, -⟩
  · exact .inl (hn.isDigit c hc)
  · rcases List.mem_cons.1 hc with rfl | hc
    · exact .inr (.inl rfl)
    · exact .inl (hn.isDigit c hc)
  · rcases List.mem_cons.1 hc with rfl | hc
    · exact .inr (.inr rfl)
    · exact .inl (hn.isDigit c hc)

/-! ## Whole numbers that are written -/

theorem unsigned_digits (n : ℕ) : Unsigned (digits n) n := by
  have h := Unsigned.digits (digits_ne_nil n) fun c => isDigit_of_mem_digits
  rwa [natOfDigits_digits] at h

/-- A whole number that is written is read again. -/
theorem int?_signed (n : ℤ) : int? (signed n) = some n := by
  rw [int?_eq_some_iff, signed]
  split
  · exact .inr (.inr ⟨digits n.natAbs, n.natAbs, rfl, unsigned_digits _, by omega⟩)
  · exact .inl ⟨n.natAbs, unsigned_digits _, by omega⟩

/-- And so is the exponent of a number, which is written with its sign. -/
theorem exponent?_signed (k : ℤ) :
    exponent? ('e' :: ((if true && decide (0 ≤ k) then ['+'] else []) ++ signed k)) = some k := by
  show int? _ = some k
  rw [Bool.true_and]
  by_cases hk : 0 ≤ k
  · have hsigned : signed k = digits k.natAbs := if_neg (not_lt.2 hk)
    rw [if_pos (decide_eq_true hk), hsigned]
    show int? ('+' :: digits k.natAbs) = some k
    rw [int?_plus, digitsOnly?_eq_some_iff.2 (unsigned_digits _), Option.map_some,
      Int.natAbs_of_nonneg hk]
  · rw [if_neg (by simpa using hk)]
    exact int?_signed k

/-! ## Reading a numeral -/

theorem takeWhile_append_of_head {p : Char → Bool} {ds : List Char} (h : ∀ c ∈ cs, p c = true)
    (hhead : ∀ c, ds.head? = some c → p c = false) : (cs ++ ds).takeWhile p = cs := by
  have hstop : ds.takeWhile p = [] := by
    cases ds with
    | nil => rfl
    | cons c ds => exact List.takeWhile_cons_of_neg (by simp [hhead c rfl])
  rw [List.takeWhile_append_of_pos h, hstop, List.append_nil]

theorem dropWhile_append_of_head {p : Char → Bool} {ds : List Char} (h : ∀ c ∈ cs, p c = true)
    (hhead : ∀ c, ds.head? = some c → p c = false) : (cs ++ ds).dropWhile p = ds := by
  rw [List.dropWhile_append_of_pos h]
  cases ds with
  | nil => rfl
  | cons c ds => exact List.dropWhile_cons_of_neg (by simp [hhead c rfl])

theorem signText_minusSign (negative : Bool) : SignText negative (minusSign negative) := by
  cases negative
  · exact .none
  · exact .minus

section
variable {negative : Bool} {sign : List Char} (h : SignText negative sign)
include h

theorem SignText.eq_or_eq {c : Char} (hc : c ∈ sign) : c = '+' ∨ c = '-' := by
  cases h with
  | none => exact absurd hc List.not_mem_nil
  | plus => exact .inl (List.mem_singleton.1 hc)
  | minus => exact .inr (List.mem_singleton.1 hc)

/-- A sign is cut off again, if there is not another one behind it. -/
theorem SignText.signAndRest_append {ds : List Char}
    (hhead : ∀ c, ds.head? = some c → c ≠ '+' ∧ c ≠ '-') :
    signAndRest (sign ++ ds) = (negative, ds) := by
  cases h with
  | none =>
    apply signAndRest_of_no_sign
    · rintro ds rfl
      exact (hhead '-' rfl).2 rfl
    · rintro ds rfl
      exact (hhead '+' rfl).1 rfl
  | plus => rfl
  | minus => rfl

end

namespace Numeral

variable (N : Numeral)

/-- The characters of an exponent. -/
theorem mem_rest {c : Char} (hc : c ∈ N.rest) :
    c.isAlphanum = true ∨ c = '+' ∨ c = '-' := by
  rcases exponent?_eq_some N.reads with ⟨hnil, -⟩ | ⟨e, ds, hcons, he, hint⟩
  · rw [hnil] at hc
    exact absurd hc List.not_mem_nil
  · rw [hcons] at hc
    rcases List.mem_cons.1 hc with rfl | hc
    · exact .inl (by rcases he with rfl | rfl <;> decide)
    · refine (mem_of_int?_eq_some hint hc).imp_left fun hdigit => ?_
      rw [Char.isAlphanum, hdigit, Bool.or_true]

theorem head?_rest {c : Char} (hc : N.rest.head? = some c) : c = 'e' ∨ c = 'E' := by
  rcases exponent?_eq_some N.reads with ⟨hnil, -⟩ | ⟨e, ds, hcons, he, -⟩
  · rw [hnil] at hc
    exact absurd hc.symm (Option.some_ne_none _)
  · rw [hcons] at hc
    exact Option.some.inj hc ▸ he

theorem not_isDigit_head?_rest {c : Char} (hc : N.rest.head? = some c) : c.isDigit = false := by
  rcases N.head?_rest hc with rfl | rfl <;> decide

theorem isDigit_whole : ∀ c ∈ N.whole, c.isDigit = true := fun c hc =>
  N.isDigit c (List.mem_append_left _ hc)

theorem isDigit_fraction : ∀ c ∈ N.fraction, c.isDigit = true := fun c hc =>
  N.isDigit c (List.mem_append_right _ hc)

theorem not_isDigit_head?_tail {c : Char} (hc : N.tail.head? = some c) :
    c.isDigit = false := by
  rw [tail] at hc
  cases hfraction : N.fraction? with
  | none =>
    rw [hfraction] at hc
    exact N.not_isDigit_head?_rest hc
  | some fraction =>
    rw [hfraction] at hc
    obtain rfl := Option.some.inj hc
    decide

theorem fractionAndRest_tail : fractionAndRest N.tail = (N.fraction, N.rest) := by
  rw [tail, fraction]
  cases h : N.fraction? with
  | none =>
    show fractionAndRest N.rest = ([], N.rest)
    unfold fractionAndRest
    split
    · rename_i hpoint
      rcases N.head?_rest (by rw [hpoint]; rfl) with hc | hc <;> exact absurd hc (by decide)
    · rfl
  | some fraction =>
    have hdigits : ∀ c ∈ fraction, c.isDigit = true := by
      have hmem := N.isDigit_fraction
      rwa [Numeral.fraction, h] at hmem
    have hhead : ∀ c, N.rest.head? = some c → c.isDigit = false := fun c =>
      N.not_isDigit_head?_rest
    show ((fraction ++ N.rest).takeWhile _, (fraction ++ N.rest).dropWhile _) = _
    rw [takeWhile_append_of_head hdigits hhead, dropWhile_append_of_head hdigits hhead]
    rfl

/-- Behind the sign stands a digit or the point. -/
theorem head?_whole_append_tail {c : Char} (hc : (N.whole ++ N.tail).head? = some c) :
    c.isDigit = true ∨ c = '.' := by
  cases hwhole : N.whole with
  | cons d ds =>
    rw [hwhole] at hc
    obtain rfl := Option.some.inj hc
    exact .inl (N.isDigit_whole d (hwhole ▸ List.mem_cons_self))
  | nil =>
    have hne := N.ne_nil
    rw [hwhole, List.nil_append] at hne hc
    rw [tail] at hc
    cases hfraction : N.fraction? with
    | none =>
      rw [hfraction] at hne
      exact absurd rfl hne
    | some fraction =>
      rw [hfraction] at hc
      exact .inr (Option.some.inj hc).symm

theorem signAndRest_text : signAndRest N.text = (N.negative, N.whole ++ N.tail) := by
  refine N.isSign.signAndRest_append fun c hc => ?_
  rw [← not_or]
  rintro (rfl | rfl) <;> exact absurd (N.head?_whole_append_tail hc) (by decide)

/-- **Every numeral is read as a double.** -/
theorem float?_text : float? N.text = some (ofDecimal N.negative N.mantissa N.scale) := by
  have htake : (N.whole ++ N.tail).takeWhile Char.isDigit = N.whole :=
    takeWhile_append_of_head N.isDigit_whole fun c => N.not_isDigit_head?_tail
  have hdrop : (N.whole ++ N.tail).dropWhile Char.isDigit = N.tail :=
    dropWhile_append_of_head N.isDigit_whole fun c => N.not_isDigit_head?_tail
  have hdigits : ¬ (N.whole.isEmpty && N.fraction.isEmpty) = true := by
    rw [Bool.and_eq_true, List.isEmpty_iff, List.isEmpty_iff, ← List.append_eq_nil_iff]
    exact N.ne_nil
  have hdecimal : decimal? N.negative (N.whole ++ N.tail) =
      some (ofDecimal N.negative N.mantissa N.scale) := by
    simp only [decimal?, htake, hdrop, N.fractionAndRest_tail]
    rw [if_neg hdigits, N.reads]
    rfl
  simp only [float?, N.signAndRest_text, hdecimal, Option.some_or]

/-- The point stands in front of the fraction only. -/
theorem point_mem_text_iff : '.' ∈ N.text ↔ N.Pointed := by
  have hsign : '.' ∉ N.sign := fun hc => absurd (N.isSign.eq_or_eq hc) (by decide)
  have hwhole : '.' ∉ N.whole := fun hc => absurd (N.isDigit_whole _ hc) (by decide)
  have hrest : '.' ∉ N.rest := fun hc => absurd (N.mem_rest hc) (by decide)
  rw [text, List.mem_append, List.mem_append, or_iff_right hsign, or_iff_right hwhole, tail,
    Pointed]
  cases N.fraction? with
  | none => exact iff_of_false hrest (fun h => h rfl)
  | some fraction => exact iff_of_true List.mem_cons_self (Option.some_ne_none _)

theorem eq_or_mem_of_mem_tail {c : Char} (hc : c ∈ N.tail) :
    c = '.' ∨ c ∈ N.fraction ∨ c ∈ N.rest := by
  rw [tail] at hc
  rw [fraction]
  cases hfraction : N.fraction? with
  | none =>
    rw [hfraction] at hc
    exact .inr (.inr hc)
  | some fraction =>
    rw [hfraction] at hc
    exact (List.mem_cons.1 hc).imp_right List.mem_append.1

/-- The characters of a numeral. -/
theorem mem_text {c : Char} (hc : c ∈ N.text) :
    c.isAlphanum = true ∨ c = '+' ∨ c = '-' ∨ c = '.' := by
  have hdigit : c.isDigit = true → c.isAlphanum = true := fun h => by
    rw [Char.isAlphanum, h, Bool.or_true]
  rw [text, List.mem_append, List.mem_append] at hc
  rcases hc with hc | hc | hc
  · exact .inr ((N.isSign.eq_or_eq hc).imp_right .inl)
  · exact .inl (hdigit (N.isDigit_whole c hc))
  · rcases N.eq_or_mem_of_mem_tail hc with hc | hc | hc
    · exact .inr (.inr (.inr hc))
    · exact .inl (hdigit (N.isDigit_fraction c hc))
    · exact (N.mem_rest hc).imp_right (.imp_right .inl)

/-- No blank stands in a numeral. -/
theorem trimChars_text : trimChars N.text = N.text := by
  refine trimChars_eq_self fun c hc => ?_
  rcases N.mem_text hc with hc | rfl | rfl | rfl
  · exact isBlankChar_eq_false_of_isAlphanum hc
  all_goals decide

theorem Plain.mantissa_eq {N : Numeral} (h : N.Plain) : N.mantissa = natOfDigits N.whole := by
  rw [mantissa, fraction, h.1]
  exact congrArg natOfDigits (List.append_nil _)

theorem Plain.scale_eq {N : Numeral} (h : N.Plain) : N.scale = 0 := by
  have hexponent : N.exponent = 0 := by
    have hreads := N.reads
    rw [h.2] at hreads
    exact (Option.some.inj hreads).symm
  rw [scale, fraction, h.1, hexponent]
  rfl

/-- The number that digits without a point mean. -/
def plainValue : ℤ := if N.negative then -(N.mantissa : ℤ) else N.mantissa

theorem Plain.value_eq {N : Numeral} (h : N.Plain) : N.value = N.plainValue := by
  rw [value, magnitude, h.scale_eq, zpow_zero, mul_one, plainValue, signFactor]
  cases N.negative <;> simp

/-- **As a whole number a numeral is read if it has neither a point nor an exponent.** -/
theorem int?_text : int? N.text = if N.Plain then some N.plainValue else none := by
  have hread : int? N.text =
      (digitsOnly? (N.whole ++ N.tail)).map fun n : ℕ =>
        if N.negative then -(n : ℤ) else n := by
    simp only [int?, N.signAndRest_text]
    cases digitsOnly? (N.whole ++ N.tail) <;> rfl
  rw [hread]
  by_cases hplain : N.Plain
  · rw [if_pos hplain]
    have hafter : N.tail = [] := by
      rw [tail, hplain.1, hplain.2]
      rfl
    have hunsigned : Unsigned N.whole (natOfDigits N.whole) := by
      refine .digits ?_ N.isDigit_whole
      have hne := N.ne_nil
      rwa [hplain.1, Option.getD_none, List.append_nil] at hne
    rw [hafter, List.append_nil, digitsOnly?_eq_some_iff.2 hunsigned, plainValue,
      hplain.mantissa_eq]
    rfl
  · rw [if_neg hplain]
    cases hdigits : digitsOnly? (N.whole ++ N.tail) with
    | none => rfl
    | some n =>
      have hall := (digitsOnly?_eq_some_iff.1 hdigits).isDigit
      have hafter : N.tail = [] := by
        by_contra hne
        obtain ⟨c, cs, hcons⟩ := List.exists_cons_of_ne_nil hne
        have hc : N.tail.head? = some c := by rw [hcons]; rfl
        have hdigit := hall c (List.mem_append_right _ (List.mem_of_mem_head? hc))
        rw [N.not_isDigit_head?_tail hc] at hdigit
        exact Bool.noConfusion hdigit
      rw [tail] at hafter
      cases hfraction : N.fraction? with
      | none =>
        rw [hfraction] at hafter
        exact absurd ⟨hfraction, hafter⟩ hplain
      | some fraction =>
        rw [hfraction] at hafter
        exact absurd hafter (List.cons_ne_nil _ _)

end Numeral

/-- A whole number is written as a numeral. -/
theorem exists_numeral_signed (n : ℤ) : ∃ N : Numeral, N.text = signed n := by
  have hdigits : ∀ c ∈ digits n.natAbs ++ (none : Option (List Char)).getD [], c.isDigit = true := by
    rw [Option.getD_none, List.append_nil]
    exact fun c => isDigit_of_mem_digits
  have hne : digits n.natAbs ++ (none : Option (List Char)).getD [] ≠ [] := by
    rw [Option.getD_none, List.append_nil]
    exact digits_ne_nil _
  refine ⟨⟨n < 0, minusSign (n < 0), digits n.natAbs, none, [], 0, signText_minusSign _, hdigits,
    hne, rfl⟩, ?_⟩
  by_cases hn : n < 0 <;> simp [Numeral.text, Numeral.tail, afterWhole, minusSign, signed, hn]

/-- A whole number is written with digits only. -/
theorem Numeral.plain_of_text_eq_signed (N : Numeral) {n : ℤ} (h : N.text = signed n) :
    N.Plain ∧ N.plainValue = n := by
  have hread := int?_signed n
  rw [← h, N.int?_text] at hread
  split at hread
  · exact ⟨‹N.Plain›, Option.some.inj hread⟩
  · exact absurd hread.symm (Option.some_ne_none _)

/-! ## What is read as a double -/

/-- A sign is cut off. -/
theorem exists_signText (cs : List Char) :
    ∃ sign, SignText (signAndRest cs).1 sign ∧ cs = sign ++ (signAndRest cs).2 := by
  unfold signAndRest
  split
  · exact ⟨['-'], .minus, rfl⟩
  · exact ⟨['+'], .plus, rfl⟩
  · exact ⟨[], .none, rfl⟩

theorem exists_fraction? (cs : List Char) : ∃ fraction? : Option (List Char),
    (fractionAndRest cs).1 = fraction?.getD [] ∧ (∀ c ∈ fraction?.getD [], c.isDigit = true) ∧
      cs = afterWhole fraction? (fractionAndRest cs).2 := by
  unfold fractionAndRest
  split
  · rename_i ds
    refine ⟨some (ds.takeWhile Char.isDigit), rfl, fun c hc => List.mem_takeWhile_imp hc, ?_⟩
    exact congrArg ('.' :: ·) (List.takeWhile_append_dropWhile).symm
  · exact ⟨none, rfl, fun c hc => absurd hc List.not_mem_nil, rfl⟩

theorem word?_eq_some {negative : Bool} (h : word? negative cs = some x) : x.isFinite = false := by
  simp only [word?] at h
  split at h
  · rw [← Option.some.inj h]
    cases negative <;> decide +kernel
  · split at h
    · rw [← Option.some.inj h]
      decide +kernel
    · exact absurd h.symm (Option.some_ne_none _)

theorem exists_numeral_of_decimal? {negative : Bool} {sign ds : List Char}
    (hsign : SignText negative sign) (h : decimal? negative ds = some x) :
    ∃ N : Numeral, N.text = sign ++ ds := by
  obtain ⟨fraction?, hfraction, hdigits, hrest⟩ := exists_fraction? (ds.dropWhile Char.isDigit)
  simp only [decimal?] at h
  split at h
  · exact absurd h.symm (Option.some_ne_none _)
  · rename_i hsome
    obtain ⟨e, he, -⟩ := Option.map_eq_some_iff.1 h
    rw [hfraction, Bool.and_eq_true, List.isEmpty_iff, List.isEmpty_iff,
      ← List.append_eq_nil_iff] at hsome
    have hall : ∀ c ∈ ds.takeWhile Char.isDigit ++ fraction?.getD [], c.isDigit = true := by
      intro c hc
      rcases List.mem_append.1 hc with hc | hc
      · exact List.mem_takeWhile_imp hc
      · exact hdigits c hc
    refine ⟨⟨negative, sign, ds.takeWhile Char.isDigit, fraction?, _, e, hsign, hall, hsome, he⟩, ?_⟩
    have htail : Numeral.tail ⟨negative, sign, ds.takeWhile Char.isDigit, fraction?, _, e,
        hsign, hall, hsome, he⟩ = ds.dropWhile Char.isDigit := hrest.symm
    rw [Numeral.text, htail, List.takeWhile_append_dropWhile]

/-- **What is read as a finite double is a numeral.** -/
theorem exists_numeral (h : float? cs = some x) (hx : x.isFinite = true) :
    ∃ N : Numeral, N.text = cs := by
  obtain ⟨sign, hsign, hcs⟩ := exists_signText cs
  have hread : (decimal? (signAndRest cs).1 (signAndRest cs).2).or
      (word? (signAndRest cs).1 (signAndRest cs).2) = some x := h
  rcases Option.or_eq_some_iff.1 hread with hdecimal | ⟨-, hword⟩
  · rw [hcs]
    exact exists_numeral_of_decimal? hsign hdecimal
  · rw [word?_eq_some hword] at hx
    exact Bool.noConfusion hx

end EventTable.Number
