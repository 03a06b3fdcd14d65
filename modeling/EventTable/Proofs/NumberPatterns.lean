/-
  EventTable — which texts are patterns for numbers, and which pattern an argument selects.

  * `TrimsTo text cs`: the text is `cs` with blank characters around it, and `trimsTo_iff`:
    every text is so in one way, the one of `trimChars`;
  * `PatternText` is the grammar of patterns, with the pattern that each text stands for, and
    `Pattern.parse?_eq_some_iff`: the texts that are read are those of the grammar, trimmed;
  * `UsedFor` says which pattern is used for an argument and a default pattern, and
    `usedFor_iff`: it is the one of `Pattern.ofArgument`;
  * `patterns_are_selected_by_arguments` puts these together for the numbers that are shown.
-/
import EventTable.Proofs.NumberTexts
import EventTable.Proofs.PropertyColumns

namespace EventTable

open Text Number

/-! ## Trimming -/

namespace Text

/-- **A trimmed text**: what is left between the blank characters at both ends. -/
structure TrimsTo (text cs : List Char) : Prop where
  around : ∃ front back, text = front ++ cs ++ back ∧ (∀ c ∈ front, isBlankChar c = true) ∧
    ∀ c ∈ back, isBlankChar c = true
  head : ∀ c ∈ cs.head?, isBlankChar c = false
  last : ∀ c ∈ cs.getLast?, isBlankChar c = false

variable {text cs : List Char}

theorem trimEnd_append_of_blank {back : List Char} (h : ∀ c ∈ back, isBlankChar c = true)
    (cs : List Char) : trimEnd (cs ++ back) = trimEnd cs := by
  have hreverse : ∀ c ∈ back.reverse, isBlankChar c = true := fun c hc =>
    h c (List.mem_reverse.1 hc)
  rw [trimEnd, List.reverse_append, List.dropWhile_append_of_pos hreverse, trimEnd]

theorem trimEnd_eq_self (h : ∀ c ∈ cs.getLast?, isBlankChar c = false) : trimEnd cs = cs := by
  refine List.rdropWhile_eq_self_iff.2 fun hne => ?_
  rw [h _ (List.getLast?_eq_getLast_of_ne_nil hne)]
  nofun

theorem dropWhile_eq_self (h : ∀ c ∈ cs.head?, isBlankChar c = false) :
    cs.dropWhile isBlankChar = cs := by
  cases cs with
  | nil => rfl
  | cons c cs =>
    rw [List.dropWhile_cons_of_neg]
    rw [h c rfl]
    nofun

theorem trimsTo_trimChars (text : List Char) : TrimsTo text (trimChars text) where
  around := by
    refine ⟨text.takeWhile isBlankChar,
      (text.dropWhile isBlankChar).rtakeWhile isBlankChar, ?_, ?_, ?_⟩
    · show text = _ ++ (text.dropWhile isBlankChar).rdropWhile isBlankChar ++ _
      rw [List.append_assoc, List.rdropWhile_append_rtakeWhile, List.takeWhile_append_dropWhile]
    · exact fun c hc => List.mem_takeWhile_imp hc
    · exact fun c hc => List.mem_rtakeWhile_imp hc
  head := by
    intro c hc
    obtain ⟨rest, hrest⟩ := List.head?_eq_some_iff.1 hc
    exact isBlankChar_of_trimChars_eq (hrest ▸ trimChars_trimChars text)
  last := by
    intro c hc
    obtain ⟨hne, rfl⟩ := List.mem_getLast?_eq_getLast hc
    exact Bool.eq_false_iff.2 (List.rdropWhile_last_not isBlankChar _ hne)

/-- Every text is trimmed in one way. -/
theorem trimsTo_iff : TrimsTo text cs ↔ trimChars text = cs := by
  constructor
  · rintro ⟨⟨front, back, rfl, hfront, hback⟩, hhead, hlast⟩
    calc trimChars (front ++ cs ++ back)
        = trimEnd ((cs ++ back).dropWhile isBlankChar) := by
          rw [trimChars, List.append_assoc, List.dropWhile_append_of_pos hfront]
      _ = (trimEnd (cs ++ back)).dropWhile isBlankChar := (dropWhile_trimEnd _).symm
      _ = cs.dropWhile isBlankChar := by
          rw [trimEnd_append_of_blank hback, trimEnd_eq_self hlast]
      _ = cs := dropWhile_eq_self hhead
  · rintro rfl
    exact trimsTo_trimChars text

end Text

/-! ## The grammar of patterns -/

namespace Number

/-- **The texts that are patterns**, and the pattern that each of them stands for: characters
    `0`, `#` and `,`, and behind a point, if there is one, characters `0` and `#`; a point on
    its own is no pattern. -/
inductive PatternText : List Char → Pattern → Prop
  | whole {integer} : (∀ c ∈ integer, c ∈ ['0', '#', ',']) → integer ≠ [] →
      PatternText integer
        { minInteger := integer.count '0'
          minFraction := 0
          maxFraction := 0
          grouping := decide (',' ∈ integer) }
  | pointed {integer fraction} : (∀ c ∈ integer, c ∈ ['0', '#', ',']) →
      (∀ c ∈ fraction, c ∈ ['0', '#']) → integer ≠ [] ∨ fraction ≠ [] →
      PatternText (integer ++ '.' :: fraction)
        { minInteger := integer.count '0'
          minFraction := min (min 15 fraction.length) (fraction.count '0')
          maxFraction := min 15 fraction.length
          grouping := decide (',' ∈ integer) }

/-- A text that is a pattern once it is trimmed. -/
def StandsFor (text : List Char) (p : Pattern) : Prop := ∃ cs, TrimsTo text cs ∧ PatternText cs p

variable {text integer fraction cs : List Char} {p : Pattern}

theorem standsFor_iff : StandsFor text p ↔ PatternText (trimChars text) p := by
  simp only [StandsFor, trimsTo_iff, exists_eq_left']

theorem point_notMem (h : ∀ c ∈ integer, c ∈ ['0', '#', ',']) : '.' ∉ integer := fun hmem =>
  absurd (h '.' hmem) (by decide)

/-- The parts of a pattern are what its text says. -/
theorem Pattern.ofParts_eq (integer fraction : List Char) : Pattern.ofParts integer fraction =
    { minInteger := integer.count '0'
      minFraction := min (min 15 fraction.length) (fraction.count '0')
      maxFraction := min 15 fraction.length
      grouping := decide (',' ∈ integer) } := by
  rw [Pattern.ofParts, List.contains_eq_mem, Nat.min_comm (fraction.count '0')]
  rfl

/-- The two parts of a text that is read. -/
theorem patternText_iff : PatternText cs p ↔
    (∀ c ∈ (Pattern.parts cs).1, c ∈ ['0', '#', ',']) ∧
      (∀ c ∈ (Pattern.parts cs).2, c ∈ ['0', '#']) ∧
      ((Pattern.parts cs).1 ≠ [] ∨ (Pattern.parts cs).2 ≠ []) ∧
      p = Pattern.ofParts (Pattern.parts cs).1 (Pattern.parts cs).2 := by
  constructor
  · intro h
    cases h with
    | whole hinteger hne =>
      rw [Pattern.parts, cut?_eq_none_iff.2 (point_notMem hinteger)]
      exact ⟨hinteger, fun c hc => absurd hc List.not_mem_nil, .inl hne,
        (Pattern.ofParts_eq _ []).symm⟩
    | pointed hinteger hfraction hne =>
      rw [Pattern.parts, cut?_eq_some_iff.2 ⟨rfl, point_notMem hinteger⟩]
      exact ⟨hinteger, hfraction, hne, (Pattern.ofParts_eq ..).symm⟩
  · rintro ⟨hinteger, hfraction, hne, rfl⟩
    rw [Pattern.parts] at *
    cases hcut : cut? '.' cs with
    | none =>
      rw [hcut] at hinteger hne
      rw [Option.getD_none, Pattern.ofParts_eq]
      exact .whole hinteger (hne.resolve_right fun h => h rfl)
    | some parts =>
      obtain ⟨rfl, -⟩ := cut?_eq_some_iff.1 hcut
      rw [hcut] at hinteger hfraction hne
      rw [Option.getD_some, Pattern.ofParts_eq]
      exact .pointed hinteger hfraction hne

/-- **The texts that are read** are those of the grammar, trimmed. -/
theorem Pattern.parse?_eq_some_iff {text : String} :
    Pattern.parse? text = some p ↔ StandsFor text.toList p := by
  rw [standsFor_iff, patternText_iff, Pattern.parse?]
  generalize Pattern.parts (trimChars text.toList) = parts
  obtain ⟨integer, fraction⟩ := parts
  have hread : (integer.all (fun c => c == '0' || c == '#' || c == ',') &&
      fraction.all (fun c => c == '0' || c == '#') &&
      !(integer.isEmpty && fraction.isEmpty)) = true ↔
        (∀ c ∈ integer, c ∈ ['0', '#', ',']) ∧ (∀ c ∈ fraction, c ∈ ['0', '#']) ∧
          (integer ≠ [] ∨ fraction ≠ []) := by
    simp only [Bool.and_eq_true, List.all_eq_true, Bool.or_eq_true, beq_iff_eq,
      Bool.not_eq_true', Bool.and_eq_false_iff, List.isEmpty_eq_false_iff, List.mem_cons,
      List.not_mem_nil, or_false, or_assoc, and_assoc]
  dsimp only
  rw [Option.ite_none_right_eq_some, hread, Option.some.injEq, eq_comm, and_assoc, and_assoc]

theorem Pattern.parse?_eq_none_iff {text : String} :
    Pattern.parse? text = none ↔ ∀ p, ¬ StandsFor text.toList p := by
  simp only [← Pattern.parse?_eq_some_iff, Option.eq_none_iff_forall_ne_some, ne_eq]

/-! ## The pattern of an argument -/

/-- **The arguments without a pattern**, trimmed: those that are blank, that start neither
    with `#` nor with a digit, or that have no pattern behind the `#`. -/
inductive NoPattern : List Char → Prop
  | blank : NoPattern []
  | other {c rest} : c ≠ '#' → c.isDigit = false → NoPattern (c :: rest)
  | refused {rest} : (∀ p, ¬ StandsFor rest p) → NoPattern ('#' :: rest)

/-- **The pattern that is used** for a trimmed argument and a default: the pattern behind `#`,
    as many fraction digits as a digit says, else the default if that is a pattern, and else
    the pattern for whole numbers. -/
inductive UsedFor : List Char → List Char → Pattern → Prop
  | explicit {rest default p} : StandsFor rest p → UsedFor ('#' :: rest) default p
  | digit {n rest default} : n < 10 → UsedFor (Nat.digitChar n :: rest) default
      { minInteger := 1, minFraction := n, maxFraction := n, grouping := false }
  | default {argument default p} : NoPattern argument → StandsFor default p →
      UsedFor argument default p
  | whole {argument default} : NoPattern argument → (∀ p, ¬ StandsFor default p) →
      UsedFor argument default
        { minInteger := 1, minFraction := 0, maxFraction := 0, grouping := false }

section
variable {argument default : String} {c : Char} {rest : List Char}

theorem digitChar_of_lt_ten : ∀ n < 10, (Nat.digitChar n).isDigit = true ∧
    (Nat.digitChar n).toNat - '0'.toNat = n ∧ Nat.digitChar n ≠ '#' := by
  decide

theorem exists_digitChar (h : c.isDigit = true) : ∃ n < 10, Nat.digitChar n = c := by
  have hc := isDigit_iff.1 h
  refine ⟨c.toNat - 48, by omega, ?_⟩
  rw [← Char.toNat_inj, Nat.toNat_digitChar_of_lt_ten (by omega)]
  show 48 + (c.toNat - 48) = c.toNat
  omega

/-- What a digit selects is a pattern with exactly so many fraction digits. -/
theorem Pattern.parse?_digitPattern : ∀ n < 10, Pattern.parse? (digitPattern n) =
    some { minInteger := 1, minFraction := n, maxFraction := n, grouping := false } := by
  decide

theorem selectPattern_explicit (h : trimChars argument.toList = '#' :: rest) :
    selectPattern argument default = String.ofList rest := by
  rw [selectPattern, h]
  rfl

theorem selectPattern_cons (h : trimChars argument.toList = c :: rest) (hc : c ≠ '#') :
    selectPattern argument default =
      if c.isDigit then digitPattern (c.toNat - '0'.toNat) else default := by
  rw [selectPattern, h]
  split
  · contradiction
  · rename_i heq
    exact absurd (List.cons.inj heq).1 hc
  · rename_i heq
    obtain ⟨rfl, -⟩ := List.cons.inj heq
    rfl

/-- Without a pattern of the argument only the default counts. -/
theorem ofArgument_of_noPattern (h : NoPattern cs) (hcs : trimChars argument.toList = cs) :
    Pattern.ofArgument argument default = (Pattern.parse? default).getD .whole := by
  rw [Pattern.ofArgument]
  cases h with
  | blank => rw [selectPattern, hcs, Option.or_self]
  | other hc hdigit =>
    rw [selectPattern_cons hcs hc, hdigit, if_neg Bool.false_ne_true, Option.or_self]
  | @refused rest hrest =>
    have hnone : Pattern.parse? (String.ofList rest) = none :=
      Pattern.parse?_eq_none_iff.2 (by rwa [String.toList_ofList])
    rw [selectPattern_explicit hcs, hnone, Option.none_or]

theorem ofArgument_explicit (h : StandsFor rest p) (hcs : trimChars argument.toList = '#' :: rest) :
    Pattern.ofArgument argument default = p := by
  have hsome : Pattern.parse? (String.ofList rest) = some p :=
    Pattern.parse?_eq_some_iff.2 (by rwa [String.toList_ofList])
  rw [Pattern.ofArgument, selectPattern_explicit hcs, hsome, Option.some_or, Option.getD_some]

theorem ofArgument_digit {n : ℕ} (hn : n < 10)
    (hcs : trimChars argument.toList = Nat.digitChar n :: rest) :
    Pattern.ofArgument argument default =
      { minInteger := 1, minFraction := n, maxFraction := n, grouping := false } := by
  obtain ⟨hdigit, hvalue, hne⟩ := digitChar_of_lt_ten n hn
  rw [Pattern.ofArgument, selectPattern_cons hcs hne, hdigit, if_pos rfl, hvalue,
    Pattern.parse?_digitPattern n hn, Option.some_or, Option.getD_some]

theorem NoPattern.exists_usedFor (h : NoPattern cs) (default : List Char) :
    ∃ p, UsedFor cs default p := by
  by_cases hdefault : ∃ p, StandsFor default p
  · obtain ⟨p, hp⟩ := hdefault
    exact ⟨p, .default h hp⟩
  · exact ⟨_, .whole h (not_exists.1 hdefault)⟩

/-- Every argument is one of those with a pattern and those without. -/
theorem exists_usedFor (cs default : List Char) : ∃ p, UsedFor cs default p := by
  cases cs with
  | nil => exact NoPattern.blank.exists_usedFor default
  | cons c rest =>
    by_cases hc : c = '#'
    · subst hc
      by_cases hrest : ∃ p, StandsFor rest p
      · obtain ⟨p, hp⟩ := hrest
        exact ⟨p, .explicit hp⟩
      · exact (NoPattern.refused (not_exists.1 hrest)).exists_usedFor default
    · cases hdigit : c.isDigit with
      | false => exact (NoPattern.other hc hdigit).exists_usedFor default
      | true =>
        obtain ⟨n, hn, rfl⟩ := exists_digitChar hdigit
        exact ⟨_, .digit hn⟩

theorem UsedFor.eq_ofArgument (h : UsedFor cs default.toList p)
    (hcs : trimChars argument.toList = cs) : p = Pattern.ofArgument argument default := by
  cases h with
  | explicit hp => exact (ofArgument_explicit hp hcs).symm
  | digit hn => exact (ofArgument_digit hn hcs).symm
  | default hnone hp =>
    rw [ofArgument_of_noPattern hnone hcs, Pattern.parse?_eq_some_iff.2 hp, Option.getD_some]
  | whole hnone hdefault =>
    rw [ofArgument_of_noPattern hnone hcs, Pattern.parse?_eq_none_iff.2 hdefault, Option.getD_none]
    rfl

/-- **The pattern that is used** is the one that the argument and the default say. -/
theorem usedFor_iff : UsedFor (trimChars argument.toList) default.toList p ↔
    p = Pattern.ofArgument argument default := by
  constructor
  · exact fun h => h.eq_ofArgument rfl
  · intro h
    obtain ⟨q, hq⟩ := exists_usedFor (trimChars argument.toList) default.toList
    rwa [h, ← hq.eq_ofArgument rfl]

/-- Blanks inside a pattern are refused, those around it are not. -/
example : Pattern.ofArgument "\u2003# #,##0.0# " "0.000" = ⟨1, 1, 2, true⟩ ∧
    Pattern.ofArgument "#0 .0" "0.000" = ⟨1, 3, 3, false⟩ := by
  decide

end

/-- **Patterns are selected by arguments.**  A text is read as a pattern exactly if it is one
    of the grammar once it is trimmed, and then as the pattern of the grammar.  Every argument
    is trimmed in one way, for that and any default one pattern is to be used, with no more
    fraction digits asked for than shown and no more than fifteen shown, and every number is
    shown by it. -/
theorem patterns_are_selected_by_arguments :
    (∀ text p, Pattern.parse? text = some p ↔ StandsFor text.toList p) ∧
    ∀ argument default : String, ∃ cs p,
      (∀ cs', TrimsTo argument.toList cs' ↔ cs' = cs) ∧
      (∀ q, UsedFor cs default.toList q ↔ q = p) ∧
      p.minFraction ≤ p.maxFraction ∧ p.maxFraction ≤ 15 ∧
      ∀ x symbols, formatNumberWith x argument default symbols = p.apply symbols x := by
  refine ⟨fun text p => Pattern.parse?_eq_some_iff, fun argument default => ?_⟩
  obtain ⟨hmin, hmax⟩ := Pattern.ofArgument_bounds argument default
  exact ⟨trimChars argument.toList, Pattern.ofArgument argument default,
    fun _ => trimsTo_iff.trans eq_comm, fun _ => usedFor_iff, hmin, hmax, fun _ _ => rfl⟩

end Number

end EventTable
