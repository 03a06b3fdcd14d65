/-
  EventTable — what the text of a number looks like.

  * `Grouped separator ds text`: the digits `ds` are written as `text`, in groups of three
    counted from the right; `grouped_grouped` says that `grouped` does so, and
    `Grouped.filter` that the digits are what is left without the separators;
  * `p.Shows units whole fraction`: the digits that the pattern `p` has shown of so many
    units of its last place;
  * `shows_ofFloat` and `negative_ofFloat_iff`: the digits and the sign of a double;
  * `numbers_are_shown_by_their_patterns`: the text, for every double, argument, default and
    pair of separators.
-/
import EventTable.Number.Render
import EventTable.Proofs.VisibleTexts
import Mathlib.Algebra.Group.Nat.Defs

namespace EventTable

open Text Number

/-! ## Digits -/

namespace Text

variable {a b cs : List Char} {n : ℕ}

theorem natOfDigits_append (a b : List Char) :
    natOfDigits (a ++ b) = natOfDigits a * 10 ^ b.length + natOfDigits b := by
  rw [natOfDigits, Nat.ofDigitChars_append, Nat.ofDigitChars_eq_ofDigitChars_zero, Nat.mul_comm]
  rfl

theorem natOfDigits_cons (c : Char) (cs : List Char) :
    natOfDigits (c :: cs) = (c.toNat - '0'.toNat) * 10 ^ cs.length + natOfDigits cs := by
  have hone : natOfDigits [c] = c.toNat - '0'.toNat := by
    rw [natOfDigits, Nat.ofDigitChars_cons, Nat.ofDigitChars_nil, Nat.mul_zero, Nat.zero_add]
  rw [← hone]
  exact natOfDigits_append [c] cs

theorem natOfDigits_replicate_zero (n : ℕ) : natOfDigits (List.replicate n '0') = 0 := by
  rw [natOfDigits, Nat.ofDigitChars_replicate_zero, Nat.mul_zero]

theorem isDigit_iff {c : Char} : c.isDigit = true ↔ 48 ≤ c.toNat ∧ c.toNat ≤ 57 := by
  rw [Char.isDigit, Bool.and_eq_true, decide_eq_true_iff, decide_eq_true_iff]
  exact Iff.rfl

theorem natOfDigits_lt (h : ∀ c ∈ cs, c.isDigit = true) : natOfDigits cs < 10 ^ cs.length := by
  induction cs with
  | nil => exact Nat.one_pos
  | cons c cs ih =>
    obtain ⟨hc, hcs⟩ := List.forall_mem_cons.1 h
    have hlt := ih hcs
    have hdigit := isDigit_iff.1 hc
    have hle : c.toNat - '0'.toNat ≤ 9 := by
      show c.toNat - 48 ≤ 9
      omega
    have hmul := Nat.mul_le_mul_right (10 ^ cs.length) hle
    rw [natOfDigits_cons, List.length_cons, Nat.pow_succ]
    omega

theorem natOfDigits_eq_zero_iff (h : ∀ c ∈ cs, c.isDigit = true) :
    natOfDigits cs = 0 ↔ ∀ c ∈ cs, c = '0' := by
  induction cs with
  | nil => exact iff_of_true rfl (fun _ hc => absurd hc List.not_mem_nil)
  | cons c cs ih =>
    obtain ⟨hc, hcs⟩ := List.forall_mem_cons.1 h
    have hdigit := isDigit_iff.1 hc
    have hzero : c.toNat - '0'.toNat = 0 ↔ c = '0' := by
      rw [← Char.toNat_inj]
      show c.toNat - 48 = 0 ↔ c.toNat = 48
      omega
    have hpow := Nat.pow_pos (n := cs.length) (show 0 < 10 by decide)
    rw [List.forall_mem_cons, natOfDigits_cons, ← ih hcs, ← hzero, Nat.add_eq_zero_iff,
      Nat.mul_eq_zero, or_iff_left hpow.ne']

/-- The digits of a positive number have no leading zero. -/
theorem head?_digits_ne (hn : 0 < n) : (digits n).head? ≠ some '0' := by
  intro hhead
  obtain ⟨rest, hrest⟩ := List.head?_eq_some_iff.1 hhead
  have hvalue : natOfDigits rest = n := by
    rw [← natOfDigits_digits n, hrest, natOfDigits_cons]
    simp
  have hdigits : ∀ c ∈ rest, c.isDigit = true := fun c hc =>
    isDigit_of_mem_digits (hrest ▸ List.mem_cons_of_mem _ hc)
  have hlt := natOfDigits_lt hdigits
  rw [hvalue] at hlt
  -- so few digits would be enough for `n`
  have hpos : 0 < rest.length := by
    by_contra hlen
    rw [Nat.eq_zero_of_not_pos hlen] at hlt
    omega
  have hle := (Nat.length_toDigits_le_iff (by decide) hpos).2 hlt
  have hlength : (digits n).length = rest.length + 1 := by rw [hrest, List.length_cons]
  rw [digits] at hlength
  omega

theorem length_padded {width : ℕ} (hwidth : 0 < width) (hn : n < 10 ^ width) :
    (padded width n).length = width := by
  have hle := (Nat.length_toDigits_le_iff (by decide) hwidth).2 hn
  rw [padded, length_padLeft]
  exact Nat.max_eq_left hle

end Text

/-! ## Groups of digits -/

namespace Number

/-- Digits in groups of three, counted from the right, with a separator in front of every
    group but the first. -/
inductive Grouped (separator : Char) : List Char → List Char → Prop
  | single (ds : List Char) : ds.length ≤ 3 → Grouped separator ds ds
  | group (a b c : Char) {ds text : List Char} : ds ≠ [] → Grouped separator ds text →
      Grouped separator (ds ++ [a, b, c]) (text ++ [separator, a, b, c])

theorem grouped_of_length_le (separator : Char) {ds : List Char} (h : ds.length ≤ 3) :
    grouped separator ds = ds := by
  induction ds with
  | nil => rfl
  | cons d r ih =>
    rw [List.length_cons] at h
    have hr : ¬(r.length % 3 = 0 ∧ r ≠ []) := by
      rintro ⟨hmod, hne⟩
      have := List.length_pos_iff.2 hne
      omega
    rw [grouped, if_neg hr, ih (by omega)]

theorem grouped_append (separator a b c : Char) {ds : List Char} (hds : ds ≠ []) :
    grouped separator (ds ++ [a, b, c]) = grouped separator ds ++ [separator, a, b, c] := by
  induction ds with
  | nil => exact absurd rfl hds
  | cons d r ih =>
    have hlength : (r ++ [a, b, c]).length % 3 = r.length % 3 := by
      rw [List.length_append]
      exact Nat.add_mod_right _ 3
    rw [List.cons_append, grouped, grouped, hlength]
    rcases eq_or_ne r [] with rfl | hr
    · rfl
    · rw [ih hr]
      by_cases hmod : r.length % 3 = 0
      · rw [if_pos ⟨hmod, by simp⟩, if_pos ⟨hmod, hr⟩]
        rfl
      · rw [if_neg (fun h => hmod h.1), if_neg (fun h => hmod h.1)]
        rfl

theorem grouped_grouped (separator : Char) (ds : List Char) :
    Grouped separator ds (grouped separator ds) := by
  induction hn : ds.length using Nat.strong_induction_on generalizing ds with
  | _ n ih =>
    rcases Nat.lt_or_ge 3 n with hlong | hshort
    · -- the last three digits are a group
      obtain ⟨a, b, c, habc⟩ : ∃ a b c, ds.drop (n - 3) = [a, b, c] :=
        List.length_eq_three.1 (by rw [List.length_drop]; omega)
      have hlength : (ds.take (n - 3)).length = n - 3 := by
        rw [List.length_take]
        omega
      have hne : ds.take (n - 3) ≠ [] := by
        rw [← List.length_pos_iff]
        omega
      have hds : ds = ds.take (n - 3) ++ [a, b, c] := by rw [← habc, List.take_append_drop]
      have h := ih (n - 3) (by omega) _ hlength
      rw [hds, grouped_append separator a b c hne]
      exact .group a b c hne h
    · rw [grouped_of_length_le separator (hn ▸ hshort)]
      exact .single ds (hn ▸ hshort)

theorem Grouped.mem_of_mem {separator c : Char} {ds text : List Char}
    (h : Grouped separator ds text) (hc : c ∈ text) (hne : c ≠ separator) : c ∈ ds := by
  induction h with
  | single ds _ => exact hc
  | group a b d _ _ ih =>
    rw [List.mem_append, List.mem_cons] at hc
    rcases hc with hc | rfl | hc
    · exact List.mem_append_left _ (ih hc)
    · exact absurd rfl hne
    · exact List.mem_append_right _ hc

theorem filter_bne_of_notMem {c : Char} {cs : List Char} (h : c ∉ cs) :
    cs.filter (· != c) = cs := by
  refine List.filter_eq_self.2 fun d hd => bne_iff_ne.2 ?_
  rintro rfl
  exact h hd

/-- The digits are what is left without the separators. -/
theorem Grouped.filter {separator : Char} {ds text : List Char} (h : Grouped separator ds text)
    (hds : separator ∉ ds) : text.filter (· != separator) = ds := by
  induction h with
  | single ds _ => exact filter_bne_of_notMem hds
  | group a b c hne _ ih =>
    rw [List.mem_append, not_or] at hds
    rw [List.filter_append, ih hds.1, List.filter_cons_of_neg (by simp),
      filter_bne_of_notMem hds.2]

/-! ## Zeros at the end -/

section
variable {keep : ℕ} {ds : List Char}

/-- Only zeros are dropped. -/
theorem exists_stripZeros_append (keep : ℕ) (ds : List Char) :
    ∃ k, ds = stripZeros keep ds ++ List.replicate k '0' := by
  have hsplit : stripZeros keep ds ++ (ds.drop keep).rtakeWhile (· == '0') = ds := by
    show ds.take keep ++ (ds.drop keep).rdropWhile (· == '0') ++ _ = ds
    rw [List.append_assoc, List.rdropWhile_append_rtakeWhile, List.take_append_drop]
  have hzeros : ∀ c ∈ (ds.drop keep).rtakeWhile (· == '0'), c = '0' := by
    intro c hc
    simpa using List.mem_rtakeWhile_imp hc
  rw [List.eq_replicate_of_mem hzeros] at hsplit
  exact ⟨_, hsplit.symm⟩

theorem length_le_stripZeros (h : keep ≤ ds.length) : keep ≤ (stripZeros keep ds).length := by
  rw [stripZeros, List.length_append, List.length_take]
  omega

/-- All zeros at the end are dropped, but for the digits that are kept. -/
theorem getLast?_stripZeros_ne (h : keep < (stripZeros keep ds).length) :
    (stripZeros keep ds).getLast? ≠ some '0' := by
  have hne : (ds.drop keep).rdropWhile (· == '0') ≠ [] := by
    intro hnil
    have htake : stripZeros keep ds = ds.take keep := by
      show ds.take keep ++ (ds.drop keep).rdropWhile (· == '0') = ds.take keep
      rw [hnil, List.append_nil]
    rw [htake, List.length_take] at h
    omega
  intro hlast
  have hlast' : ((ds.drop keep).rdropWhile (· == '0')).getLast? = some '0' :=
    (List.getLast?_append_of_ne_nil _ hne).symm.trans hlast
  rw [List.getLast?_eq_getLast_of_ne_nil hne, Option.some.injEq] at hlast'
  exact List.rdropWhile_last_not (· == '0') _ hne (by rw [hlast']; rfl)

end

/-! ## The digits that are shown -/

/-- The digits of so many units of the last place, before the point and after it, as the
    pattern has them shown. -/
structure Pattern.Shows (p : Pattern) (units : ℕ) (whole fraction : List Char) : Prop where
  isDigit : ∀ c ∈ whole ++ fraction, c.isDigit = true
  minInteger_le : p.minInteger ≤ whole.length
  /-- Before the point only the digits asked for may be leading zeros, but a number without
      any digits is shown as a zero. -/
  leading : p.minInteger < whole.length →
    whole.head? ≠ some '0' ∨ p.minInteger = 0 ∧ whole = ['0'] ∧ fraction = []
  minFraction_le : p.minFraction ≤ fraction.length
  le_maxFraction : fraction.length ≤ p.maxFraction
  trailing : p.minFraction < fraction.length → fraction.getLast? ≠ some '0'
  ne_nil : whole = [] → fraction ≠ []
  value : natOfDigits (whole ++ fraction) * 10 ^ (p.maxFraction - fraction.length) = units

section
variable {p : Pattern} {units : ℕ} {whole fraction : List Char}

theorem Pattern.Shows.exists_ne_zero_iff (h : p.Shows units whole fraction) :
    (∃ c ∈ whole ++ fraction, c ≠ '0') ↔ units ≠ 0 := by
  have hpow := Nat.pow_pos (n := p.maxFraction - fraction.length) (show 0 < 10 by decide)
  rw [← h.value, Ne, Nat.mul_eq_zero, or_iff_left hpow.ne', natOfDigits_eq_zero_iff h.isDigit]
  simp only [not_forall, exists_prop, ne_eq]

/-- Of a whole number all digits behind the point are zero. -/
theorem Pattern.Shows.fraction_eq_zero {n : ℕ}
    (h : p.Shows (n * 10 ^ p.maxFraction) whole fraction) :
    ∀ c ∈ fraction, c = '0' := by
  have hdigits : ∀ c ∈ fraction, c.isDigit = true := fun c hc =>
    h.isDigit c (List.mem_append_right _ hc)
  have hsplit : 10 ^ p.maxFraction =
      10 ^ fraction.length * 10 ^ (p.maxFraction - fraction.length) := by
    rw [← Nat.pow_add, Nat.add_sub_of_le h.le_maxFraction]
  have hvalue : natOfDigits (whole ++ fraction) = n * 10 ^ fraction.length := by
    apply Nat.eq_of_mul_eq_mul_right (Nat.pow_pos (n := p.maxFraction - fraction.length)
      (show 0 < 10 by decide))
    rw [h.value, hsplit, Nat.mul_assoc]
  rw [natOfDigits_append] at hvalue
  have hmod := congrArg (· % 10 ^ fraction.length) hvalue
  rw [Nat.mul_add_mod_self_right, Nat.mul_mod_left,
    Nat.mod_eq_of_lt (natOfDigits_lt hdigits)] at hmod
  exact (natOfDigits_eq_zero_iff hdigits).1 hmod

section
variable (places : ℕ) (magnitude : Float)

theorem length_roundedDigits : (roundedDigits places magnitude).2.length = places := by
  rw [roundedDigits]
  dsimp only
  split
  · rename_i h
    exact h.symm
  · rename_i h
    exact length_padded (Nat.pos_of_ne_zero h) (Nat.mod_lt _ (Nat.pow_pos (by decide)))

theorem natOfDigits_roundedDigits : natOfDigits (roundedDigits places magnitude).2 =
    roundedUnits places magnitude % 10 ^ places := by
  rw [roundedDigits]
  dsimp only
  split
  · rename_i h
    rw [h, Nat.pow_zero, Nat.mod_one]
    rfl
  · exact natOfDigits_padded _ _

end

/-- The digits before the point: those of `n` with leading zeros up to `k` digits, and none
    of a zero that is not asked for. -/
theorem padLeft_whole {k n : ℕ} {ds : List Char}
    (hds : padLeft '0' k (if n = 0 ∧ k = 0 then [] else digits n) = ds) :
    (∀ c ∈ ds, c.isDigit = true) ∧ k ≤ ds.length ∧ natOfDigits ds = n ∧
      (k < ds.length → ds.head? ≠ some '0') := by
  subst hds
  refine ⟨?_, ?_, ?_, ?_⟩
  · intro c hc
    rcases eq_or_mem_of_mem_padLeft hc with rfl | hc
    · decide
    · split at hc
      · exact absurd hc List.not_mem_nil
      · exact isDigit_of_mem_digits hc
  · rw [length_padLeft]
    exact Nat.le_max_left ..
  · rw [padLeft, natOfDigits_append, natOfDigits_replicate_zero, Nat.zero_mul, Nat.zero_add]
    split
    · rename_i h
      exact h.1.symm
    · exact natOfDigits_digits n
  · intro hlong
    rw [length_padLeft] at hlong
    have hpad : ∀ {cs : List Char}, k < cs.length → padLeft '0' k cs = cs := by
      intro cs hcs
      rw [padLeft, Nat.sub_eq_zero_of_le hcs.le]
      rfl
    split at hlong
    · exact absurd hlong (by simp)
    · rename_i hn
      rw [if_neg hn, hpad (by omega)]
      apply head?_digits_ne
      by_contra hzero
      rw [Nat.eq_zero_of_not_pos hzero] at hn hlong
      have hone : (digits 0).length = 1 := rfl
      omega

/-- The zeros that are dropped at the end do not change the value. -/
theorem natOfDigits_stripZeros_mul (keep : ℕ) {places : ℕ} {ds : List Char}
    (h : ds.length = places) :
    (stripZeros keep ds).length ≤ places ∧
      natOfDigits (stripZeros keep ds) * 10 ^ (places - (stripZeros keep ds).length) =
        natOfDigits ds := by
  obtain ⟨k, hk⟩ := exists_stripZeros_append keep ds
  have hlength : (stripZeros keep ds).length + k = places := by
    rw [← h, congrArg List.length hk, List.length_append, List.length_replicate]
  have hvalue : natOfDigits ds = natOfDigits (stripZeros keep ds) * 10 ^ k := by
    rw [congrArg natOfDigits hk, natOfDigits_append, natOfDigits_replicate_zero, Nat.add_zero,
      List.length_replicate]
  refine ⟨by omega, ?_⟩
  rw [hvalue, show places - (stripZeros keep ds).length = k by omega]

end

variable {p : Pattern} {x : Float}

/-- The double that is shown: infinities and NaN are shown as zero. -/
def finiteOrZero (x : Float) : Float := if x.isFinite then x else 0.0

/-- The digits of a number of units are shown as the pattern says, and a zero takes the place
    of the digits before the point if there would be no digits at all. -/
theorem Pattern.shows_of_digits (h : p.minFraction ≤ p.maxFraction) {units : ℕ}
    {integer ds : List Char} (hlength : ds.length = p.maxFraction)
    (hdigits : ∀ c ∈ ds, c.isDigit = true) (hunits : natOfDigits ds = units % 10 ^ p.maxFraction)
    (hinteger : padLeft '0' p.minInteger (if units / 10 ^ p.maxFraction = 0 ∧ p.minInteger = 0
      then [] else digits (units / 10 ^ p.maxFraction)) = integer) :
    p.Shows units (if integer.isEmpty && (stripZeros p.minFraction ds).isEmpty then ['0']
      else integer) (stripZeros p.minFraction ds) := by
  obtain ⟨hmax, hvalue⟩ := natOfDigits_stripZeros_mul p.minFraction hlength
  obtain ⟨hisDigit, hlong, hnat, hleading⟩ := padLeft_whole hinteger
  have hmin : p.minFraction ≤ (stripZeros p.minFraction ds).length :=
    length_le_stripZeros (hlength ▸ h)
  have htrailing : p.minFraction < (stripZeros p.minFraction ds).length →
    (stripZeros p.minFraction ds).getLast? ≠ some '0' := getLast?_stripZeros_ne
  have hfraction : ∀ c ∈ stripZeros p.minFraction ds, c.isDigit = true :=
    fun c hc => hdigits c (mem_of_mem_stripZeros hc)
  generalize stripZeros p.minFraction ds = fraction at *
  have hsum : natOfDigits (integer ++ fraction) * 10 ^ (p.maxFraction - fraction.length) =
      units := by
    rw [natOfDigits_append, Nat.add_mul, hvalue, hunits, hnat, Nat.mul_assoc, ← Nat.pow_add,
      Nat.add_sub_of_le hmax, Nat.mul_comm, Nat.div_add_mod]
  by_cases hempty : integer = [] ∧ fraction = []
  · obtain ⟨rfl, rfl⟩ := hempty
    have hnone : p.minInteger = 0 := Nat.eq_zero_of_le_zero hlong
    have hzero : ∀ c ∈ ['0'], c.isDigit = true := List.forall_mem_singleton.2 rfl
    exact ⟨hzero, hnone ▸ Nat.zero_le _, fun _ => .inr ⟨hnone, rfl, rfl⟩, hmin, hmax, htrailing,
      fun h => absurd h (List.cons_ne_nil _ _), hsum⟩
  · rw [if_neg (by simpa [List.isEmpty_iff] using hempty)]
    refine ⟨fun c hc => ?_, hlong, fun h => .inl (hleading h), hmin, hmax, htrailing,
      fun hi hf => hempty ⟨hi, hf⟩, hsum⟩
    rcases List.mem_append.1 hc with hc | hc
    · exact hisDigit c hc
    · exact hfraction c hc

/-- **The digits of a double** are those of its units, and stand as the pattern says. -/
theorem shows_ofFloat (h : p.minFraction ≤ p.maxFraction) (x : Float) :
    p.Shows (roundedUnits p.maxFraction (finiteOrZero x).abs) (Shown.ofFloat p x).integer
      (Shown.ofFloat p x).fraction :=
  p.shows_of_digits h (length_roundedDigits p.maxFraction (finiteOrZero x).abs)
    (fun _ => isDigit_of_mem_roundedDigits) (natOfDigits_roundedDigits _ _) rfl

/-- **The sign of a double** is shown unless all digits are zero. -/
theorem negative_ofFloat_iff : (Shown.ofFloat p x).negative = true ↔
    x.isFinite = true ∧ x < 0.0 ∧ roundedUnits p.maxFraction (finiteOrZero x).abs ≠ 0 := by
  have hunits := natOfDigits_roundedDigits p.maxFraction (finiteOrZero x).abs
  have hdigits : ∀ c ∈ (roundedDigits p.maxFraction (finiteOrZero x).abs).2, c.isDigit = true :=
    fun _ => isDigit_of_mem_roundedDigits
  have hwhole : (roundedDigits p.maxFraction (finiteOrZero x).abs).1 =
    roundedUnits p.maxFraction (finiteOrZero x).abs / 10 ^ p.maxFraction := rfl
  have hsign : finiteOrZero x < 0.0 ↔ x.isFinite = true ∧ x < 0.0 := by
    rw [finiteOrZero]
    split
    · rename_i h
      exact (and_iff_right h).symm
    · rename_i h
      exact iff_of_false (by decide +kernel) fun hx => h hx.1
  unfold Shown.ofFloat
  rw [← finiteOrZero, ← and_assoc, ← hsign]
  dsimp only
  rw [hwhole]
  generalize (roundedDigits p.maxFraction (finiteOrZero x).abs).2 = ds at *
  generalize roundedUnits p.maxFraction (finiteOrZero x).abs = units at *
  have hzero : (units / 10 ^ p.maxFraction == 0 && ds.all (· == '0')) = true ↔ units = 0 := by
    have hall : ds.all (· == '0') = true ↔ units % 10 ^ p.maxFraction = 0 := by
      rw [← hunits, natOfDigits_eq_zero_iff hdigits, List.all_eq_true]
      exact forall₂_congr fun c _ => beq_iff_eq
    rw [Bool.and_eq_true, beq_iff_eq, hall]
    constructor
    · rintro ⟨hdiv, hmod⟩
      rw [← Nat.div_add_mod units (10 ^ p.maxFraction), hdiv, hmod, Nat.mul_zero]
    · rintro rfl
      exact ⟨Nat.zero_div _, Nat.zero_mod _⟩
  rw [Bool.and_eq_true, decide_eq_true_iff, Bool.not_eq_true', ← Bool.not_eq_true, hzero]

/-! ## The text -/

theorem Pattern.bounds_of_parse? {text : String} (h : Pattern.parse? text = some p) :
    p.minFraction ≤ p.maxFraction ∧ p.maxFraction ≤ 15 := by
  rw [Pattern.parse?] at h
  dsimp only at h
  split at h
  · cases h
    exact ⟨Nat.min_le_right .., Nat.min_le_left ..⟩
  · cases h

/-- Every pattern in use has a bounded number of fraction digits. -/
theorem Pattern.ofArgument_bounds (argument default : String) :
    (Pattern.ofArgument argument default).minFraction ≤
        (Pattern.ofArgument argument default).maxFraction ∧
      (Pattern.ofArgument argument default).maxFraction ≤ 15 := by
  rw [Pattern.ofArgument]
  cases hselected : Pattern.parse? (selectPattern argument default) with
  | some p => exact Pattern.bounds_of_parse? hselected
  | none =>
    cases hdefault : Pattern.parse? default with
    | some p => exact Pattern.bounds_of_parse? hdefault
    | none => exact ⟨Nat.le_refl 0, Nat.zero_le 15⟩

/-- The text of a double is made of its sign and its digits. -/
theorem Pattern.exists_toList_apply (h : p.minFraction ≤ p.maxFraction) (symbols : Symbols)
    (x : Float) : ∃ negative whole fraction integer,
      (p.apply symbols x).toList = (if negative then ['-'] else []) ++ integer ++
        (if fraction = [] then [] else symbols.decimal :: fraction) ∧
      p.Shows (roundedUnits p.maxFraction (finiteOrZero x).abs) whole fraction ∧
      (negative = true ↔ x.isFinite = true ∧ x < 0.0 ∧ ∃ c ∈ whole ++ fraction, c ≠ '0') ∧
      (p.grouping = true ∧ Grouped symbols.grouping whole integer ∨
        p.grouping = false ∧ integer = whole) := by
  have hshows := shows_ofFloat h x
  have hnegative := negative_ofFloat_iff (p := p) (x := x)
  rw [← hshows.exists_ne_zero_iff] at hnegative
  have htext : (p.apply symbols x).toList = (Shown.ofFloat p x).write p.grouping symbols :=
    String.toList_ofList
  rw [htext]
  generalize Shown.ofFloat p x = shown at *
  refine ⟨shown.negative, shown.integer, shown.fraction,
    if p.grouping then grouped symbols.grouping shown.integer else shown.integer, ?_, hshows,
    hnegative, ?_⟩
  · simp only [Shown.write, List.isEmpty_iff]
  · cases p.grouping with
    | true => exact .inl ⟨rfl, grouped_grouped _ _⟩
    | false => exact .inr ⟨rfl, rfl⟩

/-- **Numbers are shown by their patterns.**  The text of a double is a sign, digits in front
    of the point and, if there are any, the point and digits behind it.  The digits are those
    that the pattern has shown, there is a minus sign if the double is negative and one of
    them is not zero, and the digits in front of the point stand in groups if the pattern
    says so.  The text is never empty. -/
theorem numbers_are_shown_by_their_patterns (x : Float) (argument default : String)
    (symbols : Symbols) :
    let p := Pattern.ofArgument argument default
    let text := formatNumberWith x argument default symbols
    ∃ negative whole fraction integer,
      text.toList = (if negative then ['-'] else []) ++ integer ++
        (if fraction = [] then [] else symbols.decimal :: fraction) ∧
      p.Shows (roundedUnits p.maxFraction (finiteOrZero x).abs) whole fraction ∧
      (negative = true ↔ x.isFinite = true ∧ x < 0.0 ∧ ∃ c ∈ whole ++ fraction, c ≠ '0') ∧
      (p.grouping = true ∧ Grouped symbols.grouping whole integer ∨
        p.grouping = false ∧ integer = whole) ∧
      text ≠ "" := by
  intro p text
  obtain ⟨negative, whole, fraction, integer, htext, hshows, hsign, hinteger⟩ :=
    Pattern.exists_toList_apply (Pattern.ofArgument_bounds argument default).1 symbols x
  refine ⟨negative, whole, fraction, integer, htext, hshows, hsign, hinteger, fun hnil => ?_⟩
  have hvisible : isBlank text = false := isBlank_formatNumberWith ..
  rw [hnil] at hvisible
  exact absurd hvisible (by decide)

end Number

end EventTable
