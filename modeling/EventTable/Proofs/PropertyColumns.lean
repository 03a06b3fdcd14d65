/-
  EventTable — measured properties, and the columns of their quantities.

  * `splitPropertyArgument_named`: an argument that is made of a name, a letter and a pattern
    is split into these again, and `attachPropCell_named` is the cell for it;
  * `Datum.Holds d x`: the property is the number `x`, or a text of it;
  * `Reports letter key e x`: the letter stands for a quantity with a column of its own, which
    shows the value `x` of the event;
  * `generic_and_dedicated_columns_agree`: the property and that event have the same cell.
-/
import EventTable.Proofs.Arguments

namespace EventTable

open Text Number Columns

/-! ## Arguments made of a name, a letter and a pattern -/

namespace Text

theorem trimEnd_append_of_ne_nil (cs : List Char) {ds : List Char} (h : trimEnd ds ≠ []) :
    trimEnd (cs ++ ds) = cs ++ trimEnd ds := by
  induction cs with
  | nil => rfl
  | cons c cs ih =>
    have hne : trimEnd (cs ++ ds) ≠ [] := by
      rw [ih]
      exact fun hnil => h (List.append_eq_nil_iff.1 hnil).2
    rw [List.cons_append, trimEnd_cons, if_neg fun hc => hne hc.2, ih]
    rfl

theorem trimEnd_cons_of_not_blank {c : Char} (h : isBlankChar c = false) (cs : List Char) :
    trimEnd (c :: cs) = c :: trimEnd cs := by
  rw [trimEnd_cons, h, if_neg fun hc => Bool.false_ne_true hc.1]

@[simp] theorem trimEnd_trimEnd (cs : List Char) : trimEnd (trimEnd cs) = trimEnd cs :=
  List.rdropWhile_idempotent ..

/-- A trimmed text does not start with a blank. -/
theorem isBlankChar_of_trimChars_eq {c : Char} {cs : List Char}
    (h : trimChars (c :: cs) = c :: cs) : isBlankChar c = false := by
  have hstart : (c :: cs).dropWhile isBlankChar = c :: cs :=
    calc (c :: cs).dropWhile isBlankChar = (trimChars (c :: cs)).dropWhile isBlankChar := by rw [h]
      _ = trimEnd (((c :: cs).dropWhile isBlankChar).dropWhile isBlankChar) := dropWhile_trimEnd _
      _ = trimChars (c :: cs) := by rw [List.dropWhile_idempotent, trimChars]
      _ = c :: cs := h
  simpa using List.dropWhile_eq_self_iff.1 hstart

/-- What is a letter in upper case is no blank. -/
theorem isBlankChar_eq_false_of_toUpper {c : Char} (h : c.toUpper.isAlphanum = true) :
    isBlankChar c = false := by
  by_cases hlower : 97 ≤ c.val ∧ c.val ≤ 122
  · refine isBlankChar_eq_false_of_isAlphanum ?_
    have hc : c.isLower = true := by
      change (decide (97 ≤ c.val) && decide (c.val ≤ 122)) = true
      simpa only [Bool.and_eq_true, decide_eq_true_eq] using hlower
    show ((c.isUpper || c.isLower) || c.isDigit) = true
    rw [hc, Bool.or_true, Bool.true_or]
  · have hself : c.toUpper = c := dif_neg hlower
    rw [hself] at h
    exact isBlankChar_eq_false_of_isAlphanum h

end Text

namespace Columns

/-- **A name of a property**: there is something in it, but no blank around it and no colon. -/
structure PropertyName (name : String) : Prop where
  ne_empty : name ≠ ""
  trim_eq : trim name = name
  colon_not_mem : ':' ∉ name.toList

/-- The argument for a property: its name, the letter of a kind, and an argument for that. -/
def namedArgument (name : String) (letter : Char) (argument : String) : String :=
  name ++ ":" ++ String.singleton letter ++ argument

section
variable {name : String} {letter : Char} (hname : PropertyName name)
  (hletter : isBlankChar letter = false)
include hname hletter

/-- **It is split into its parts again**, but for blanks at its end. -/
theorem splitPropertyArgument_named (argument : String) :
    splitPropertyArgument (namedArgument name letter argument) =
      (name, letter :: trimEnd argument.toList) := by
  have htext : (namedArgument name letter argument).toList =
      (name.toList ++ [':']) ++ letter :: argument.toList := by
    simp [namedArgument]
  have htrimmed : trimChars name.toList = name.toList := by
    rw [← toList_trim, hname.trim_eq]
  have hend := trimEnd_cons_of_not_blank hletter argument.toList
  have htrim : trimChars (namedArgument name letter argument).toList =
      name.toList ++ ':' :: letter :: trimEnd argument.toList := by
    obtain ⟨c, cs, hcs⟩ := List.exists_cons_of_ne_nil
      fun hnil => hname.ne_empty (String.toList_eq_nil_iff.1 hnil)
    rw [hcs] at htrimmed
    have hfirst : ¬ isBlankChar c = true := by simp [isBlankChar_of_trimChars_eq htrimmed]
    rw [htext, trimChars, hcs, List.cons_append, List.cons_append,
      List.dropWhile_cons_of_neg hfirst, ← List.cons_append, ← List.cons_append, ← hcs,
      trimEnd_append_of_ne_nil _ (by simp [hend]), hend, List.append_assoc]
    rfl
  have hcut : cut? ':' (name.toList ++ ':' :: letter :: trimEnd argument.toList) =
      some (name.toList, letter :: trimEnd argument.toList) :=
    cut?_eq_some_iff.2 ⟨rfl, hname.colon_not_mem⟩
  have hformat : trimChars (letter :: trimEnd argument.toList) =
      letter :: trimEnd argument.toList := by
    rw [trimChars, List.dropWhile_cons_of_neg (by simp [hletter]),
      trimEnd_cons_of_not_blank hletter, trimEnd_trimEnd]
  simp only [splitPropertyArgument, htrim, hcut, htrimmed, hformat, String.ofList_toList]

end

end Columns

theorem IgnoresBlanks.trimEnd {α : Type} {f : String → α} (h : IgnoresBlanks f)
    (argument : String) : f (String.ofList (Text.trimEnd argument.toList)) = f argument := by
  rw [← h, ← h argument, trim, String.toList_ofList, trimChars_trimEnd]
  rfl

/-! ## Numbers that are properties -/

/-- **The property is the number** `x`, or a text of it. -/
inductive Datum.Holds : Datum → Float → Prop
  | int (n : Int) : Holds (.int n) (Float.ofInt n)
  | float (x : Float) : Holds (.float x) x
  | text {s : String} {x : Float} : Number.float? (trimChars s.toList) = some x →
      Holds (.text s) x

/-- **The columns of quantities that a property may be shown as**: the letter of the quantity,
    in either case, the key of its column, and the value that this shows of the event. -/
inductive Reports : (letter : Char) → (key : String) → Event → (x : Float) → Prop
  | distance {letter e} : letter.toUpper = 'K' →
      Reports letter "reportDistance" e e.reportDistanceKm
  | temperature {letter e x} : letter.toUpper = 'T' → e.ambientTempC = some x →
      Reports letter "ambientTemp" e x
  | altitude {letter e} : letter.toUpper = 'A' → Reports letter "altitude" e e.altitudeMeters
  | speedLimit {letter e} : letter.toUpper = 'S' → 0.0 < e.speedLimitKph →
      Reports letter "speedLimit" e e.speedLimitKph

section
variable {properties : Properties} {name : String} {d : Datum} {letter : Char} {key : String}
  {e : Event} {x : Float}

theorem propertyNumber_of_holds (hd : properties.lookup name = some d) (h : d.Holds x)
    (hfinite : x.isFinite = true) : propertyNumber properties name = x := by
  rw [propertyNumber, hd]
  cases h with
  | int n => rfl
  | float x => rfl
  | text hs =>
    dsimp only
    rw [parseNumber, hs]
    dsimp only
    rw [if_pos hfinite]

theorem Reports.isBlankChar_eq_false (h : Reports letter key e x) :
    isBlankChar letter = false := by
  refine isBlankChar_eq_false_of_toUpper ?_
  cases h with
  | distance hletter => rw [hletter]; decide
  | temperature hletter => rw [hletter]; decide
  | altitude hletter => rw [hletter]; decide
  | speedLimit hletter => rw [hletter]; decide

theorem propertyCell_measure {q : Quantity} (hq : PropertyKind.ofLetter letter.toUpper = .measure q)
    (ctx : Context) (rest : List Char) : propertyCell ctx properties name (letter :: rest) =
      propertyMeasureCell ctx q (propertyNumber properties name) (String.ofList rest) := by
  simp only [propertyCell, hq]

theorem ignoresBlanks_propertyMeasureCell (ctx : Context) (q : Quantity) (x : Float) :
    IgnoresBlanks (propertyMeasureCell ctx q x) := by
  intro argument
  cases q <;> simp [propertyMeasureCell]

/-- A property with a letter is shown as in the column of the quantity. -/
theorem Reports.exists_quantity (h : Reports letter key e x) (ctx : Context) (row : ℕ)
    (argument : String) : ∃ q, PropertyKind.ofLetter letter.toUpper = .measure q ∧
      answer? (eventCatalog.lookup? key) ctx row e argument =
        some (.ok (propertyMeasureCell ctx q x argument)) := by
  cases h with
  | distance hletter => exact ⟨.distance, by rw [hletter]; rfl, rfl⟩
  | temperature hletter he =>
    refine ⟨.temperature, by rw [hletter]; rfl, ?_⟩
    rw [propertyMeasureCell, ← he]
    rfl
  | altitude hletter => exact ⟨.altitude, by rw [hletter]; rfl, rfl⟩
  | speedLimit hletter hpos =>
    refine ⟨.speed, by rw [hletter]; rfl, ?_⟩
    have hcell : positiveCell e.speedLimitKph (measureCell ctx .speed e.speedLimitKph argument "0") =
        measureCell ctx .speed e.speedLimitKph argument "0" := if_pos hpos
    exact congrArg (some <| Except.ok ·) hcell

/-- The cell of a property, from the argument with its three parts. -/
theorem attachPropCell_named (hname : PropertyName name) (hletter : isBlankChar letter = false)
    (hproperties : e.attachmentProperties = some properties) (ctx : Context) (argument : String) :
    attachPropCell ctx (namedArgument name letter argument) e =
      propertyCell ctx properties name (letter :: trimEnd argument.toList) := by
  have hne : name.isEmpty = false := by simp [hname.ne_empty]
  simp only [attachPropCell, splitPropertyArgument_named hname hletter, hproperties, hne,
    Bool.false_eq_true, if_false]

end

/-- **The column of a quantity and that of properties agree.**  A property that is a finite
    number, or a text of one, and is shown by the letter of a quantity, with an argument for its
    format, has the same cell as the column of the quantity has, with that argument, for an
    event with that value: the same text, or none, and the same sort key. -/
theorem generic_and_dedicated_columns_agree (ctx : Context) {name : String} {letter : Char}
    {key : String} {e e' : Event} {properties : Properties} {d : Datum} {x : Float}
    (hname : PropertyName name) (hproperties : e.attachmentProperties = some properties)
    (hd : properties.lookup name = some d) (hx : d.Holds x) (hfinite : x.isFinite = true)
    (hreports : Reports letter key e' x) (row row' : ℕ) (argument : String) :
    ∃ cell, answer? (eventCatalog.lookup? "attachProp") ctx row e
        (namedArgument name letter argument) = some (.ok cell) ∧
      answer? (eventCatalog.lookup? key) ctx row' e' argument = some (.ok cell) := by
  obtain ⟨q, hq, hcell⟩ := hreports.exists_quantity ctx row' argument
  refine ⟨propertyMeasureCell ctx q x argument, ?_, hcell⟩
  have hanswer : answer? (eventCatalog.lookup? "attachProp") ctx row e
      (namedArgument name letter argument) =
        some (.ok (attachPropCell ctx (namedArgument name letter argument) e)) := rfl
  rw [hanswer, attachPropCell_named hname hreports.isBlankChar_eq_false hproperties,
    propertyCell_measure hq, propertyNumber_of_holds hd hx hfinite,
    (ignoresBlanks_propertyMeasureCell ctx q x).trimEnd]

/-- A text of a distance, in miles and with a pattern that has a blank at its end. -/
theorem a_trip_is_shown_as_a_report_distance :
    let ctx : Context := { now := 0, units := { distance := .miles } }
    let properties : Properties := [("trip", .text " 16.5")]
    let e : Event := { attachmentProperties := some properties }
    let e' : Event := { reportDistanceKm := 16.5 }
    PropertyName "trip" ∧ properties.lookup "trip" = some (.text " 16.5") ∧
      (Datum.text " 16.5").Holds 16.5 ∧ (16.5 : Float).isFinite = true ∧
      Reports 'k' "reportDistance" e' 16.5 ∧
      ∃ cell, answer? (eventCatalog.lookup? "attachProp") ctx 0 e (namedArgument "trip" 'k' "#0.00 ") =
          some (.ok cell) ∧
        answer? (eventCatalog.lookup? "reportDistance") ctx 1 e' "#0.00 " = some (.ok cell) := by
  intro ctx properties e e'
  have hname : PropertyName "trip" := ⟨by decide, by decide, by decide⟩
  have hx : (Datum.text " 16.5").Holds 16.5 := .text (by rfl)
  have hfinite : (16.5 : Float).isFinite = true := by rfl
  have hreports : Reports 'k' "reportDistance" e' 16.5 := .distance (by decide)
  exact ⟨hname, rfl, hx, hfinite, hreports,
    generic_and_dedicated_columns_agree ctx hname rfl rfl hx hfinite hreports 0 1 "#0.00 "⟩

end EventTable
