/-
  EventTable — arguments, and the two forms of a requested column.

  * `trimChars_trimChars`: trimming twice is trimming once;
  * `…_trim`: no reader of arguments tells an argument from its trimmed form
    (`IgnoresBlanks`);
  * `trimsArgument_of_mem`: neither does the title or the value of any column
    over events (`TrimsArgument`);
  * `parse_key_argument`: the short form is the long one with its argument
    trimmed;
  * `short_and_long_form_agree`: so both forms make the same table.
-/
import EventTable.EventCatalog
import EventTable.Proofs.Assembly
import Mathlib.Data.List.DropRight

namespace EventTable

open Text Number Columns

/-! ## Trimming -/

namespace Text

theorem trimEnd_cons (c : Char) (cs : List Char) :
    trimEnd (c :: cs) = if isBlankChar c ∧ trimEnd cs = [] then [] else c :: trimEnd cs := by
  rw [trimEnd, trimEnd, List.reverse_cons, List.dropWhile_append]
  cases h : cs.reverse.dropWhile isBlankChar with
  | nil => by_cases hc : isBlankChar c <;> simp [hc]
  | cons d ds => simp

/-- The two ends of a text are trimmed in any order. -/
theorem dropWhile_trimEnd (cs : List Char) :
    (trimEnd cs).dropWhile isBlankChar = trimEnd (cs.dropWhile isBlankChar) := by
  induction cs with
  | nil => rfl
  | cons c cs ih =>
    rw [trimEnd_cons]
    by_cases hc : isBlankChar c
    · by_cases he : trimEnd cs = []
      · simpa [hc, he] using ih
      · simpa [hc, he] using ih
    · simp [hc, trimEnd_cons]

theorem trimChars_trimEnd (cs : List Char) : trimChars (trimEnd cs) = trimChars cs := by
  rw [trimChars, dropWhile_trimEnd, trimChars]
  exact List.rdropWhile_idempotent ..

@[simp] theorem trimChars_trimChars (cs : List Char) : trimChars (trimChars cs) = trimChars cs :=
  calc trimChars (trimChars cs) = trimChars (cs.dropWhile isBlankChar) := trimChars_trimEnd ..
    _ = trimChars cs := by rw [trimChars, trimChars, List.dropWhile_idempotent]

@[simp] theorem trim_trim (s : String) : trim (trim s) = trim s := by
  simp [trim]

@[simp] theorem isBlank_trim (s : String) : isBlank (trim s) = isBlank s := by
  rw [Bool.eq_iff_iff, isBlank_iff, isBlank_iff, trim_trim]

end Text

/-! ## Readers of arguments -/

/-- Holds of what does not tell an argument from its trimmed form. -/
def IgnoresBlanks {α : Type} (f : String → α) : Prop := ∀ argument, f (trim argument) = f argument

section
variable (argument : String)

@[simp] theorem Number.selectPattern_trim (default : String) :
    selectPattern (trim argument) default = selectPattern argument default := by
  simp [selectPattern]

@[simp] theorem Number.formatNumberWith_trim (x : Float) (default : String) (symbols : Symbols) :
    formatNumberWith x (trim argument) default symbols =
      formatNumberWith x argument default symbols := by
  simp [formatNumberWith, Pattern.ofArgument]

@[simp] theorem Context.formatNumber_trim (ctx : Context) (x : Float) (default : String) :
    ctx.formatNumber x (trim argument) default = ctx.formatNumber x argument default :=
  formatNumberWith_trim ..

@[simp] theorem ElapsedFormat.ofArgument_trim (default : ElapsedFormat) :
    ElapsedFormat.ofArgument (trim argument) default = .ofArgument argument default := by
  simp [ofArgument]

@[simp] theorem CoordinateFormat.ofArgument_trim (style : CoordinateStyle) :
    CoordinateFormat.ofArgument (trim argument) style = .ofArgument argument style := by
  simp [ofArgument]

@[simp] theorem StatusArgument.parse_trim :
    StatusArgument.parse (trim argument) = .parse argument := by
  simp [parse]

@[simp] theorem Device.customAttribute?_trim (d : Device) :
    d.customAttribute? (trim argument) = d.customAttribute? argument := by
  simp [customAttribute?]

namespace Columns

@[simp] theorem isOneOf_trim (words : List String) :
    isOneOf (trim argument) words = isOneOf argument words := by
  simp [isOneOf]

@[simp] theorem wantsAdmin_trim : wantsAdmin (trim argument) = wantsAdmin argument := by
  simp [wantsAdmin]

@[simp] theorem splitPropertyArgument_trim :
    splitPropertyArgument (trim argument) = splitPropertyArgument argument := by
  simp [splitPropertyArgument]

@[simp] theorem fixedTitle_trim (ctx : Context) (key default : String) :
    fixedTitle key default ctx (trim argument) = fixedTitle key default ctx argument := rfl

@[simp] theorem linedTitle_trim (ctx : Context) (key default line : String) :
    linedTitle key default line ctx (trim argument) = linedTitle key default line ctx argument := rfl

@[simp] theorem unitTitle_trim (ctx : Context) (key default name : String) :
    unitTitle key default name ctx (trim argument) = unitTitle key default name ctx argument := rfl

@[simp] theorem measureText_trim (ctx : Context) (q : Quantity) (x : Float) (default : String) :
    measureText ctx q x (trim argument) default = measureText ctx q x argument default := by
  simp [measureText]

@[simp] theorem measureCell_trim (ctx : Context) (q : Quantity) (x : Float) (default : String) :
    measureCell ctx q x (trim argument) default = measureCell ctx q x argument default := by
  simp [measureCell]

@[simp] theorem numberCell_trim (ctx : Context) (x : Float) (default : String) :
    numberCell ctx x (trim argument) default = numberCell ctx x argument default := by
  simp [numberCell]

@[simp] theorem temperatureText_trim (ctx : Context) (celsius : Float) :
    temperatureText ctx celsius (trim argument) = temperatureText ctx celsius argument := by
  simp [temperatureText]

@[simp] theorem temperatureCell_trim (ctx : Context) (celsius : Option Float) :
    temperatureCell ctx celsius (trim argument) = temperatureCell ctx celsius argument := by
  simp [temperatureCell]

@[simp] theorem tireTempText_trim (ctx : Context) :
    tireTempText ctx (trim argument) = tireTempText ctx argument := by
  funext celsius
  simp [tireTempText]

end Columns

end

/-! ## Columns -/

/-- **A column reads its argument trimmed**, for its title and for its values. -/
structure TrimsArgument (column : Column Event) : Prop where
  title : ∀ ctx, IgnoresBlanks (column.title ctx)
  value : ∀ row ctx, IgnoresBlanks (column.value row ctx)

namespace TrimsArgument

variable {key : String} {title : Context → String → String}

theorem column {value : Nat → Context → String → Event → Cell}
    (ht : ∀ ctx, IgnoresBlanks (title ctx)) (hv : ∀ row ctx, IgnoresBlanks (value row ctx)) :
    TrimsArgument (Columns.column key title value) where
  title := ht
  value row ctx argument := by simp only [Columns.column, hv row ctx argument]

theorem deviceColumn {value : Context → String → Event → Option Device → Cell}
    (ht : ∀ ctx, IgnoresBlanks (title ctx)) (hv : ∀ ctx, IgnoresBlanks (value ctx)) :
    TrimsArgument (Columns.deviceColumn key title value) where
  title := ht
  value row ctx argument := by simp only [Columns.deviceColumn, hv ctx argument]

end TrimsArgument

theorem trimsArgument_vehicleColumns : ∀ column ∈ vehicleColumns, TrimsArgument column := by
  simp only [vehicleColumns, List.forall_mem_cons, List.not_mem_nil, false_imp_iff,
    implies_true, and_true]
  refine ⟨.column ?_ ?_, .column ?_ ?_, .deviceColumn ?_ ?_, .deviceColumn ?_ ?_,
    .deviceColumn ?_ ?_, .deviceColumn ?_ ?_, .deviceColumn ?_ ?_, .deviceColumn ?_ ?_⟩
  all_goals simp [IgnoresBlanks, funext_iff, customFieldTitle, indexCell, deviceIdCell,
    deviceTextCell, lastBatteryCell, customFieldCell]

theorem trimsArgument_timeColumns : ∀ column ∈ timeColumns, TrimsArgument column := by
  simp only [timeColumns, List.forall_mem_cons, List.not_mem_nil, false_imp_iff, implies_true,
    and_true]
  refine ⟨.column ?_ ?_, .column ?_ ?_, .column ?_ ?_, .column ?_ ?_, .column ?_ ?_,
    .column ?_ ?_, .column ?_ ?_, ⟨?_, ?_⟩, ⟨?_, ?_⟩⟩
  all_goals simp [IgnoresBlanks, funext_iff, createAgeCell,
    createMillisCell, checkinColumn]

theorem trimsArgument_placeColumns : ∀ column ∈ placeColumns, TrimsArgument column := by
  simp only [placeColumns, List.forall_mem_cons, List.not_mem_nil, false_imp_iff, implies_true,
    and_true]
  and_intros
  all_goals refine .column ?_ ?_
  all_goals simp [IgnoresBlanks, funext_iff, latitudeCell,
    longitudeCell, geoPointCell, positionCell, gpsAgeCell]

theorem trimsArgument_movementColumns : ∀ column ∈ movementColumns, TrimsArgument column := by
  simp only [movementColumns, List.forall_mem_cons, List.not_mem_nil, false_imp_iff, implies_true,
    and_true]
  refine ⟨.column ?_ ?_, .column ?_ ?_, .column ?_ ?_, .column ?_ ?_, .column ?_ ?_,
    .column ?_ ?_, .deviceColumn ?_ ?_, .column ?_ ?_⟩
  all_goals simp [IgnoresBlanks, funext_iff, speedCell,
    speedText, headingCell, distanceCell, odometerCell]

theorem trimsArgument_statusColumns : ∀ column ∈ statusColumns, TrimsArgument column := by
  simp only [statusColumns, List.forall_mem_cons, List.not_mem_nil, false_imp_iff, implies_true,
    and_true]
  and_intros
  all_goals refine .column ?_ ?_
  all_goals simp [IgnoresBlanks]

theorem trimsArgument_fuelColumns : ∀ column ∈ fuelColumns, TrimsArgument column := by
  simp only [fuelColumns, List.forall_mem_cons, List.not_mem_nil, false_imp_iff, implies_true,
    and_true]
  refine ⟨.column ?_ ?_, ⟨?_, ?_⟩, .column ?_ ?_, .column ?_ ?_, .column ?_ ?_, .column ?_ ?_⟩
  all_goals simp [IgnoresBlanks, funext_iff, fuelLevelVolume,
    volumeCell, fuelPressureCell]

theorem trimsArgument_engineColumns : ∀ column ∈ engineColumns, TrimsArgument column := by
  simp only [engineColumns, List.forall_mem_cons, List.not_mem_nil, false_imp_iff, implies_true,
    and_true]
  refine ⟨.column ?_ ?_, .deviceColumn ?_ ?_, .column ?_ ?_, .column ?_ ?_, .column ?_ ?_,
    .column ?_ ?_, .column ?_ ?_, .column ?_ ?_, .column ?_ ?_, .column ?_ ?_⟩
  all_goals simp [IgnoresBlanks, funext_iff, hoursCell,
    readingsCell, batteryCell, voltsCell]

theorem trimsArgument_airColumns : ∀ column ∈ airColumns, TrimsArgument column := by
  simp only [airColumns, List.forall_mem_append, List.forall_mem_cons, List.forall_mem_map,
    List.not_mem_nil, false_imp_iff, implies_true, and_true]
  refine ⟨⟨.column ?_ ?_, .column ?_ ?_, .column ?_ ?_⟩, fun sensor _ => .column ?_ ?_⟩
  all_goals simp [IgnoresBlanks, funext_iff, barometerCell]

theorem trimsArgument_attachmentColumns : ∀ column ∈ attachmentColumns, TrimsArgument column := by
  simp only [attachmentColumns, List.forall_mem_cons, List.not_mem_nil, false_imp_iff,
    implies_true, and_true]
  refine ⟨.column ?_ ?_, .column ?_ ?_⟩
  all_goals simp [IgnoresBlanks, funext_iff, attachPropTitle, attachPropCell]

theorem trimsArgument_of_mem {column : Column Event} (h : column ∈ eventColumns) :
    TrimsArgument column :=
  forall_mem_eventColumns trimsArgument_vehicleColumns trimsArgument_timeColumns
    trimsArgument_placeColumns trimsArgument_movementColumns trimsArgument_statusColumns
    trimsArgument_fuelColumns trimsArgument_engineColumns trimsArgument_airColumns
    trimsArgument_attachmentColumns column h

/-! ## The two forms of a request -/

theorem trimEnd_append {cs : List Char} (h : ∀ c ∈ cs, isBlankChar c = false) (ds : List Char) :
    trimEnd (cs ++ ds) = cs ++ trimEnd ds := by
  induction cs with
  | nil => rfl
  | cons c cs ih =>
    obtain ⟨hc, hcs⟩ := List.forall_mem_cons.1 h
    rw [List.cons_append, trimEnd_cons, ih hcs]
    simp [hc]

/-- Of a text that starts without blanks only the rest is trimmed. -/
theorem trimChars_append {cs : List Char} (hne : cs ≠ [])
    (h : ∀ c ∈ cs, isBlankChar c = false) (ds : List Char) :
    trimChars (cs ++ ds) = cs ++ trimEnd ds := by
  obtain ⟨c, cs, rfl⟩ := List.exists_cons_of_ne_nil hne
  have hc : ¬ isBlankChar c = true := by simp [h c List.mem_cons_self]
  rw [trimChars, List.cons_append, List.dropWhile_cons_of_neg hc, ← List.cons_append,
    trimEnd_append h]

theorem trimChars_eq_self {cs : List Char} (h : ∀ c ∈ cs, isBlankChar c = false) :
    trimChars cs = cs := by
  by_cases hne : cs = []
  · rw [hne]
    rfl
  · simpa [trimEnd] using trimChars_append hne h []

theorem isBlankChar_eq_false_of_isAlphanum {c : Char} (h : c.isAlphanum = true) :
    isBlankChar c = false := by
  -- letters of upper case, of lower case, and digits
  change ((decide (65 ≤ c.val ∧ c.val ≤ 90) || (decide (97 ≤ c.val) && decide (c.val ≤ 122))) ||
    (decide (48 ≤ c.val) && decide (c.val ≤ 57))) = true at h
  simp only [Bool.or_eq_true, Bool.and_eq_true, decide_eq_true_eq, UInt32.le_iff_toNat_le] at h
  change ((65 ≤ c.toNat ∧ c.toNat ≤ 90) ∨ (97 ≤ c.toNat ∧ c.toNat ≤ 122)) ∨
    (48 ≤ c.toNat ∧ c.toNat ≤ 57) at h
  simp only [isBlankChar, Bool.or_eq_false_iff, Bool.and_eq_false_iff, decide_eq_false_iff_not,
    beq_eq_false_iff_ne]
  omega

/-- A key has neither a blank nor a colon. -/
theorem forall_mem_key {key : String} (h : isValidKey key = true) :
    ∀ c ∈ key.toList, isBlankChar c = false ∧ c ≠ ':' := by
  intro c hc
  simp only [isValidKey, Bool.and_eq_true, List.all_eq_true, Bool.or_eq_true, beq_iff_eq] at h
  rcases h.2 c hc with h | rfl
  · refine ⟨isBlankChar_eq_false_of_isAlphanum h, ?_⟩
    rintro rfl
    exact absurd h (by decide)
  · decide

/-- The request with its argument trimmed. -/
def ColumnRequest.trimmed (request : ColumnRequest) : ColumnRequest :=
  request.withArgument (trim request.argument)

/-- **The short form** of a request is the long one, trimmed. -/
theorem parse_key_argument {key : String} (h : isValidKey key = true) (argument : String) :
    ColumnRequest.parse (key ++ ":" ++ argument) =
      (({ key } : ColumnRequest).withArgument argument).trimmed := by
  have hkey := forall_mem_key h
  have hblank : ∀ c ∈ key.toList ++ [':'], isBlankChar c = false := by
    intro c hc
    rcases List.mem_append.1 hc with hc | hc
    · exact (hkey c hc).1
    · rw [List.mem_singleton.1 hc]
      decide
  have htext : (key ++ ":" ++ argument).toList = (key.toList ++ [':']) ++ argument.toList := by
    simp
  have htrim : trimChars (key ++ ":" ++ argument).toList =
      key.toList ++ ':' :: trimEnd argument.toList := by
    rw [htext, trimChars_append (by simp) hblank, List.append_assoc, List.singleton_append]
  have hcut : cut? ':' (key.toList ++ ':' :: trimEnd argument.toList) =
      some (key.toList, trimEnd argument.toList) :=
    cut?_eq_some_iff.2 ⟨rfl, fun hm => (hkey _ hm).2 rfl⟩
  have hparse : ColumnRequest.parse (key ++ ":" ++ argument) =
      { key := String.ofList (trimChars key.toList)
        argument := String.ofList (trimChars (trimEnd argument.toList)) } := by
    simp only [ColumnRequest.parse, htrim, hcut]
  rw [hparse, trimChars_eq_self fun c hc => (hkey c hc).1, trimChars_trimEnd, String.ofList_toList]
  rfl

/-! ## The tables of both forms -/

section
variable (ctx : Context) (request : ColumnRequest)

theorem columnTitle_trimmed :
    columnTitle eventCatalog ctx request.trimmed = columnTitle eventCatalog ctx request := by
  simp only [columnTitle, ColumnRequest.trimmed, ColumnRequest.withArgument,
    ColumnRequest.titleOverride]
  cases hl : eventCatalog.lookup? request.key with
  | none => rfl
  | some column =>
    have hm : column ∈ eventColumns := List.mem_of_find?_eq_some hl
    simp only [(trimsArgument_of_mem hm).title ctx request.argument]

theorem resolveCell_trimmed (row : Nat) (e : Event) :
    resolveCell eventCatalog ctx row e request.trimmed =
      resolveCell eventCatalog ctx row e request :=
  resolveCell_congr rfl fun _ hm =>
    congrFun ((trimsArgument_of_mem hm).value row ctx request.argument) e

end

/-- Requests with trimmed arguments make the same table. -/
theorem assembleEvents_map_trimmed (ctx : Context) (requests : List ColumnRequest)
    (events : List Event) :
    assembleEvents ctx (requests.map .trimmed) events = assembleEvents ctx requests events := by
  have hrow : assembleRow eventCatalog ctx (requests.map .trimmed) =
      assembleRow eventCatalog ctx requests := by
    funext row e
    rw [assembleRow, List.map_map]
    refine List.map_congr_left fun request _ => ?_
    -- a filler hangs on no argument
    have hf : columnFiller ctx request.trimmed = columnFiller ctx request := rfl
    rw [Function.comp_apply, resolveCell_trimmed, hf]
  rw [assembleEvents, assemble, hrow, List.map_map]
  congr 1
  exact List.map_congr_left fun request _ => columnTitle_trimmed ctx request

/-- **Short and long form agree.**  For a well-formed key, the short form with
    any argument makes the same table as the long one; for no column tells an
    argument from its trimmed form, neither in its title nor in its values. -/
theorem short_and_long_form_agree :
    (∀ key argument, isValidKey key = true → ∀ ctx events,
      assembleEvents ctx [.parse (key ++ ":" ++ argument)] events =
        assembleEvents ctx [({ key } : ColumnRequest).withArgument argument] events) ∧
    ∀ column ∈ eventColumns, ∀ ctx argument,
      column.title ctx (trim argument) = column.title ctx argument ∧
      ∀ row e, column.value row ctx (trim argument) e = column.value row ctx argument e := by
  refine ⟨fun key argument hkey ctx events => ?_, fun column hm ctx argument => ⟨?_, ?_⟩⟩
  · rw [parse_key_argument hkey]
    exact assembleEvents_map_trimmed ctx [_] events
  · exact (trimsArgument_of_mem hm).title ctx argument
  · intro row e
    rw [(trimsArgument_of_mem hm).value row ctx argument]

/-- A property with wide blanks around its name and its format. -/
theorem wide_blanks_around_an_argument :
    let argument := "\u3000load : N1\u2003"
    let events : List Event := [{ attachmentProperties := some [("load", .float 2.5)] }]
    isValidKey "attachProp" = true ∧
      assembleEvents { now := 0 } [.parse ("attachProp" ++ ":" ++ argument)] events =
        assembleEvents { now := 0 } [({ key := "attachProp" } : ColumnRequest).withArgument argument]
          events ∧
      ∃ column ∈ eventColumns, column.key = "attachProp" ∧
        column.title { now := 0 } (trim argument) = column.title { now := 0 } argument := by
  intro argument events
  obtain ⟨htables, hcolumns⟩ := short_and_long_form_agree
  have hkey : ∃ column ∈ eventColumns, column.key = "attachProp" := by decide +kernel
  obtain ⟨column, hm, hk⟩ := hkey
  obtain ⟨htitle, -⟩ := hcolumns column hm { now := 0 } argument
  exact ⟨by decide, htables _ _ (by decide) _ _, column, hm, hk, htitle⟩

end EventTable
