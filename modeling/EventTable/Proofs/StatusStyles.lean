/-
  EventTable — the styles of status codes, from the settings to the cells.

  * `parseStatusCode?_formatCode`: a code that is shown is read as the code it was, in
    hexadecimal and in decimal;
  * `lastStyle?` is the style of the last key that denotes a code; where no two keys denote
    the same one (`Unambiguous`) it is that of any such key, in whatever order they stand
    (`lastStyle?_eq_some_iff`);
  * `StylesRun` holds of what comes of putting styles into a dictionary, and
    `stylesRun_foldlM` says that adding one after the other is such a run;
  * `Outcome` says what settings make, and `outcome_toContext` that `toContext` makes it;
  * `styledCell` is a cell with the colours of a style, and `AppliesStyle` says that both
    status columns show such cells;
  * `displayed_codes_find_their_styles` puts these together.
-/
import EventTable.EventCatalog
import EventTable.Proofs.Arguments
import EventTable.Proofs.Numerals
import EventTable.Settings.Basic

namespace EventTable

open Text Number Calendar Columns

/-! ## Codes as they are shown -/

section
variable (code : StatusCode)

theorem parseStatusCode?_hexCode : parseStatusCode? (hexCode code) = some code := by
  have htrim : trimChars (hexCode code).toList = '0' :: 'x' :: paddedHex 4 code.toNat := by
    rw [hexCode, String.toList_ofList]
    apply trimChars_eq_self
    simp only [List.forall_mem_cons]
    refine ⟨by decide, by decide, fun c hc => ?_⟩
    exact isBlankChar_eq_false_of_isAlphanum (isAlphanum_of_mem_paddedHex hc)
  unfold parseStatusCode?
  rw [htrim]
  simp [hexNat?_paddedHex, code.toNat_lt]

theorem parseStatusCode?_digits :
    parseStatusCode? (String.ofList (digits code.toNat)) = some code := by
  have htrim : trimChars (digits code.toNat) = digits code.toNat :=
    trimChars_eq_self fun c hc => isBlankChar_eq_false_of_isAlphanum (isAlphanum_of_mem_digits hc)
  unfold parseStatusCode?
  rw [String.toList_ofList, htrim]
  -- the second digit is no letter, so the number is read as a decimal one
  split
  · rename_i r h
    have hx : 'x' ∈ digits code.toNat := by simp [h]
    exact absurd (isDigit_of_mem_digits hx) (by decide)
  · rename_i r h
    have hx : 'X' ∈ digits code.toNat := by simp [h]
    exact absurd (isDigit_of_mem_digits hx) (by decide)
  · simp [nat?_digits, code.toNat_lt]

/-- A code is shown as a text that denotes it. -/
theorem parseStatusCode?_formatCode (a : StatusArgument) :
    parseStatusCode? (a.formatCode code) = some code := by
  rw [StatusArgument.formatCode]
  split
  · exact parseStatusCode?_digits code
  · exact parseStatusCode?_hexCode code

end

/-! ## Styles by code -/

/-- No two of the keys denote the same code. -/
def Unambiguous (styles : List (String × StatusStyle)) : Prop :=
  ∀ p ∈ styles, ∀ q ∈ styles, parseStatusCode? p.1 = parseStatusCode? q.1 → p = q

/-- The style of the last key that denotes the code. -/
def lastStyle? (styles : List (String × StatusStyle)) (code : StatusCode) : Option StatusStyle :=
  (styles.reverse.find? fun p => parseStatusCode? p.1 = some code).map Prod.snd

section
variable {styles styles' : List (String × StatusStyle)} {code : StatusCode} {style : StatusStyle}

theorem lastStyle?_cons (p : String × StatusStyle) :
    lastStyle? (p :: styles) code =
      (lastStyle? styles code).or (if parseStatusCode? p.1 = some code then some p.2 else none) := by
  rw [lastStyle?, lastStyle?, List.reverse_cons, List.find?_append]
  cases styles.reverse.find? fun p => parseStatusCode? p.1 = some code with
  | some q => rfl
  | none => by_cases hp : parseStatusCode? p.1 = some code <;> simp [hp]

theorem lastStyle?_eq_none_iff :
    lastStyle? styles code = none ↔ ∀ p ∈ styles, parseStatusCode? p.1 ≠ some code := by
  simp [lastStyle?]

theorem exists_of_lastStyle?_eq_some (h : lastStyle? styles code = some style) :
    ∃ key, (key, style) ∈ styles ∧ parseStatusCode? key = some code := by
  obtain ⟨⟨key, _⟩, hf, rfl⟩ := Option.map_eq_some_iff.1 h
  have hkey := List.find?_some hf
  exact ⟨key, List.mem_reverse.1 (List.mem_of_find?_eq_some hf), of_decide_eq_true hkey⟩

theorem lastStyle?_eq_some_iff (h : Unambiguous styles) :
    lastStyle? styles code = some style ↔
      ∃ key, (key, style) ∈ styles ∧ parseStatusCode? key = some code := by
  constructor
  · exact exists_of_lastStyle?_eq_some
  · rintro ⟨key, hm, hkey⟩
    cases hl : lastStyle? styles code with
    | none => exact absurd hkey (lastStyle?_eq_none_iff.1 hl (key, style) hm)
    | some other =>
      obtain ⟨key', hm', hkey'⟩ := exists_of_lastStyle?_eq_some hl
      have hsame := h (key', other) hm' (key, style) hm (hkey'.trans hkey.symm)
      rw [(Prod.mk.inj hsame).2]

theorem Unambiguous.perm (h : Unambiguous styles) (hp : styles'.Perm styles) :
    Unambiguous styles' :=
  fun p hp' q hq' => h p (hp.mem_iff.1 hp') q (hp.mem_iff.1 hq')

/-- The order of the keys does not matter. -/
theorem lastStyle?_perm (h : Unambiguous styles) (hp : styles'.Perm styles) :
    lastStyle? styles' code = lastStyle? styles code := by
  ext style
  rw [lastStyle?_eq_some_iff h, lastStyle?_eq_some_iff (h.perm hp)]
  simp only [hp.mem_iff]

end

/-! ## Settings -/

namespace Settings

/-- Adds the style of one key. -/
def addStyle (byCode : List (StatusCode × StatusStyle)) (p : String × StatusStyle) :
    Except SettingsError (List (StatusCode × StatusStyle)) :=
  match parseStatusCode? p.1 with
  | some code => .ok (Dictionary.put code p.2 byCode)
  | none => .error (.invalidStatusCode p.1)

theorem stylesByCode_eq (styles : List (String × StatusStyle)) :
    stylesByCode styles = styles.foldlM addStyle [] := rfl

/-- **What comes of adding styles** to those of `byCode`: a key that is no code ends it, and
    else the last key of a code counts. -/
inductive StylesRun (byCode : List (StatusCode × StatusStyle))
    (styles : List (String × StatusStyle)) :
    Except SettingsError (List (StatusCode × StatusStyle)) → Prop
  | invalid {p} : p ∈ styles → parseStatusCode? p.1 = none →
      StylesRun byCode styles (.error (.invalidStatusCode p.1))
  | valid {byCode'} : (∀ p ∈ styles, parseStatusCode? p.1 ≠ none) →
      (∀ code, byCode'.lookup code = (lastStyle? styles code).or (byCode.lookup code)) →
      StylesRun byCode styles (.ok byCode')

theorem stylesRun_foldlM (byCode : List (StatusCode × StatusStyle))
    (styles : List (String × StatusStyle)) :
    StylesRun byCode styles (styles.foldlM addStyle byCode) := by
  induction styles generalizing byCode with
  | nil => exact .valid (by simp) fun _ => rfl
  | cons p styles ih =>
    rw [List.foldlM_cons]
    cases hp : parseStatusCode? p.1 with
    | none =>
      have hadd : addStyle byCode p = .error (.invalidStatusCode p.1) := by rw [addStyle, hp]
      rw [hadd]
      exact .invalid List.mem_cons_self hp
    | some code =>
      have hadd : addStyle byCode p = .ok (Dictionary.put code p.2 byCode) := by rw [addStyle, hp]
      rw [hadd]
      show StylesRun byCode (p :: styles) (styles.foldlM addStyle (Dictionary.put code p.2 byCode))
      have hrun := ih (Dictionary.put code p.2 byCode)
      generalize styles.foldlM addStyle (Dictionary.put code p.2 byCode) = result at hrun ⊢
      cases hrun with
      | invalid hm hq => exact .invalid (List.mem_cons_of_mem p hm) hq
      | valid hall hlookup =>
        refine .valid (List.forall_mem_cons.2 ⟨by simp [hp], hall⟩) fun code' => ?_
        rw [hlookup, lastStyle?_cons, Dictionary.lookup_put, hp, Option.or_assoc]
        by_cases hc : code' = code
        · simp [hc]
        · simp [hc, Ne.symm hc]

/-- **What settings make.**  The time zone is checked before the status codes. -/
inductive Outcome (s : Settings) : Except SettingsError Context → Prop
  | timezone : Zone.parse? s.timezone = none → Outcome s (.error (.invalidTimezone s.timezone))
  | statusCode {p} : Zone.parse? s.timezone ≠ none → p ∈ s.statusStyles →
      parseStatusCode? p.1 = none → Outcome s (.error (.invalidStatusCode p.1))
  | context {ctx : Context} : Zone.parse? s.timezone ≠ none →
      (∀ p ∈ s.statusStyles, parseStatusCode? p.1 ≠ none) →
      (∀ code, ctx.statusStyle? code = lastStyle? s.statusStyles code) → Outcome s (.ok ctx)

theorem outcome_toContext (s : Settings) (now : Int) (directory : Option Directory) :
    Outcome s (s.toContext now directory) := by
  rw [toContext]
  cases hz : Zone.parse? s.timezone with
  | none => exact .timezone hz
  | some zone =>
    have hzone : Zone.parse? s.timezone ≠ none := by simp [hz]
    have hrun := stylesRun_foldlM [] s.statusStyles
    rw [← stylesByCode_eq] at hrun
    generalize stylesByCode s.statusStyles = result at hrun
    cases hrun with
    | invalid hm hp => exact .statusCode hzone hm hp
    | valid hall hlookup =>
      refine .context hzone hall fun code => ?_
      rw [Context.statusStyle?, hlookup, List.lookup_nil, Option.or_none]

section
variable {s : Settings} {now : Int} {directory : Option Directory} {ctx : Context}

theorem toContext_eq_invalidTimezone_iff {t : String} :
    s.toContext now directory = .error (.invalidTimezone t) ↔
      Zone.parse? s.timezone = none ∧ t = s.timezone := by
  have h := outcome_toContext s now directory
  generalize s.toContext now directory = result at h
  cases h with
  | timezone hz => simp [hz, eq_comm]
  | statusCode hz hm hp => simp [hz]
  | context hz hall hlookup => simp [hz]

theorem exists_of_toContext_eq_invalidStatusCode {t : String}
    (h : s.toContext now directory = .error (.invalidStatusCode t)) :
    ∃ style, (t, style) ∈ s.statusStyles ∧ parseStatusCode? t = none := by
  have ho := outcome_toContext s now directory
  rw [h] at ho
  cases ho with
  | @statusCode p hz hm hp => exact ⟨p.2, hm, hp⟩

theorem exists_toContext_eq_invalidStatusCode_iff (hz : Zone.parse? s.timezone ≠ none) :
    (∃ t, s.toContext now directory = .error (.invalidStatusCode t)) ↔
      ∃ p ∈ s.statusStyles, parseStatusCode? p.1 = none := by
  constructor
  · rintro ⟨t, h⟩
    obtain ⟨style, hm, ht⟩ := exists_of_toContext_eq_invalidStatusCode h
    exact ⟨(t, style), hm, ht⟩
  · rintro ⟨q, hm, hq⟩
    have h := outcome_toContext s now directory
    generalize s.toContext now directory = result at h
    cases h with
    | timezone hz' => exact absurd hz' hz
    | @statusCode p hz' hm' hp => exact ⟨p.1, rfl⟩
    | context hz' hall hlookup => exact absurd hq (hall q hm)

theorem exists_toContext_eq_ok (hz : Zone.parse? s.timezone ≠ none)
    (hall : ∀ p ∈ s.statusStyles, parseStatusCode? p.1 ≠ none) :
    ∃ ctx, s.toContext now directory = .ok ctx := by
  have h := outcome_toContext s now directory
  generalize s.toContext now directory = result at h
  cases h with
  | timezone hz' => exact absurd hz' hz
  | statusCode hz' hm hp => exact absurd hp (hall _ hm)
  | @context ctx hz' hall' hlookup => exact ⟨ctx, rfl⟩

theorem statusStyle?_of_toContext (h : s.toContext now directory = .ok ctx) (code : StatusCode) :
    ctx.statusStyle? code = lastStyle? s.statusStyles code := by
  have ho := outcome_toContext s now directory
  rw [h] at ho
  cases ho with
  | context hz hall hlookup => exact hlookup code

/-- Settings with the keys in another order make a context with the same styles. -/
theorem exists_toContext_perm (h : s.toContext now directory = .ok ctx)
    (hu : Unambiguous s.statusStyles) {styles : List (String × StatusStyle)}
    (hp : styles.Perm s.statusStyles) :
    ∃ ctx', toContext { s with statusStyles := styles } now directory = .ok ctx' ∧
      ∀ code, ctx'.statusStyle? code = ctx.statusStyle? code := by
  have ho := outcome_toContext s now directory
  rw [h] at ho
  cases ho with
  | context hz hall hlookup =>
    have hall' : ∀ p ∈ styles, parseStatusCode? p.1 ≠ none :=
      fun p hm => hall p (hp.mem_iff.1 hm)
    obtain ⟨ctx', hctx'⟩ : ∃ ctx',
        toContext { s with statusStyles := styles } now directory = .ok ctx' :=
      exists_toContext_eq_ok hz hall'
    refine ⟨ctx', hctx', fun code => ?_⟩
    rw [hlookup, statusStyle?_of_toContext hctx', lastStyle?_perm hu hp]

end

end Settings

/-! ## Cells with a style -/

/-- A text for a code with a style, in the colours of the style if the argument asks for
    them. -/
def styledCell (style : StatusStyle) (argument : StatusArgument) (code : StatusCode)
    (text : String) : Cell where
  text := some text
  sortKey := some (Float.ofNat code.toNat)
  foreground := if argument.colored then style.foreground.bind nonBlank? else none
  background := if argument.colored then style.background.bind nonBlank? else none

/-- The description of a style, trimmed, or the code if there is nothing to show. -/
def StatusStyle.descriptionFor (style : StatusStyle) (code : StatusCode) : String :=
  if isBlank style.description then hexCode code else trim style.description

section
variable {ctx : Context} {code : StatusCode} {style : StatusStyle}

/-- A colour to be shown is set as it is. -/
theorem nonBlank?_of_bind {color? : Option String} {color : String}
    (h : color?.bind nonBlank? = some color) : nonBlank? color = some color := by
  obtain ⟨text, -, ht⟩ := Option.bind_eq_some_iff.1 h
  obtain ⟨-, rfl⟩ := nonBlank?_eq_some_iff.1 ht
  exact ht

theorem StatusStyle.hasColors_eq_false_iff :
    style.hasColors = false ↔
      style.foreground.bind nonBlank? = none ∧ style.background.bind nonBlank? = none := by
  rw [hasColors]
  cases style.foreground <;> cases style.background <;> simp [nonBlank?_eq_none_iff]

/-- The colours of a style stand in front of those that the cell has. -/
theorem styled_eq (h : ctx.statusStyle? code = some style) (cell : Cell) :
    styled ctx code cell =
      { cell with
        foreground := (style.foreground.bind nonBlank?).or cell.foreground
        background := (style.background.bind nonBlank?).or cell.background } := by
  rw [styled, h, Option.filter_some]
  cases hc : style.hasColors with
  | false =>
    obtain ⟨hfore, hback⟩ := StatusStyle.hasColors_eq_false_iff.1 hc
    rw [hfore, hback]
    rfl
  | true =>
    rw [if_pos rfl]
    dsimp only
    cases hfore : style.foreground.bind nonBlank? with
    | none =>
      cases hback : style.background.bind nonBlank? with
      | none => rfl
      | some background => simp [Cell.withBackground, nonBlank?_of_bind hback]
    | some foreground =>
      cases hback : style.background.bind nonBlank? with
      | none => simp [Cell.withForeground, nonBlank?_of_bind hfore]
      | some background =>
        simp [Cell.withForeground, Cell.withBackground, nonBlank?_of_bind hfore,
          nonBlank?_of_bind hback]

theorem statusCell_eq_styledCell (h : ctx.statusStyle? code = some style)
    (argument : StatusArgument) (text : String) :
    statusCell ctx argument code text = styledCell style argument code text := by
  rw [statusCell, styledCell]
  cases argument.colored with
  | false => rfl
  | true =>
    rw [if_pos rfl, styled_eq h]
    simp [Cell.withSortKey, Cell.ofText, Cell.withText, Cell.blank]

theorem statusDescription_eq (h : ctx.statusStyle? code = some style) :
    statusDescription ctx code = style.descriptionFor code := by
  rw [statusDescription, h, Option.map_some, Option.filter_some, StatusStyle.descriptionFor]
  by_cases hb : isBlank style.description = true
  · simp [hb, (isBlank_iff _).1 hb]
  · simp [hb, mt (isBlank_iff _).2 hb]

/-- **Both status columns apply the style** to the events with the code, whatever the
    argument. -/
structure AppliesStyle (ctx : Context) (code : StatusCode) (style : StatusStyle) : Prop where
  statusCode : ∃ column, eventCatalog.lookup? "statusCode" = some column ∧
    ∀ row argument e, e.statusCode = code → column.value row ctx argument e =
      .ok (styledCell style (.parse argument) code ((StatusArgument.parse argument).formatCode code))
  statusDesc : ∃ column, eventCatalog.lookup? "statusDesc" = some column ∧
    ∀ row argument e, e.statusCode = code → column.value row ctx argument e =
      .ok (styledCell style (.parse argument) code (style.descriptionFor code))

theorem appliesStyle_of_statusStyle? (h : ctx.statusStyle? code = some style) :
    AppliesStyle ctx code style where
  statusCode := by
    refine ⟨_, rfl, fun row argument e he => ?_⟩
    subst he
    exact congrArg Except.ok (statusCell_eq_styledCell h _ _)
  statusDesc := by
    refine ⟨_, rfl, fun row argument e he => ?_⟩
    subst he
    rw [← statusDescription_eq h]
    exact congrArg Except.ok (statusCell_eq_styledCell h _ _)

end

/-! ## From the settings to the cells -/

/-- **Displayed codes find their styles.**  Settings with an unreadable time zone are
    refused with it, and other ones exactly if some key is no status code, naming such a
    key; all others make a context.  Where no two keys denote the same code, the context
    has for each code the style of its key, in whatever order the keys stand, and no style
    for a code without a key.  A code is displayed, in hexadecimal or in decimal, as a text
    that denotes it; so a style whose key is the displayed code is the one that both status
    columns apply. -/
theorem displayed_codes_find_their_styles (s : Settings) (now : Int)
    (directory : Option Directory) :
    (∀ t, s.toContext now directory = .error (.invalidTimezone t) ↔
      Zone.parse? s.timezone = none ∧ t = s.timezone) ∧
    (Zone.parse? s.timezone ≠ none →
      ((∃ t, s.toContext now directory = .error (.invalidStatusCode t)) ↔
        ∃ p ∈ s.statusStyles, parseStatusCode? p.1 = none) ∧
      (∀ t, s.toContext now directory = .error (.invalidStatusCode t) →
        ∃ style, (t, style) ∈ s.statusStyles ∧ parseStatusCode? t = none) ∧
      ((∀ p ∈ s.statusStyles, parseStatusCode? p.1 ≠ none) →
        ∃ ctx, s.toContext now directory = .ok ctx)) ∧
    (∀ (a : StatusArgument) (code : StatusCode),
      parseStatusCode? (a.formatCode code) = some code) ∧
    ∀ ctx, s.toContext now directory = .ok ctx → Unambiguous s.statusStyles →
      (∀ code style, ctx.statusStyle? code = some style ↔
        ∃ key, (key, style) ∈ s.statusStyles ∧ parseStatusCode? key = some code) ∧
      (∀ code, ctx.statusStyle? code = none ↔
        ∀ p ∈ s.statusStyles, parseStatusCode? p.1 ≠ some code) ∧
      (∀ styles, styles.Perm s.statusStyles →
        ∃ ctx', Settings.toContext { s with statusStyles := styles } now directory = .ok ctx' ∧
          ∀ code, ctx'.statusStyle? code = ctx.statusStyle? code) ∧
      ∀ (a : StatusArgument) code style, (a.formatCode code, style) ∈ s.statusStyles →
        AppliesStyle ctx code style := by
  refine ⟨?timezone, ?statusCodes, ?displayed, ?styles⟩
  case timezone => exact fun t => Settings.toContext_eq_invalidTimezone_iff
  case statusCodes =>
    intro hz
    refine ⟨Settings.exists_toContext_eq_invalidStatusCode_iff hz, fun t h => ?_, fun hall => ?_⟩
    · exact Settings.exists_of_toContext_eq_invalidStatusCode h
    · exact Settings.exists_toContext_eq_ok hz hall
  case displayed => exact fun a code => parseStatusCode?_formatCode code a
  case styles =>
    intro ctx hctx hu
    have hstyle : ∀ code style, ctx.statusStyle? code = some style ↔
        ∃ key, (key, style) ∈ s.statusStyles ∧ parseStatusCode? key = some code := by
      intro code style
      rw [Settings.statusStyle?_of_toContext hctx, lastStyle?_eq_some_iff hu]
    refine ⟨hstyle, fun code => ?_, fun styles hp => ?_, fun a code style hm => ?_⟩
    · rw [Settings.statusStyle?_of_toContext hctx, lastStyle?_eq_none_iff]
    · exact Settings.exists_toContext_perm hctx hu hp
    · have hcode := (hstyle code style).2 ⟨_, hm, parseStatusCode?_formatCode code a⟩
      exact appliesStyle_of_statusStyle? hcode

/-- The style of a decimal code is applied to the events with that code, beside one in
    hexadecimal. -/
theorem decimal_code_finds_its_style :
    let moved : StatusStyle := { description := " Moved ", foreground := some "#00AA00" }
    let s : Settings :=
      { timezone := "utc+2", statusStyles := [(" 0X12", {}), ("61472", moved)] }
    Zone.parse? s.timezone ≠ none ∧ (∀ p ∈ s.statusStyles, parseStatusCode? p.1 ≠ none) ∧
      Unambiguous s.statusStyles ∧ (StatusArgument.parse "dec").formatCode 0xF020 = "61472" ∧
      ∃ ctx, s.toContext 0 none = .ok ctx ∧ ctx.statusStyle? 0x12 = some {} ∧
        ctx.statusStyle? 0x13 = none ∧ AppliesStyle ctx 0xF020 moved := by
  intro moved s
  have hzone : Zone.parse? s.timezone ≠ none := by decide +kernel
  have hkeys : ∀ p ∈ s.statusStyles, parseStatusCode? p.1 ≠ none := by decide +kernel
  have hu : Unambiguous s.statusStyles := by
    unfold Unambiguous
    decide +kernel
  have hshown : (StatusArgument.parse "dec").formatCode 0xF020 = "61472" := by decide +kernel
  obtain ⟨-, hcodes, -, hstyles⟩ := displayed_codes_find_their_styles s 0 none
  obtain ⟨-, -, hok⟩ := hcodes hzone
  obtain ⟨ctx, hctx⟩ := hok hkeys
  obtain ⟨hsome, hnone, -, happly⟩ := hstyles ctx hctx hu
  refine ⟨hzone, hkeys, hu, hshown, ctx, hctx, ?hex, ?other, ?decimal⟩
  case hex => exact (hsome 0x12 {}).2 ⟨" 0X12", List.mem_cons_self, by decide +kernel⟩
  case other => exact (hnone 0x13).2 (by decide +kernel)
  case decimal =>
    have hm : ((StatusArgument.parse "dec").formatCode 0xF020, moved) ∈ s.statusStyles := by
      rw [hshown]
      exact List.mem_cons_of_mem _ List.mem_cons_self
    exact happly _ _ _ hm

end EventTable
