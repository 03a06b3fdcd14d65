/-
  EventTable — what the titles of columns say about units.

  * `Preference.placeholders` are the names that stand for the label of a preferred
    unit (`lookup_titleValues`);
  * `Context.Writes` holds of a placeholder that a title has from a text of the
    string table, or from the argument;
  * `TitleParts` takes a title apart: a text of its own, and a line behind it that is
    empty or fixed, or names the time zone or the unit of the column;
  * `TitleForm` lists the forms that titles have, `titleForm_of_mem` says that all
    columns over events have one of them, and `exists_titleParts` that their titles can
    be taken apart;
  * `TitleParts.expandTitle_eq`: what is shown of both parts;
  * `unit_preferences_act_on_their_own` puts these together with what is known of
    the cells.
-/
import EventTable.Proofs.Expansion
import EventTable.Proofs.Preferences

namespace EventTable

open Text

/-! ## The labels of units -/

/-- The names that stand for the preferred unit in titles. -/
def Preference.placeholders : Preference → List String
  | unit .distance => ["distanceUnits"]
  | unit .speed => ["speedUnits"]
  | unit .volume => ["volumeUnits"]
  | unit .pressure => ["pressureUnits"]
  | unit .temperature => ["temperatureUnits"]
  | unit .economy => ["economyUnits"]
  | unit .altitude => ["altitudeUnits", "accuracyUnits"]
  | coordinates => []

namespace Preference

variable {p p' : Preference} {name : String}

/-- A name stands for one unit only. -/
theorem eq_of_mem_placeholders (h : name ∈ p.placeholders) (h' : name ∈ p'.placeholders) :
    p = p' := by
  have hunits : ∀ q q', ∀ name ∈ (unit q).placeholders, name ∈ (unit q').placeholders → q = q' := by
    intro q q'
    cases q <;> cases q' <;> decide
  cases p with
  | coordinates => exact absurd h List.not_mem_nil
  | unit q =>
    cases p' with
    | coordinates => exact absurd h' List.not_mem_nil
    | unit q' => rw [hunits q q' name h h']

/-- The names are words. -/
theorem word_of_mem_placeholders (h : name ∈ p.placeholders) :
    name ≠ "timezone" ∧ '\n' ∉ placeholder name.toList ∧ '\x7d' ∉ name.toList ∧
      '$' ∉ name.toList := by
  have hunits : ∀ q, ∀ name ∈ (unit q).placeholders,
      name ≠ "timezone" ∧ '\n' ∉ placeholder name.toList ∧ '\x7d' ∉ name.toList ∧
        '$' ∉ name.toList := by
    intro q
    cases q <;> decide
  cases p with
  | unit q => exact hunits q name h
  | coordinates => exact absurd h List.not_mem_nil

end Preference

namespace Context

variable {ctx ctx' : Context} {p : Preference}

theorem lookup_titleValues (ctx : Context) {q : Quantity} {name : String}
    (h : name ∈ (Preference.unit q).placeholders) :
    ctx.titleValues.lookup name = some (ctx.unitText q) := by
  cases q with
  | altitude =>
    simp only [Preference.placeholders, List.mem_cons, List.not_mem_nil, or_false] at h
    rcases h with rfl | rfl <;> rfl
  | _ =>
    obtain rfl := List.mem_singleton.1 h
    rfl

theorem lookup_titleValues_congr (hctx : ctx.DifferIn p ctx') {name : String}
    (h : name ∉ p.placeholders) : ctx'.titleValues.lookup name = ctx.titleValues.lookup name := by
  rw [hctx]
  cases p with
  | coordinates => rfl
  | unit q =>
    cases q with
    | altitude =>
      simp only [Preference.placeholders, List.mem_cons, List.not_mem_nil, or_false, not_or,
        ← beq_eq_false_iff_ne] at h
      simp only [titleValues, List.lookup_cons, h]
      rfl
    | _ =>
      simp only [Preference.placeholders, List.mem_singleton, ← Ne.eq_def,
        ← beq_eq_false_iff_ne] at h
      simp only [titleValues, List.lookup_cons, h]
      rfl

theorem expandTitle_eq (ctx : Context) (title : String) :
    ctx.expandTitle title = expand ctx.titleValues title := by
  rw [expandTitle]
  split
  · rfl
  · rename_i h
    rw [expand, expandChars_of_not_occursIn _ (Bool.eq_false_iff.2 h), String.ofList_toList]

theorem expandTitle_of_not_mem (ctx : Context) {title : String} (h : '$' ∉ title.toList) :
    ctx.expandTitle title = title := by
  rw [expandTitle_eq, expand, expandChars_of_not_mem h, String.ofList_toList]

theorem expandTitle_placeholder (ctx : Context) {name value : String} (hn : '\x7d' ∉ name.toList)
    (hv : ctx.titleValues.lookup name = some value) :
    ctx.expandTitle (String.ofList (placeholder name.toList)) = value := by
  rw [expandTitle_eq, expand, String.toList_ofList, ← List.append_nil (placeholder _),
    expandChars_placeholder_append hn, expandChars_nil, String.ofList_toList, hv]
  simp

/-- A line behind a text that leaves no placeholder open is filled by itself. -/
theorem expandTitle_append_line (ctx : Context) {title : String} (h : Closed title.toList)
    (line : String) : ctx.expandTitle (title ++ ("\n" ++ line)) =
      ctx.expandTitle title ++ ("\n" ++ ctx.expandTitle line) := by
  have htext : (title ++ ("\n" ++ line)).toList = title.toList ++ '\n' :: line.toList := by simp
  rw [expandTitle_eq, expandTitle_eq, expandTitle_eq, expand, htext, expandChars_append_line h,
    ← String.toList_inj]
  simp [expand]

/-- A title without the unit of a preference is the same whatever is preferred. -/
theorem expandTitle_congr (hctx : ctx.DifferIn p ctx') {title : String}
    (h : ∀ name ∈ p.placeholders, ¬ placeholder name.toList <:+: title.toList) :
    ctx'.expandTitle title = ctx.expandTitle title := by
  rw [expandTitle_eq, expandTitle_eq, expand, expand]
  refine congrArg String.ofList (expandChars_congr fun name hn => ?_)
  have hname : String.ofList name ∉ p.placeholders := by
    intro hm
    refine h _ hm ?_
    rwa [String.toList_ofList]
  rw [lookup_titleValues_congr hctx hname]

/-- **A placeholder is written** in a text of the string table, or in the argument. -/
def Writes (ctx : Context) (argument name : String) : Prop :=
  (∃ key text, ctx.strings.lookup key = some text ∧ placeholder name.toList <:+: text.toList) ∨
    placeholder name.toList <:+: argument.toList

theorem writes_of_text {key default argument name : String} (hd : '$' ∉ default.toList)
    (h : placeholder name.toList <:+: (ctx.text key default).toList) :
    ctx.Writes argument name := by
  rw [text] at h
  cases hl : ctx.strings.lookup key with
  | none =>
    rw [hl] at h
    exact absurd (h.subset (dollar_mem_placeholder _)) hd
  | some text =>
    rw [hl] at h
    exact .inl ⟨key, text, hl, h⟩

end Context

/-! ## The parts of a title -/

/-- **The line behind the text of a title**, as it is written and as it is shown. -/
inductive Ending (ctx : Context) (key : String) : (line shown : String) → Prop
  | none : Ending ctx key "" ""
  | fixed {line} : '$' ∉ line.toList → Ending ctx key ("\n" ++ line) ("\n" ++ line)
  | zone : key ∈ ["dateTime", "createDateTime"] →
      Ending ctx key ("\n" ++ String.ofList (placeholder "timezone".toList))
        ("\n" ++ ctx.zone.label)
  | unit {q name} : key ∈ (Preference.unit q).keys → name ∈ (Preference.unit q).placeholders →
      Ending ctx key ("\n" ++ String.ofList (placeholder name.toList)) ("\n" ++ ctx.unitText q)

/-- **A title in two parts.**  A unit in the first one was written there. -/
structure TitleParts (column : Column Event) (ctx : Context) (argument own line shown : String) :
    Prop where
  title : column.title ctx argument = own ++ line
  ending : Ending ctx column.key line shown
  written : ∀ p : Preference, ∀ name ∈ p.placeholders,
    placeholder name.toList <:+: own.toList → ctx.Writes argument name

section
variable {column : Column Event} {ctx : Context} {argument own line shown : String}
  {p : Preference} {name : String}

theorem infix_append_line_iff {p : List Char} (hn : '\n' ∉ p) (hp : p ≠ []) (own line : String) :
    p <:+: (own ++ ("\n" ++ line)).toList ↔ p <:+: own.toList ∨ p <:+: line.toList := by
  have htext : (own ++ ("\n" ++ line)).toList = own.toList ++ '\n' :: line.toList := by simp
  rw [htext, infix_append_cons_iff hn hp]

/-- The unit that a title has of itself is that of its column. -/
theorem TitleParts.mem_keys_or_writes (h : TitleParts column ctx argument own line shown)
    (hn : name ∈ p.placeholders)
    (hi : placeholder name.toList <:+: (column.title ctx argument).toList) :
    column.key ∈ p.keys ∨ ctx.Writes argument name := by
  obtain ⟨hzone, hline, hbrace, -⟩ := Preference.word_of_mem_placeholders hn
  have hne : placeholder name.toList ≠ [] := List.ne_nil_of_mem (dollar_mem_placeholder _)
  rw [h.title] at hi
  cases h.ending with
  | none =>
    rw [String.append_empty] at hi
    exact .inr (h.written p name hn hi)
  | fixed hd =>
    rcases (infix_append_line_iff hline hne ..).1 hi with hi | hi
    · exact .inr (h.written p name hn hi)
    · exact absurd (hi.subset (dollar_mem_placeholder _)) hd
  | zone =>
    rcases (infix_append_line_iff hline hne ..).1 hi with hi | hi
    · exact .inr (h.written p name hn hi)
    · rw [String.toList_ofList] at hi
      have hname := eq_of_infix_placeholder hbrace (by decide) (by decide) hi
      exact absurd (String.toList_inj.1 hname) hzone
  | @unit q name' hk hn' =>
    rcases (infix_append_line_iff hline hne ..).1 hi with hi | hi
    · exact .inr (h.written p name hn hi)
    · obtain ⟨-, -, hbrace', hdollar'⟩ := Preference.word_of_mem_placeholders hn'
      rw [String.toList_ofList] at hi
      obtain rfl := String.toList_inj.1 (eq_of_infix_placeholder hbrace hbrace' hdollar' hi)
      exact .inl (Preference.eq_of_mem_placeholders hn hn' ▸ hk)

/-- What is shown of a title: its own text, filled, and the line behind it. -/
theorem TitleParts.expandTitle_eq (h : TitleParts column ctx argument own line shown)
    (hc : Closed own.toList) :
    ctx.expandTitle (column.title ctx argument) = ctx.expandTitle own ++ shown := by
  rw [h.title]
  cases h.ending with
  | none => rw [String.append_empty, String.append_empty]
  | fixed hd => rw [ctx.expandTitle_append_line hc, ctx.expandTitle_of_not_mem hd]
  | zone =>
    have hzone : ctx.titleValues.lookup "timezone" = some ctx.zone.label := rfl
    rw [ctx.expandTitle_append_line hc, ctx.expandTitle_placeholder (by decide) hzone]
  | unit _ hn =>
    obtain ⟨-, -, hbrace, -⟩ := Preference.word_of_mem_placeholders hn
    rw [ctx.expandTitle_append_line hc,
      ctx.expandTitle_placeholder hbrace (ctx.lookup_titleValues hn)]

end

/-! ## All columns -/

/-- The titles of the column can be taken apart. -/
def Titled (column : Column Event) : Prop :=
  ∀ ctx argument, ∃ own line shown, TitleParts column ctx argument own line shown

namespace Titled

open Columns

variable {column : Column Event} {key default : String}

theorem fixed (ht : column.title = fixedTitle key default) (hd : '$' ∉ default.toList) :
    Titled column := by
  intro ctx argument
  refine ⟨ctx.text key default, "", "", ?_, .none, fun _ _ _ hi => Context.writes_of_text hd hi⟩
  rw [ht, fixedTitle, String.append_empty]

theorem lined {line : String} (ht : column.title = linedTitle key default line)
    (hd : '$' ∉ default.toList) {shown : Context → String}
    (he : ∀ ctx, Ending ctx column.key ("\n" ++ line) (shown ctx)) : Titled column := by
  intro ctx argument
  refine ⟨ctx.text key default, "\n" ++ line, shown ctx, ?_, he ctx,
    fun _ _ _ hi => Context.writes_of_text hd hi⟩
  rw [ht, linedTitle, String.append_assoc]

end Titled

theorem cutLast?_eq_append {c : Char} {cs before after : List Char}
    (h : cutLast? c cs = some (before, after)) : cs = before ++ c :: after := by
  obtain ⟨⟨a, b⟩, hcut, heq⟩ := Option.map_eq_some_iff.1 h
  obtain ⟨rfl, rfl⟩ := Prod.mk.inj heq
  obtain ⟨hcs, -⟩ := cut?_eq_some_iff.1 hcut
  rw [← List.reverse_reverse cs, hcs]
  simp

/-- Breaking a title adds no placeholder. -/
theorem infix_of_infix_wrapTitle {p : List Char} {title : String} (hn : '\n' ∉ p) (hp : p ≠ [])
    (h : p <:+: (Columns.wrapTitle title).toList) : p <:+: title.toList := by
  rw [Columns.wrapTitle] at h
  split at h
  · exact h
  · split at h
    · rename_i before after hcut
      split at h
      · exact h
      · rw [String.toList_ofList, infix_append_cons_iff hn hp] at h
        rw [cutLast?_eq_append hcut]
        rcases h with h | h
        · exact h.trans (List.prefix_append ..).isInfix
        · exact h.trans ((List.suffix_cons ..).trans (List.suffix_append ..)).isInfix
    · exact h

theorem infix_trimChars (cs : List Char) : trimChars cs <:+: cs := by
  have hend : ∀ cs, trimEnd cs <+: cs := by
    intro cs
    rw [trimEnd, ← List.reverse_suffix, List.reverse_reverse]
    exact List.dropWhile_suffix _
  exact (hend _).isInfix.trans (List.dropWhile_suffix _).isInfix

theorem infix_splitPropertyArgument (argument : String) :
    (Columns.splitPropertyArgument argument).1.toList <:+: argument.toList := by
  have htrim := infix_trimChars argument.toList
  rw [Columns.splitPropertyArgument]
  cases hcut : cut? ':' (trimChars argument.toList) with
  | none => simpa [hcut] using htrim
  | some parts =>
    obtain ⟨name, format⟩ := parts
    have hname : name <+: trimChars argument.toList := by
      rw [(cut?_eq_some_iff.1 hcut).1]
      exact List.prefix_append ..
    simpa [hcut] using (infix_trimChars name).trans (hname.isInfix.trans htrim)

theorem titled_customField {column : Column Event} (ht : column.title = Columns.customFieldTitle) :
    Titled column := by
  intro ctx argument
  refine ⟨column.title ctx argument, "", "", (String.append_empty ..).symm, .none,
    fun p name hm hi => ?_⟩
  obtain ⟨-, hline, -⟩ := Preference.word_of_mem_placeholders hm
  rw [ht, Columns.customFieldTitle] at hi
  cases hl : ctx.strings.lookup ("deviceInfo.custom." ++ trim argument) with
  | none =>
    rw [hl] at hi
    exact Context.writes_of_text (by decide) hi
  | some text =>
    rw [hl] at hi
    have hne := List.ne_nil_of_mem (dollar_mem_placeholder name.toList)
    exact .inl ⟨_, text, hl, infix_of_infix_wrapTitle hline hne hi⟩

theorem titled_attachProp {column : Column Event} (ht : column.title = Columns.attachPropTitle) :
    Titled column := by
  intro ctx argument
  refine ⟨column.title ctx argument, "", "", (String.append_empty ..).symm, .none,
    fun p name hm hi => ?_⟩
  rw [ht, Columns.attachPropTitle] at hi
  dsimp only at hi
  split at hi
  · exact Context.writes_of_text (by decide) hi
  · exact .inr (hi.trans (infix_splitPropertyArgument argument))

open Columns

/-- **The forms of titles**: a text of the string table, such a text with a line behind
    it, and the names of free attributes and of properties. -/
inductive TitleForm (column : Column Event) : Prop
  | fixed {key default} : column.title = fixedTitle key default → '$' ∉ default.toList →
      TitleForm column
  | lined {key default line} {shown : Context → String} :
      column.title = linedTitle key default line → '$' ∉ default.toList →
      (∀ ctx, Ending ctx column.key ("\n" ++ line) (shown ctx)) → TitleForm column
  | customField : column.title = customFieldTitle → TitleForm column
  | attachProp : column.title = attachPropTitle → TitleForm column

namespace TitleForm

variable {column : Column Event} {key default : String}

theorem zone (ht : column.title = unitTitle key default "timezone") (hd : '$' ∉ default.toList)
    (hk : column.key ∈ ["dateTime", "createDateTime"]) : TitleForm column :=
  .lined ht hd fun _ => .zone hk

theorem unit {name : String} (q : Quantity) (ht : column.title = unitTitle key default name)
    (hd : '$' ∉ default.toList) (hk : column.key ∈ (Preference.unit q).keys)
    (hn : name ∈ (Preference.unit q).placeholders) : TitleForm column :=
  .lined ht hd fun _ => .unit hk hn

theorem titled (h : TitleForm column) : Titled column := by
  cases h with
  | fixed ht hd => exact .fixed ht hd
  | lined ht hd he => exact .lined ht hd he
  | customField ht => exact titled_customField ht
  | attachProp ht => exact titled_attachProp ht

end TitleForm

theorem titleForm_vehicleColumns : ∀ column ∈ vehicleColumns, TitleForm column := by
  simp only [vehicleColumns, List.forall_mem_cons, List.not_mem_nil, false_imp_iff,
    implies_true, and_true]
  refine ⟨.fixed rfl ?_, .fixed rfl ?_, .fixed rfl ?_, .fixed rfl ?_, .fixed rfl ?_,
    .fixed rfl ?_, .fixed rfl ?_, .customField rfl⟩
  all_goals decide

theorem titleForm_timeColumns : ∀ column ∈ timeColumns, TitleForm column := by
  simp only [timeColumns, List.forall_mem_cons, List.not_mem_nil, false_imp_iff, implies_true,
    and_true]
  refine ⟨.fixed rfl ?_, .fixed rfl ?_, .zone rfl ?_ ?_, .lined rfl ?_ fun _ => .fixed ?_,
    .zone rfl ?_ ?_, .fixed rfl ?_, .fixed rfl ?_, .fixed rfl ?_, .fixed rfl ?_⟩
  all_goals decide

theorem titleForm_placeColumns : ∀ column ∈ placeColumns, TitleForm column := by
  simp only [placeColumns, List.forall_mem_cons, List.not_mem_nil, false_imp_iff, implies_true,
    and_true]
  refine ⟨.fixed rfl ?_, .fixed rfl ?_, .fixed rfl ?_, .fixed rfl ?_, .unit .altitude rfl ?_ ?_ ?_,
    .unit .altitude rfl ?_ ?_ ?_, .fixed rfl ?_, .fixed rfl ?_, .fixed rfl ?_⟩
  all_goals decide

theorem titleForm_movementColumns : ∀ column ∈ movementColumns, TitleForm column := by
  simp only [movementColumns, List.forall_mem_cons, List.not_mem_nil, false_imp_iff, implies_true,
    and_true]
  refine ⟨.unit .speed rfl ?_ ?_ ?_, .unit .speed rfl ?_ ?_ ?_, .unit .speed rfl ?_ ?_ ?_,
    .fixed rfl ?_, .fixed rfl ?_, .unit .distance rfl ?_ ?_ ?_, .unit .distance rfl ?_ ?_ ?_,
    .unit .distance rfl ?_ ?_ ?_⟩
  all_goals decide

theorem titleForm_statusColumns : ∀ column ∈ statusColumns, TitleForm column := by
  simp only [statusColumns, List.forall_mem_cons, List.not_mem_nil, false_imp_iff, implies_true,
    and_true]
  refine ⟨.fixed rfl ?_, .fixed rfl ?_⟩
  all_goals decide

theorem titleForm_fuelColumns : ∀ column ∈ fuelColumns, TitleForm column := by
  simp only [fuelColumns, List.forall_mem_cons, List.not_mem_nil, false_imp_iff, implies_true,
    and_true]
  refine ⟨.fixed rfl ?_, .unit .volume rfl ?_ ?_ ?_, .unit .volume rfl ?_ ?_ ?_,
    .unit .volume rfl ?_ ?_ ?_, .unit .economy rfl ?_ ?_ ?_, .unit .pressure rfl ?_ ?_ ?_⟩
  all_goals decide

theorem titleForm_engineColumns : ∀ column ∈ engineColumns, TitleForm column := by
  simp only [engineColumns, List.forall_mem_cons, List.not_mem_nil, false_imp_iff, implies_true,
    and_true]
  refine ⟨.fixed rfl ?_, .fixed rfl ?_, .fixed rfl ?_, .unit .temperature rfl ?_ ?_ ?_,
    .unit .pressure rfl ?_ ?_ ?_, .unit .pressure rfl ?_ ?_ ?_, .unit .temperature rfl ?_ ?_ ?_,
    .fixed rfl ?_, .fixed rfl ?_, .fixed rfl ?_⟩
  all_goals decide

theorem titleForm_airColumns : ∀ column ∈ airColumns, TitleForm column := by
  simp only [airColumns, List.forall_mem_append, List.forall_mem_cons, List.forall_mem_map,
    List.not_mem_nil, false_imp_iff, implies_true, and_true]
  have hnumber : ∀ sensor ∈ List.range thermoCount,
      '$' ∉ (String.ofList ('#' :: Text.digits (sensor + 1))).toList := by decide
  refine ⟨⟨.unit .temperature rfl ?_ ?_ ?_, .unit .temperature rfl ?_ ?_ ?_, .fixed rfl ?_⟩,
    fun sensor hs => .lined rfl ?_ fun _ => .fixed (hnumber sensor hs)⟩
  all_goals decide

theorem titleForm_attachmentColumns : ∀ column ∈ attachmentColumns, TitleForm column := by
  simp only [attachmentColumns, List.forall_mem_cons, List.not_mem_nil, false_imp_iff,
    implies_true, and_true]
  refine ⟨.fixed rfl ?_, .attachProp ?_⟩
  · decide
  · rw [column]

theorem titleForm_of_mem {column : Column Event} (h : column ∈ eventColumns) :
    TitleForm column :=
  forall_mem_eventColumns titleForm_vehicleColumns titleForm_timeColumns titleForm_placeColumns
    titleForm_movementColumns titleForm_statusColumns titleForm_fuelColumns
    titleForm_engineColumns titleForm_airColumns titleForm_attachmentColumns column h

theorem exists_titleParts {column : Column Event} (h : column ∈ eventColumns) : Titled column :=
  (titleForm_of_mem h).titled

/-- The barometer, whose title is fixed, is shown in mmHg whatever is preferred. -/
theorem title_and_value_of_key_eq_barometer {column : Column Event} (hm : column ∈ eventColumns)
    (hk : column.key = "barometer") (row : Nat) (ctx : Context) (argument : String) (e : Event) :
    column.title ctx argument =
        ctx.text "col.barometer" ("Barometer\n" ++ PressureUnit.mmhg.unit.label.default) ∧
      column.value row ctx argument e = .ok (positiveCell e.barometerKpa
        (measureCell { ctx with units := { ctx.units with pressure := .mmhg } } .pressure
          e.barometerKpa argument "0.00")) := by
  have hfilter : eventColumns.filter (·.key = "barometer") =
      [Columns.column "barometer" (fixedTitle "col.barometer" "Barometer\nmmHg")
        fun _ => barometerCell] := rfl
  have hmem : column ∈ eventColumns.filter (·.key = "barometer") :=
    List.mem_filter.2 ⟨hm, decide_eq_true hk⟩
  rw [hfilter] at hmem
  obtain rfl := List.mem_singleton.1 hmem
  exact ⟨rfl, rfl⟩

/-! ## Two readers -/

/-- A title is the same for both readers, unless the unit of its column is what
    they differ in, or a unit that was written there. -/
theorem expandTitle_title_eq_or {column : Column Event} (hm : column ∈ eventColumns)
    {p : Preference} {ctx ctx' : Context} (hctx : ctx.DifferIn p ctx') (hk : column.key ∉ p.keys)
    (argument : String) :
    ctx'.expandTitle (column.title ctx' argument) = ctx.expandTitle (column.title ctx argument) ∨
      ∃ name ∈ p.placeholders,
        placeholder name.toList <:+: (column.title ctx argument).toList ∧
          ctx.Writes argument name := by
  obtain ⟨own, line, shown, hparts⟩ := exists_titleParts hm ctx argument
  rw [title_eq_of_differIn hm hctx]
  by_cases hn : ∃ name ∈ p.placeholders,
      placeholder name.toList <:+: (column.title ctx argument).toList
  · obtain ⟨name, hname, hi⟩ := hn
    exact .inr ⟨name, hname, hi, (hparts.mem_keys_or_writes hname hi).resolve_left hk⟩
  · exact .inl (Context.expandTitle_congr hctx fun name hname hi => hn ⟨name, hname, hi⟩)

/-- **Unit preferences act on their own columns.**  Let contexts differ in one
    preference: a title, before its placeholders are filled, is the same in both;
    so are the cells of every column that is not listed with the preference, that
    of the properties excepted, and its filled title, unless a text of the string
    table or the argument brought a placeholder of the preference there.  The
    preference does change the cells of the columns listed with it; and a title
    that leaves no placeholder open ends in nothing, in a fixed line, in the label
    of the time zone, or in that of the preference that its column is listed
    with.  The barometer, which is listed with none, is shown in mmHg. -/
theorem unit_preferences_act_on_their_own {column : Column Event} (hm : column ∈ eventColumns) :
    (∀ p ctx ctx' argument, ctx.DifferIn p ctx' →
      column.title ctx' argument = column.title ctx argument ∧
      (column.key ∉ p.keys → column.key ≠ "attachProp" → ∀ row e,
        column.value row ctx' argument e = column.value row ctx argument e) ∧
      (column.key ∉ p.keys →
        ctx'.expandTitle (column.title ctx' argument) =
          ctx.expandTitle (column.title ctx argument) ∨
        ∃ name ∈ p.placeholders,
          placeholder name.toList <:+: (column.title ctx argument).toList ∧
            ctx.Writes argument name)) ∧
    (∀ p : Preference, p.Changes column ↔ column.key ∈ p.keys ∨ column.key = "attachProp") ∧
    (∀ ctx argument, ∃ own line shown, TitleParts column ctx argument own line shown ∧
      (ctx.expandTitle (column.title ctx argument) = ctx.expandTitle own ++ shown ∨
        ¬ Closed own.toList)) ∧
    (column.key = "barometer" → ∀ row ctx argument e,
      column.title ctx argument =
          ctx.text "col.barometer" ("Barometer\n" ++ PressureUnit.mmhg.unit.label.default) ∧
        column.value row ctx argument e = .ok (positiveCell e.barometerKpa
          (measureCell { ctx with units := { ctx.units with pressure := .mmhg } } .pressure
            e.barometerKpa argument "0.00"))) := by
  refine ⟨fun p ctx ctx' argument hctx => ⟨?_, fun hk hp row e => ?_, fun hk => ?_⟩,
    changes_iff hm, fun ctx argument => ?_, title_and_value_of_key_eq_barometer hm⟩
  · rw [title_eq_of_differIn hm hctx]
  · rw [(readsUnits_of_mem hm).value_eq hctx hk hp]
  · exact expandTitle_title_eq_or hm hctx hk argument
  · obtain ⟨own, line, shown, hparts⟩ := exists_titleParts hm ctx argument
    refine ⟨own, line, shown, hparts, ?_⟩
    by_cases hc : Closed own.toList
    · exact .inl (hparts.expandTitle_eq hc)
    · exact .inr hc

/-- Fuel is shown in gallons whatever the unit of pressures. -/
theorem total_fuel_ignores_the_pressure :
    let kpa : Context := { now := 0, units := { volume := .usGallons } }
    let psi : Context := { now := 0, units := { volume := .usGallons, pressure := .psi } }
    ∃ column ∈ eventColumns, column.key = "fuelTotal" ∧ kpa.DifferIn (.unit .pressure) psi ∧
      column.key ∉ (Preference.unit .pressure).keys ∧ column.key ≠ "attachProp" ∧
      (∀ row e, column.value row psi "" e = column.value row kpa "" e) ∧
      (Preference.unit .volume).Changes column ∧ ¬ (Preference.unit .pressure).Changes column := by
  intro kpa psi
  have hfuel : ∃ column ∈ eventColumns, column.key = "fuelTotal" := by decide +kernel
  obtain ⟨column, hm, hk⟩ := hfuel
  obtain ⟨hreaders, hchanges, -, -⟩ := unit_preferences_act_on_their_own hm
  have hctx : kpa.DifferIn (.unit .pressure) psi := rfl
  have hp : column.key ∉ (Preference.unit .pressure).keys := by
    rw [hk]
    decide
  have ha : column.key ≠ "attachProp" := by
    rw [hk]
    decide
  obtain ⟨-, hcells, -⟩ := hreaders _ kpa psi "" hctx
  exact ⟨column, hm, hk, hctx, hp, ha, hcells hp ha, (hchanges _).2 (.inl (by rw [hk]; decide)),
    fun h => ((hchanges _).1 h).elim hp ha⟩

/-- A text of the string table, or an argument, may bring the unit of a distance
    into the titles of other columns. -/
theorem written_units_follow_the_distance :
    let written := "$\x7bdistanceUnits\x7d"
    let km : Context := { now := 0, strings := [("col.speed", "Speed, " ++ written)] }
    let miles : Context := { km with units := { distance := .miles } }
    km.DifferIn (.unit .distance) miles ∧
      (∃ column ∈ eventColumns, column.key = "speed" ∧
        column.key ∉ (Preference.unit .distance).keys ∧
        km.expandTitle (column.title km "") = "Speed, km\nkm/h" ∧
        miles.expandTitle (column.title miles "") = "Speed, Miles\nkm/h") ∧
      ∃ column ∈ eventColumns, column.key = "attachProp" ∧
        column.key ∉ (Preference.unit .distance).keys ∧
        km.expandTitle (column.title km written) = "km" ∧
        miles.expandTitle (column.title miles written) = "Miles" := by
  intro written km miles
  refine ⟨rfl, ?_, ?_⟩
  · decide +kernel
  · decide +kernel

end EventTable
