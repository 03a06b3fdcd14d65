/-
  EventTable — titles without a placeholder that is left over.

  * `Plain` holds of a text in which no placeholder opens, and
    `Plain.infix_of_append_cons`: a placeholder on the lines of two texts, the first of
    them plain, is one of the second;
  * `Context.PlainTexts` holds of a context that puts plain texts into titles only;
  * `TitleForm.exists_plain_parts`: then a title opens no placeholder but that of its
    last line, and `Ending.exists_plain_text` says what is shown for that one;
  * `titles_leave_no_placeholder` puts these together.
-/
import EventTable.Proofs.Titles

namespace EventTable

open Text

/-! ## Plain texts -/

namespace Text

/-- A text in which no placeholder opens. -/
def Plain (cs : List Char) : Prop := ¬ placeholderOpen <:+: cs

instance (cs : List Char) : Decidable (Plain cs) := inferInstanceAs (Decidable (¬ _))

variable {a b cs : List Char}

theorem Plain.of_infix (hb : Plain b) (h : a <:+: b) : Plain a := fun ha => hb (ha.trans h)

theorem plain_of_not_mem (h : '$' ∉ cs) : Plain cs := fun hi => h (hi.subset List.mem_cons_self)

/-- A plain text leaves no placeholder open. -/
theorem Plain.closed (h : Plain cs) : Closed cs := by
  intro a b hab
  exact absurd ⟨a, b, hab.symm⟩ h

theorem Plain.append_line (ha : Plain a) (hb : Plain b) : Plain (a ++ '\n' :: b) := by
  intro h
  rcases (infix_append_cons_iff (by decide) (by decide)).1 h with h | h
  · exact ha h
  · exact hb h

/-- A plain text is its own expansion. -/
theorem Plain.expandChars_eq {lookup : List Char → Option (List Char)} (h : Plain cs) :
    expandChars lookup cs = cs := by
  induction template cs with
  | nil => exact expandChars_nil
  | placeholder => exact absurd (List.prefix_append ..).isInfix h
  | unclosed => exact absurd (List.prefix_append ..).isInfix h
  | @cons c cs hc _ ih => rw [expandChars_cons hc, ih (h.of_infix (List.suffix_cons ..).isInfix)]

/-- What opens a placeholder does not reach back over the end of a plain line. -/
theorem Plain.infix_of_append_cons {r : List Char} (ha : Plain a)
    (h : placeholderOpen ++ r <:+: a ++ '\n' :: b) : placeholderOpen ++ r <:+: b := by
  induction a with
  | nil =>
    rcases List.infix_cons_iff.1 h with h | h
    · exact absurd (List.cons_prefix_cons.1 h).1 (by decide)
    · exact h
  | cons c a ih =>
    rcases List.infix_cons_iff.1 h with h | h
    · -- the dollar sign stands in the line, so the brace is its end or stands in it, too
      obtain ⟨rfl, hrest⟩ := List.cons_prefix_cons.1 h
      cases a with
      | nil => exact absurd (List.cons_prefix_cons.1 hrest).1 (by decide)
      | cons d a =>
        obtain ⟨rfl, -⟩ := List.cons_prefix_cons.1 hrest
        exact absurd (List.prefix_append placeholderOpen a).isInfix ha
    · exact ih (ha.of_infix (List.suffix_cons ..).isInfix) h

end Text

/-! ## What contexts put into titles -/

/-- **All that the context puts into titles is plain**: the texts of its string table
    and the label of its zone. -/
structure Context.PlainTexts (ctx : Context) : Prop where
  strings : ∀ key text, ctx.strings.lookup key = some text → Plain text.toList
  zone : Plain ctx.zone.label.toList

/-- The labels of units name no placeholder. -/
theorem dollar_not_mem_label (u : UnitPreferences) (q : Quantity) :
    '$' ∉ (u.unit q).label.default.toList := by
  cases q with
  | distance =>
    show '$' ∉ u.distance.unit.label.default.toList
    cases u.distance <;> decide
  | speed =>
    show '$' ∉ u.speed.unit.label.default.toList
    cases u.speed <;> decide
  | volume =>
    show '$' ∉ u.volume.unit.label.default.toList
    cases u.volume <;> decide
  | pressure =>
    show '$' ∉ u.pressure.unit.label.default.toList
    cases u.pressure <;> decide
  | temperature =>
    show '$' ∉ u.temperature.unit.label.default.toList
    cases u.temperature <;> decide
  | economy =>
    show '$' ∉ u.economy.unit.label.default.toList
    cases u.economy <;> decide
  | altitude =>
    show '$' ∉ u.altitude.unit.label.default.toList
    cases u.altitude <;> decide

namespace Context

variable {ctx : Context}

theorem PlainTexts.text (h : ctx.PlainTexts) {key default : String} (hd : '$' ∉ default.toList) :
    Plain (ctx.text key default).toList := by
  rw [Context.text]
  cases hl : ctx.strings.lookup key with
  | none => exact plain_of_not_mem hd
  | some text => exact h.strings key text hl

theorem PlainTexts.unitText (h : ctx.PlainTexts) (q : Quantity) :
    Plain (ctx.unitText q).toList :=
  h.text (dollar_not_mem_label ctx.units q)

theorem expandTitle_of_plain (ctx : Context) {title : String} (h : Plain title.toList) :
    ctx.expandTitle title = title := by
  rw [expandTitle_eq, expand, h.expandChars_eq, String.ofList_toList]

end Context

/-! ## Titles -/

variable {column : Column Event} {ctx : Context} {argument own line shown key : String}

/-- What is shown behind the text of a title is nothing, or a plain line. -/
theorem Ending.exists_plain_text (hctx : ctx.PlainTexts) (h : Ending ctx key line shown) :
    shown = "" ∨ ∃ text, shown = "\n" ++ text ∧ Plain text.toList := by
  cases h with
  | none => exact .inl rfl
  | @fixed text hd => exact .inr ⟨text, rfl, plain_of_not_mem hd⟩
  | zone => exact .inr ⟨ctx.zone.label, rfl, hctx.zone⟩
  | @unit q => exact .inr ⟨ctx.unitText q, rfl, hctx.unitText q⟩

/-- A placeholder behind a plain text is one that every context fills. -/
theorem Ending.exists_lookup_eq_some {name : String} (hown : Plain own.toList)
    (h : Ending ctx key line shown) (hn : '\x7d' ∉ name.toList)
    (hi : placeholder name.toList <:+: (own ++ line).toList) :
    ∃ value, ctx.titleValues.lookup name = some value := by
  have hopen : ∀ cs, placeholder name.toList <:+: cs → ¬ Plain cs := by
    intro cs hi hp
    exact hp (((List.prefix_append _ _).trans (List.prefix_append ..)).isInfix.trans hi)
  have hline : ∀ text : String, placeholder name.toList <:+: (own ++ ("\n" ++ text)).toList →
      placeholder name.toList <:+: text.toList := by
    intro text hi
    have htext : (own ++ ("\n" ++ text)).toList = own.toList ++ '\n' :: text.toList := by simp
    rw [htext, placeholder, List.append_assoc] at hi
    rw [placeholder, List.append_assoc]
    exact hown.infix_of_append_cons hi
  cases h with
  | none =>
    rw [String.append_empty] at hi
    exact absurd hown (hopen _ hi)
  | @fixed text hd => exact absurd (plain_of_not_mem hd) (hopen _ (hline text hi))
  | zone =>
    have hname := hline _ hi
    rw [String.toList_ofList] at hname
    obtain rfl := String.toList_inj.1 (eq_of_infix_placeholder hn (by decide) (by decide) hname)
    exact ⟨ctx.zone.label, rfl⟩
  | @unit q name' _ hn' =>
    obtain ⟨-, -, hbrace, hdollar⟩ := Preference.word_of_mem_placeholders hn'
    have hname := hline _ hi
    rw [String.toList_ofList] at hname
    obtain rfl := String.toList_inj.1 (eq_of_infix_placeholder hn hbrace hdollar hname)
    exact ⟨ctx.unitText q, ctx.lookup_titleValues hn'⟩

theorem titleParts_of_plain (ht : column.title ctx argument = own ++ line)
    (he : Ending ctx column.key line shown) (hown : Plain own.toList) :
    TitleParts column ctx argument own line shown where
  title := ht
  ending := he
  written p name _ hi := by
    have hopen : placeholderOpen <+: placeholder name.toList :=
      (List.prefix_append ..).trans (List.prefix_append ..)
    exact absurd (hopen.isInfix.trans hi) hown

/-- A title of plain texts opens no placeholder but that of its last line. -/
theorem TitleForm.exists_plain_parts (h : TitleForm column) (hctx : ctx.PlainTexts)
    (ha : Plain argument.toList) : ∃ own line shown, Plain own.toList ∧
      TitleParts column ctx argument own line shown := by
  cases h with
  | @fixed key default ht hd =>
    have hown : Plain (ctx.text key default).toList := hctx.text hd
    refine ⟨ctx.text key default, "", "", hown, titleParts_of_plain ?_ .none hown⟩
    rw [ht, Columns.fixedTitle, String.append_empty]
  | @lined key default line shown ht hd he =>
    have hown : Plain (ctx.text key default).toList := hctx.text hd
    refine ⟨ctx.text key default, "\n" ++ line, shown ctx, hown,
      titleParts_of_plain ?_ (he ctx) hown⟩
    rw [ht, Columns.linedTitle, String.append_assoc]
  | customField ht =>
    have hown : Plain (column.title ctx argument).toList := by
      rw [ht, Columns.customFieldTitle]
      cases hl : ctx.strings.lookup ("deviceInfo.custom." ++ trim argument) with
      | none => exact hctx.text (by decide)
      | some text =>
        intro hi
        exact hctx.strings _ text hl (infix_of_infix_wrapTitle (by decide) (by decide) hi)
    exact ⟨_, "", "", hown, titleParts_of_plain (String.append_empty ..).symm .none hown⟩
  | attachProp ht =>
    have hown : Plain (column.title ctx argument).toList := by
      rw [ht, Columns.attachPropTitle]
      dsimp only
      split
      · exact hctx.text (by decide)
      · exact ha.of_infix (infix_splitPropertyArgument argument)
    exact ⟨_, "", "", hown, titleParts_of_plain (String.append_empty ..).symm .none hown⟩

/-- **Titles leave no placeholder.**  In a context whose string table and zone label
    hold no opening of a placeholder, and for an argument without one, the title of
    every column is shown without one, too: all placeholders that it was written with
    are names that the context fills. -/
theorem titles_leave_no_placeholder {ctx : Context}
    (htexts : ∀ key text, ctx.strings.lookup key = some text → Plain text.toList)
    (hzone : Plain ctx.zone.label.toList) {argument : String} (ha : Plain argument.toList)
    {column : Column Event} (hm : column ∈ eventColumns) :
    Plain (ctx.expandTitle (column.title ctx argument)).toList ∧
      ∀ name : String, '\x7d' ∉ name.toList →
        placeholder name.toList <:+: (column.title ctx argument).toList →
        ∃ value, ctx.titleValues.lookup name = some value := by
  have hctx : ctx.PlainTexts := ⟨htexts, hzone⟩
  obtain ⟨own, line, shown, hown, hparts⟩ := (titleForm_of_mem hm).exists_plain_parts hctx ha
  constructor
  · rw [hparts.expandTitle_eq hown.closed, ctx.expandTitle_of_plain hown]
    rcases hparts.ending.exists_plain_text hctx with rfl | ⟨text, rfl, htext⟩
    · rwa [String.append_empty]
    · have hline : (own ++ ("\n" ++ text)).toList = own.toList ++ '\n' :: text.toList := by simp
      rw [hline]
      exact hown.append_line htext
  · intro name hn hi
    rw [hparts.title] at hi
    exact hparts.ending.exists_lookup_eq_some hown hn hi

/-- Texts that end in a dollar sign or start with a brace make no placeholder, on
    either side of the end of a line. -/
theorem dollars_and_braces_stay_apart :
    let ctx : Context :=
      { now := 0, zone := { offset := 7200, label := "+02:00" },
        strings := [("col.speed", "Toll $"), ("units.kph", "\x7bkph\x7d")] }
    (∀ key text, ctx.strings.lookup key = some text → Plain text.toList) ∧
      Plain ctx.zone.label.toList ∧ Plain "$ \x7b".toList ∧
      ∃ column ∈ eventColumns, column.key = "speed" ∧
        ctx.expandTitle (column.title ctx "$ \x7b") = "Toll $\n\x7bkph\x7d" ∧
        Plain (ctx.expandTitle (column.title ctx "$ \x7b")).toList := by
  intro ctx
  have hspeed : ∃ column ∈ eventColumns, column.key = "speed" ∧
      ctx.expandTitle (column.title ctx "$ \x7b") = "Toll $\n\x7bkph\x7d" := by
    decide +kernel
  have htexts : ∀ key text, ctx.strings.lookup key = some text → Plain text.toList := by
    intro key text hl
    have hall : ∀ p ∈ ctx.strings, Plain p.2.toList := by decide
    obtain ⟨before, after, hsplit, -⟩ := List.lookup_eq_some_iff.1 hl
    exact hall (key, text) (hsplit ▸ List.mem_append_right before List.mem_cons_self)
  have hzone : Plain ctx.zone.label.toList := by decide
  have harg : Plain "$ \x7b".toList := by decide
  obtain ⟨column, hm, hk, hshown⟩ := hspeed
  obtain ⟨hplain, -⟩ := titles_leave_no_placeholder htexts hzone harg hm
  exact ⟨htexts, hzone, harg, column, hm, hk, hshown, hplain⟩

end EventTable
