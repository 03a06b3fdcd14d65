/-
  EventTable — what can be read back from links.

  * `readParameters?` cuts what follows a link at the ampersands, and each part at its first
    equals sign, and decodes both sides;
  * `LinkWith base parameters link` says that the link is the base with these parameters behind
    it, and `LinkWith.unique`: it is so for no other parameters;
  * `isExtension_extensionOf`: every MIME type has a file ending of letters and digits, and
    `IsExtension.unique`: a link with parameters has no other;
  * `LeadsTo` holds of the address that a column links an event to;
  * `links_give_their_parameters_back`: so links tell apart what they were made for.
-/
import EventTable.Proofs.DecimalNumerals
import EventTable.Proofs.Percentages
import EventTable.Proofs.PercentDecoding
import EventTable.Proofs.Pieces
import EventTable.Proofs.StatusStyles

namespace EventTable

open Text Number

namespace Columns

/-! ## Reading parameters -/

/-- A name and a value, with an equals sign between them. -/
def readParameter? (piece : List Char) : Option (String × String) := do
  let (name, value) ← cut? '=' piece
  return (← percentDecode? name, ← percentDecode? value)

/-- The parameters between the ampersands. -/
def readParameters? (query : List Char) : Option (List (String × String)) :=
  (pieces '&' query).mapM readParameter?

/-- A name and a value, both encoded. -/
def writtenParameter (p : String × String) : List Char :=
  encodeChars p.1.toList ++ '=' :: encodeChars p.2.toList

theorem not_mem_encodeChars {c : Char} (hc : isUnreserved c = false) (hpercent : c ≠ '%')
    (cs : List Char) : c ∉ encodeChars cs := by
  intro hmem
  rcases mem_encodeChars hmem with h | h
  · exact Bool.false_ne_true (hc.symm.trans h)
  · exact hpercent h

theorem ampersand_not_mem_writtenParameter (p : String × String) : '&' ∉ writtenParameter p := by
  simp [writtenParameter, not_mem_encodeChars (show isUnreserved '&' = false by decide)]

theorem readParameter?_writtenParameter (p : String × String) :
    readParameter? (writtenParameter p) = some p := by
  have hcut : cut? '=' (writtenParameter p) =
      some (encodeChars p.1.toList, encodeChars p.2.toList) :=
    cut?_eq_some_iff.2 ⟨rfl, not_mem_encodeChars (by decide) (by decide) _⟩
  simp [readParameter?, hcut, percentDecode?_encodeChars]

theorem mapM_readParameter? (parameters : List (String × String)) :
    (parameters.map writtenParameter).mapM readParameter? = some parameters := by
  induction parameters with
  | nil => rfl
  | cons p parameters ih =>
    rw [List.map_cons, List.mapM_cons, readParameter?_writtenParameter, ih]
    rfl

/-- **Parameters are read back** from their encoded texts. -/
theorem readParameters?_intercalate {parameters : List (String × String)}
    (hne : parameters ≠ []) :
    readParameters? (['&'].intercalate (parameters.map writtenParameter)) = some parameters := by
  have hnone : ∀ a ∈ parameters.map writtenParameter, '&' ∉ a :=
    List.forall_mem_map.2 fun p _ => ampersand_not_mem_writtenParameter p
  have hpieces : parameters.map writtenParameter =
      pieces '&' (['&'].intercalate (parameters.map writtenParameter)) :=
    eq_pieces_iff.2 ⟨by simpa using hne, hnone, rfl⟩
  rw [readParameters?, ← hpieces, mapM_readParameter?]

/-! ## Links with parameters -/

/-- The character between a link and its first parameter. -/
def parameterMark (base : String) : Char := if '?' ∈ base.toList then '&' else '?'

/-- **A link with parameters**: nothing behind the base if there are none, and else a mark and a
    text that they are read from. -/
inductive LinkWith (base : String) : List (String × String) → String → Prop
  | none : LinkWith base [] base
  | some {parameters query} : parameters ≠ [] → readParameters? query = some parameters →
      LinkWith base parameters (base ++ String.ofList (parameterMark base :: query))

/-- **The parameters can be read** from the link. -/
theorem LinkWith.unique {base link : String} {parameters parameters' : List (String × String)}
    (h : LinkWith base parameters link) (h' : LinkWith base parameters' link) :
    parameters = parameters' := by
  generalize hlink : link = link' at h'
  rw [← String.toList_inj] at hlink
  cases h with
  | none =>
    cases h' with
    | none => rfl
    | some => simp at hlink
  | some _ hread =>
    cases h' with
    | none => simp at hlink
    | some _ hread' =>
      simp only [String.toList_append, String.toList_ofList, List.append_cancel_left_eq,
        List.cons.injEq, true_and] at hlink
      rw [hlink] at hread
      exact Option.some.inj (hread.symm.trans hread')

theorem cons_flatMap_eq_intercalate (p : String × String) (parameters : List (String × String)) :
    writtenParameter p ++ parameters.flatMap (fun p => '&' :: writtenParameter p) =
      ['&'].intercalate ((p :: parameters).map writtenParameter) := by
  induction parameters generalizing p with
  | nil => simp
  | cons q parameters ih =>
    rw [List.map_cons, List.map_cons, List.intercalate_cons_cons, ← List.map_cons, ← ih]
    simp

theorem linkUrl_cons (base : String) (p : String × String) (parameters : List (String × String)) :
    linkUrl base (p :: parameters) = base ++ String.ofList
      (parameterMark base :: ['&'].intercalate ((p :: parameters).map writtenParameter)) := by
  have hwritten : ∀ p : String × String,
      (percentEncode p.1 ++ "=" ++ percentEncode p.2).toList = writtenParameter p := by
    simp [percentEncode, writtenParameter]
  have hmark : (if '?' ∈ base.toList then "&" else "?").toList = [parameterMark base] := by
    rw [parameterMark]
    split <;> rfl
  rw [← String.toList_inj, ← cons_flatMap_eq_intercalate]
  simp [linkUrl, hwritten, hmark, List.flatMap_map]

theorem linkWith_linkUrl (base : String) (parameters : List (String × String)) :
    LinkWith base parameters (linkUrl base parameters) := by
  cases parameters with
  | nil => exact .none
  | cons p parameters =>
    have hne : p :: parameters ≠ [] := List.cons_ne_nil _ _
    rw [linkUrl_cons]
    exact .some hne (readParameters?_intercalate hne)

theorem isBlank_linkUrl_cons (base : String) (p : String × String)
    (parameters : List (String × String)) : isBlank (linkUrl base (p :: parameters)) = false := by
  have hmark : isBlankChar (parameterMark base) = false := by
    rw [parameterMark]
    split <;> rfl
  rw [linkUrl_cons, isBlank_eq_false_iff]
  exact ⟨parameterMark base, by simp, hmark⟩

/-- A link with parameters is never dropped. -/
theorem link_withLink_linkUrl_cons (c : Cell) (base : String) (p : String × String)
    (parameters : List (String × String)) (target : Option String) :
    (c.withLink (linkUrl base (p :: parameters)) target).link =
      some ⟨linkUrl base (p :: parameters), target.bind nonBlank?⟩ := by
  rw [Cell.withLink, nonBlank?_eq_some_iff.2 ⟨isBlank_linkUrl_cons base p parameters, rfl⟩]
  rfl

/-! ## File endings -/

/-- **A file ending**: letters in lower case and digits, at least one of them. -/
structure IsExtension (extension : String) : Prop where
  ne_empty : extension ≠ ""
  lower_or_digit : ∀ c ∈ extension.toList, c.isLower = true ∨ c.isDigit = true

instance (extension : String) : Decidable (IsExtension extension) :=
  decidable_of_iff
    (extension ≠ "" ∧ extension.toList.all (fun c => c.isLower || c.isDigit) = true)
    ⟨fun h => ⟨h.1, by simpa using h.2⟩, fun h => ⟨h.1, by simpa using h.2⟩⟩

theorem isExtension_of_mem {p : String × String} (h : p ∈ extensions) : IsExtension p.2 := by
  revert p
  decide

theorem isLower_or_isDigit_toLower {c : Char} (h : c.toLower.isAlphanum = true) :
    c.toLower.isLower = true ∨ c.toLower.isDigit = true := by
  by_cases hupper : 65 ≤ c.val ∧ c.val ≤ 90
  · have hletters : ∀ n < 91, 65 ≤ n → (Char.ofNat n).toLower.isLower = true := by decide
    have hlower := hletters c.toNat (Nat.lt_succ_of_le (UInt32.le_iff_toNat_le.1 hupper.2))
      (UInt32.le_iff_toNat_le.1 hupper.1)
    rw [Char.ofNat_toNat] at hlower
    exact .inl hlower
  · have hself : c.toLower = c := dif_neg hupper
    have hnone : c.isUpper = false := decide_eq_false hupper
    rw [hself] at h ⊢
    change ((c.isUpper || c.isLower) || c.isDigit) = true at h
    rw [hnone, Bool.false_or, Bool.or_eq_true] at h
    exact h

/-- The ending is one of the known ones, or the part after the slash if that is one itself. -/
theorem isExtension_extensionOfType {mime : List Char} (hmime : ∀ c ∈ mime, ∃ d : Char, c = d.toLower) :
    IsExtension (extensionOfType mime) := by
  have hdefault : IsExtension defaultExtension := by decide
  fun_cases extensionOfType mime with
  | case1 extension hknown =>
    obtain ⟨before, after, hsplit, -⟩ := List.lookup_eq_some_iff.1 hknown
    exact isExtension_of_mem (hsplit ▸ List.mem_append_right before List.mem_cons_self)
  | case2 _ type subtype hcut hsubtype =>
    rw [Bool.and_eq_true, List.all_eq_true] at hsubtype
    refine ⟨by simpa using hsubtype.1, fun c hc => ?_⟩
    rw [String.toList_ofList] at hc
    have hmem : c ∈ mime := by
      rw [(cut?_eq_some_iff.1 hcut).1]
      exact List.mem_append_right type (List.mem_cons_of_mem '/' hc)
    obtain ⟨d, rfl⟩ := hmime c hmem
    exact isLower_or_isDigit_toLower (hsubtype.2 _ hc)
  | case3 => exact hdefault
  | case4 => exact hdefault

theorem isExtension_extensionOf (mime : String) : IsExtension (extensionOf mime) := by
  refine isExtension_extensionOfType fun c hc => ?_
  obtain ⟨d, -, rfl⟩ := List.mem_map.1 hc
  exact ⟨d, rfl⟩

/-- A file ending goes on until the parameters start. -/
theorem IsExtension.takeWhile_append {extension : String} (h : IsExtension extension)
    (base : String) (query : List Char) :
    (extension.toList ++ parameterMark base :: query).takeWhile
      (fun c => c.isLower || c.isDigit) = extension.toList := by
  refine takeWhile_append_of_head (by simpa using h.lower_or_digit) ?_
  rintro c ⟨⟩
  rw [parameterMark]
  split <;> rfl

theorem LinkWith.exists_query {base link : String} {p : String × String}
    {parameters : List (String × String)} (h : LinkWith base (p :: parameters) link) :
    ∃ query, link.toList = base.toList ++ parameterMark base :: query := by
  generalize hparameters : p :: parameters = parameters' at h
  cases h with
  | none => cases hparameters
  | @some _ query => exact ⟨query, by simp⟩

/-- **The file ending can be read** from a link with parameters. -/
theorem IsExtension.unique {base extension extension' link : String} {p p' : String × String}
    {parameters parameters' : List (String × String)}
    (h : IsExtension extension) (h' : IsExtension extension')
    (hlink : LinkWith (base ++ extension) (p :: parameters) link)
    (hlink' : LinkWith (base ++ extension') (p' :: parameters') link) :
    extension = extension' := by
  obtain ⟨query, hquery⟩ := hlink.exists_query
  obtain ⟨query', hquery'⟩ := hlink'.exists_query
  have hrest : extension.toList ++ parameterMark (base ++ extension) :: query =
      extension'.toList ++ parameterMark (base ++ extension') :: query' := by
    simpa using hquery.symm.trans hquery'
  rw [← String.toList_inj, ← h.takeWhile_append _ query, hrest, h'.takeWhile_append]

/-! ## Links of cells -/

/-- The parameters of the link to an attachment. -/
def attachmentParameters (e : Event) : List (String × String) :=
  [("d", e.deviceId), ("ts", intText e.timestamp), ("sc", hexCode e.statusCode)]

theorem hexCode_injective {code code' : StatusCode} (h : hexCode code = hexCode code') :
    code = code' := by
  have hparse := parseStatusCode?_hexCode code
  rw [h, parseStatusCode?_hexCode] at hparse
  exact (Option.some.inj hparse).symm

theorem attachmentParameters_inj {e e' : Event}
    (h : attachmentParameters e = attachmentParameters e') :
    e.deviceId = e'.deviceId ∧ e.timestamp = e'.timestamp ∧ e.statusCode = e'.statusCode := by
  simp only [attachmentParameters, List.cons.injEq, Prod.mk.injEq, true_and, and_true] at h
  obtain ⟨hdevice, htime, hcode⟩ := h
  exact ⟨hdevice, signed_injective (String.ofList_injective htime), hexCode_injective hcode⟩

/-- The link to an attachment, without its file ending and all that follows. -/
def attachmentBase (ctx : Context) : String := ctx.attachmentUrl.getD "./Attach" ++ "."

theorem link_attachUrlCell (ctx : Context) {e : Event} {mime : String}
    (htype : e.attachmentType = some mime) (hmime : isBlank mime = false) :
    (attachUrlCell ctx e).link = some ⟨linkUrl (attachmentBase ctx ++ extensionOf (trim mime))
      (attachmentParameters e), some "Attachment"⟩ := by
  have htrim : trim mime ≠ "" := fun h => by
    rw [← isBlank_iff, hmime] at h
    exact Bool.false_ne_true h
  have hsome : (e.attachmentType.map trim).filter (· ≠ "") = some (trim mime) := by
    simp [htype, htrim]
  rw [attachUrlCell, hsome]
  have hlink := link_withLink_linkUrl_cons (.ofText (extensionOf (trim mime)))
    (attachmentBase ctx ++ extensionOf (trim mime)) ("d", e.deviceId)
    [("ts", intText e.timestamp), ("sc", hexCode e.statusCode)] (some "Attachment")
  dsimp only
  split
  · exact hlink
  · exact hlink

/-- Without the type of an attachment there is no link. -/
theorem exists_of_link_attachUrlCell {ctx : Context} {e : Event} {link : Link}
    (h : (attachUrlCell ctx e).link = some link) :
    ∃ mime, e.attachmentType = some mime ∧ isBlank mime = false := by
  cases htype : (e.attachmentType.map trim).filter (· ≠ "") with
  | none =>
    rw [attachUrlCell, htype] at h
    cases h
  | some trimmed =>
    obtain ⟨hmap, hne⟩ := Option.filter_eq_some_iff.1 htype
    obtain ⟨mime, hmime, rfl⟩ := Option.map_eq_some_iff.1 hmap
    refine ⟨mime, hmime, Bool.eq_false_iff.2 fun hblank => ?_⟩
    rw [(isBlank_iff mime).1 hblank] at hne
    cases hne

theorem link_deviceIdCell {ctx : Context} {argument base : String} (e : Event)
    (hbase : ctx.deviceAdminUrl = some base) (hadmin : wantsAdmin argument = true) :
    ∃ submit, (deviceIdCell ctx argument e).link = some ⟨linkUrl base
      [("device", e.deviceId), ("page_cmd", "selectDev"), submit], some "_self"⟩ := by
  rw [deviceIdCell, hbase]
  dsimp only
  rw [if_pos hadmin]
  exact ⟨_, link_withLink_linkUrl_cons ..⟩

theorem exists_of_link_deviceIdCell {ctx : Context} {argument : String} {e : Event} {link : Link}
    (h : (deviceIdCell ctx argument e).link = some link) :
    ∃ base, ctx.deviceAdminUrl = some base ∧ wantsAdmin argument = true := by
  cases hbase : ctx.deviceAdminUrl with
  | none => simp [deviceIdCell, hbase, Cell.ofText, Cell.withText, Cell.blank] at h
  | some base =>
    refine ⟨base, rfl, ?_⟩
    by_contra hadmin
    simp [deviceIdCell, hbase, hadmin, Cell.ofText, Cell.withText, Cell.blank] at h

/-- **Where a column leads** for an event. -/
inductive LeadsTo (ctx : Context) (row : ℕ) (key argument : String) (e : Event) (url : String) :
    Prop
  | intro {cell link} : answer? (eventCatalog.lookup? key) ctx row e argument = some (.ok cell) →
      cell.link = some link → link.url = url → LeadsTo ctx row key argument e url

variable {ctx : Context} {row : ℕ} {argument url : String} {e : Event}

theorem answer?_attachUrl :
    answer? (eventCatalog.lookup? "attachURL") ctx row e argument =
      some (.ok (attachUrlCell ctx e)) := rfl

theorem answer?_deviceId :
    answer? (eventCatalog.lookup? "deviceId") ctx row e argument =
      some (.ok (deviceIdCell ctx argument e)) := rfl

theorem LeadsTo.attachment (h : LeadsTo ctx row "attachURL" argument e url) :
    ∃ extension, IsExtension extension ∧
      LinkWith (attachmentBase ctx ++ extension) (attachmentParameters e) url := by
  obtain ⟨hanswer, hlink, rfl⟩ := h
  cases hanswer
  obtain ⟨mime, htype, hmime⟩ := exists_of_link_attachUrlCell hlink
  rw [link_attachUrlCell ctx htype hmime] at hlink
  cases hlink
  exact ⟨_, isExtension_extensionOf _, linkWith_linkUrl ..⟩

theorem LeadsTo.device (h : LeadsTo ctx row "deviceId" argument e url) :
    ∃ base parameters, ctx.deviceAdminUrl = some base ∧
      LinkWith base (("device", e.deviceId) :: parameters) url := by
  obtain ⟨hanswer, hlink, rfl⟩ := h
  cases hanswer
  obtain ⟨base, hbase, hadmin⟩ := exists_of_link_deviceIdCell hlink
  obtain ⟨submit, hsubmit⟩ := link_deviceIdCell e hbase hadmin
  rw [hsubmit] at hlink
  cases hlink
  exact ⟨base, _, hbase, linkWith_linkUrl ..⟩

end Columns

open Columns

/-- **Links give their parameters back.**  What stands behind the base starts with a question
    mark, or with an ampersand if the base has a question mark, and the parameters are read from
    the rest, whatever their characters.  So an address of an attachment tells the device, the
    time and the status code of its event, and an address of the administration the device.
    Between the configured address of attachments and the parameters stand a point and a file
    ending, whatever the type of the attachment. -/
theorem links_give_their_parameters_back :
    (∀ base parameters, LinkWith base parameters (linkUrl base parameters)) ∧
    (∀ ctx row row' argument argument' e e' url,
      LeadsTo ctx row "attachURL" argument e url → LeadsTo ctx row' "attachURL" argument' e' url →
      e.deviceId = e'.deviceId ∧ e.timestamp = e'.timestamp ∧ e.statusCode = e'.statusCode) ∧
    (∀ ctx row row' argument argument' e e' url,
      LeadsTo ctx row "deviceId" argument e url → LeadsTo ctx row' "deviceId" argument' e' url →
      e.deviceId = e'.deviceId) ∧
    (∀ ctx row argument e url, LeadsTo ctx row "attachURL" argument e url →
      ∃ extension, IsExtension extension ∧
        LinkWith (ctx.attachmentUrl.getD "./Attach" ++ "." ++ extension)
          [("d", e.deviceId), ("ts", intText e.timestamp), ("sc", hexCode e.statusCode)] url) ∧
    ∀ ctx row argument e, (∃ url, LeadsTo ctx row "attachURL" argument e url) ↔
      ∃ mime, e.attachmentType = some mime ∧ isBlank mime = false := by
  refine ⟨linkWith_linkUrl, ?attachments, ?devices, ?endings, ?types⟩
  case attachments =>
    intro ctx row row' argument argument' e e' url h h'
    obtain ⟨extension, hextension, hlink⟩ := h.attachment
    obtain ⟨extension', hextension', hlink'⟩ := h'.attachment
    obtain rfl := hextension.unique hextension' hlink hlink'
    exact attachmentParameters_inj (hlink.unique hlink')
  case devices =>
    intro ctx row row' argument argument' e e' url h h'
    obtain ⟨base, parameters, hbase, hlink⟩ := h.device
    obtain ⟨base', parameters', hbase', hlink'⟩ := h'.device
    obtain rfl := Option.some.inj (hbase.symm.trans hbase')
    have hparameters := hlink.unique hlink'
    simp only [List.cons.injEq, Prod.mk.injEq, true_and] at hparameters
    exact hparameters.1
  case endings => exact fun ctx row argument e url h => h.attachment
  case types =>
    intro ctx row argument e
    constructor
    · rintro ⟨_, hanswer, hlink, -⟩
      cases hanswer
      exact exists_of_link_attachUrlCell hlink
    · rintro ⟨mime, htype, hmime⟩
      exact ⟨_, .intro answer?_attachUrl (link_attachUrlCell ctx htype hmime) rfl⟩

/-- Separators and a percent sign in the name of a device, and two types with one file ending. -/
theorem a_device_with_separators_is_read_back :
    let ctx : Context := { now := 0, deviceAdminUrl := some "./Admin?lang=de" }
    let e : Event :=
      { accountId := "acme", deviceId := "a&b=50%?", attachmentType := some "image/jpeg" }
    let e' : Event := { e with attachmentType := some "image/JPG; q=1" }
    (∃ url, LeadsTo ctx 0 "attachURL" "" e url ∧ LeadsTo ctx 1 "attachURL" "" e' url ∧
      (e.deviceId = e'.deviceId ∧ e.timestamp = e'.timestamp ∧ e.statusCode = e'.statusCode) ∧
      ∃ extension, IsExtension extension ∧ LinkWith ("./Attach" ++ "." ++ extension)
        [("d", e.deviceId), ("ts", intText e.timestamp), ("sc", hexCode e.statusCode)] url) ∧
    ∃ url, LeadsTo ctx 0 "deviceId" "admin" e url ∧ LeadsTo ctx 1 "deviceId" "admin" e' url ∧
      e.deviceId = e'.deviceId := by
  intro ctx e e'
  have hjpg : extensionOf (trim "image/JPG; q=1") = extensionOf (trim "image/jpeg") := by decide
  have hlink := link_attachUrlCell ctx (e := e) rfl (show isBlank "image/jpeg" = false by decide)
  have hlink' := link_attachUrlCell ctx (e := e') rfl
    (show isBlank "image/JPG; q=1" = false by decide)
  rw [hjpg] at hlink'
  have hurl : LeadsTo ctx 0 "attachURL" "" e _ := .intro answer?_attachUrl hlink rfl
  have hurl' : LeadsTo ctx 1 "attachURL" "" e' _ := .intro answer?_attachUrl hlink' rfl
  obtain ⟨submit, hadmin⟩ := link_deviceIdCell e
    (show ctx.deviceAdminUrl = some "./Admin?lang=de" from rfl)
    (show wantsAdmin "admin" = true by decide)
  have hadminUrl : LeadsTo ctx 0 "deviceId" "admin" e _ := .intro answer?_deviceId hadmin rfl
  have hadminUrl' : LeadsTo ctx 1 "deviceId" "admin" e' _ := .intro answer?_deviceId hadmin rfl
  exact ⟨⟨_, hurl, hurl', links_give_their_parameters_back.2.1 ctx 0 1 "" "" e e' _ hurl hurl',
      links_give_their_parameters_back.2.2.2.1 ctx 0 "" e _ hurl⟩,
    ⟨_, hadminUrl, hadminUrl',
      links_give_their_parameters_back.2.2.1 ctx 0 1 "admin" "admin" e e' _ hadminUrl hadminUrl'⟩⟩

/-- What separates parameters is encoded in a name and in a value. -/
example : linkUrl "./Admin?lang=de" [("a=b", "c&d"), ("ü", "")] =
    "./Admin?lang=de&a%3Db=c%26d&%C3%BC=" := by decide

end EventTable
