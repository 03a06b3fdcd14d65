/-
  EventTable — fillers of blank cells are shown, and nothing else.

  * `ColumnRequest.AlikeButFiller`, `Cell.AlikeButFiller` and
    `Table.AlikeButFillers`: what is the same but for what blank cells show;
  * `sortValueAt_congr`: rows of such cells are sorted by the same values, for a
    filler is never what is compared;
  * `Column.IgnoresFiller` holds of a column that does not read the filler of the
    context, and of all columns over events (`ignoresFiller_of_mem`);
  * `listedAlike_of_ignores`: tables with different fillers list the same records
    in the same places after any sorts;
  * `fillers_never_move_rows` puts these together.
-/
import EventTable.Proofs.SortKeys
import Mathlib.Data.List.Forall2

namespace EventTable

variable {ρ : Type}

/-! ## Cells and rows with different fillers -/

/-- Requests of the same column, with the same argument and title. -/
def ColumnRequest.AlikeButFiller (request request' : ColumnRequest) : Prop :=
  request' = { request with filler := request'.filler }

/-- **Cells that are the same but for what is shown if they are blank.** -/
structure Cell.AlikeButFiller (c c' : Cell) : Prop where
  same : c' = { c with filler := c'.filler }
  blank : c'.isBlank = c.isBlank
  shown : c.isBlank = false → c'.value = c.value

/-- Tables of the same titles, and of rows with such cells in the same places. -/
structure Table.AlikeButFillers (t t' : Table) : Prop where
  titles : t'.titles = t.titles
  rows : List.Forall₂ (List.Forall₂ Cell.AlikeButFiller) t.rows t'.rows

namespace Cell

theorem alikeButFiller_withFiller (c : Cell) (filler filler' : String) :
    (c.withFiller filler).AlikeButFiller (c.withFiller filler') where
  same := rfl
  blank := rfl
  shown h := by
    obtain ⟨text, ht, hb⟩ := isBlank_eq_false_iff.1 h
    -- the text is there before and after filling, so neither filler is shown
    have ht' : (c.withFiller filler').text = some text := ht
    rw [value_of_text ht hb, value_of_text ht' hb]

/-- A filler is never what a cell is sorted by. -/
theorem AlikeButFiller.ofCell_eq {c c' : Cell} (h : c.AlikeButFiller c') :
    SortValue.ofCell (some c) = SortValue.ofCell (some c') := by
  have hk : c'.sortKey = c.sortKey := by rw [h.same]
  rw [SortValue.ofCell, SortValue.ofCell, hk, h.blank]
  cases c.sortKey.filter (!·.isNaN) with
  | some key => rfl
  | none =>
    cases hb : c.isBlank with
    | true => rfl
    | false => simp [h.shown hb]

end Cell

theorem sortValueAt_congr {row row' : List Cell}
    (h : List.Forall₂ Cell.AlikeButFiller row row') (column : Nat) :
    sortValueAt column row = sortValueAt column row' := by
  induction h generalizing column with
  | nil => rfl
  | cons hc _ ih =>
    cases column with
    | zero => exact hc.ofCell_eq
    | succ column => exact ih column

/-! ## Columns that do not read the filler -/

/-- Neither the title nor the values hang on the filler of the context. -/
structure Column.IgnoresFiller (column : Column ρ) : Prop where
  title : ∀ (ctx : Context) filler, column.title { ctx with filler } = column.title ctx
  value : ∀ (ctx : Context) filler row,
    column.value row { ctx with filler } = column.value row ctx

theorem ignoresFiller_of_mem {column : Column Event} (h : column ∈ eventColumns) :
    column.IgnoresFiller where
  title ctx filler := by
    have htitles : eventColumns.map (·.title { ctx with filler }) =
        eventColumns.map (·.title ctx) := rfl
    exact List.map_inj_left.1 htitles column h
  value ctx filler row := by
    have hvalues : eventColumns.map (·.value row { ctx with filler }) =
        eventColumns.map (·.value row ctx) := rfl
    exact List.map_inj_left.1 hvalues column h

/-! ## Two runs -/

/-- **Two tables list the same records in the same places**, after the same
    sorts, and are the same but for their fillers. -/
structure ListedAlike (catalog : Catalog ρ) (ctx ctx' : Context)
    (requests requests' : List ColumnRequest) (records : List ρ)
    (sorts : List (Nat × SortSpec)) : Prop where
  listing : ∃ listing : List (ρ × Nat), listing.Perm records.zipIdx ∧
    ((assemble catalog ctx requests records).sortAll sorts).rows =
      listing.map (fun p => assembleRow catalog ctx requests p.2 p.1) ∧
    ((assemble catalog ctx' requests' records).sortAll sorts).rows =
      listing.map fun p => assembleRow catalog ctx' requests' p.2 p.1
  alike : ((assemble catalog ctx requests records).sortAll sorts).AlikeButFillers
    ((assemble catalog ctx' requests' records).sortAll sorts)

section
variable {catalog : Catalog ρ} {ctx ctx' : Context} {requests requests' : List ColumnRequest}

/-- No title shows a filler. -/
theorem columnTitle_congr {request request' : ColumnRequest}
    (hctx : ctx' = { ctx with filler := ctx'.filler }) (hq : request.AlikeButFiller request')
    (h : ∀ column ∈ catalog.columns, column.title ctx' = column.title ctx) :
    columnTitle catalog ctx' request' = columnTitle catalog ctx request := by
  have hexpand : ctx'.expandTitle = ctx.expandTitle := by rw [hctx]; rfl
  rw [columnTitle, columnTitle, hq, hexpand]
  cases hl : catalog.lookup? request.key with
  | none => rfl
  | some column =>
    have htitle := h column (List.mem_of_find?_eq_some hl)
    simp only [htitle, ColumnRequest.titleOverride]

theorem assembleRow_alike (hq : List.Forall₂ ColumnRequest.AlikeButFiller requests requests')
    (h : ∀ column ∈ catalog.columns, ∀ row, column.value row ctx' = column.value row ctx)
    (row : Nat) (record : ρ) :
    List.Forall₂ Cell.AlikeButFiller (assembleRow catalog ctx requests row record)
      (assembleRow catalog ctx' requests' row record) := by
  rw [assembleRow, assembleRow, List.forall₂_map_left_iff, List.forall₂_map_right_iff]
  refine hq.imp fun request request' hq => ?_
  have hbare : resolveCell catalog ctx' row record request' =
      resolveCell catalog ctx row record request := by
    rw [hq]
    exact resolveCell_congr rfl fun column hc => by rw [h column hc row]
  rw [hbare]
  exact Cell.alikeButFiller_withFiller ..

theorem titles_assemble_congr (hctx : ctx' = { ctx with filler := ctx'.filler })
    (hq : List.Forall₂ ColumnRequest.AlikeButFiller requests requests')
    (h : ∀ column ∈ catalog.columns, column.title ctx' = column.title ctx) :
    requests'.map (columnTitle catalog ctx') = requests.map (columnTitle catalog ctx) := by
  induction hq with
  | nil => rfl
  | cons hq _ ih => rw [List.map_cons, List.map_cons, columnTitle_congr hctx hq h, ih]

/-- Different fillers are sorted alike, whatever the catalog, if the contexts are
    the same or no column reads the filler. -/
theorem listedAlike_of_ignores (hctx : ctx' = { ctx with filler := ctx'.filler })
    (hq : List.Forall₂ ColumnRequest.AlikeButFiller requests requests')
    (h : ctx' = ctx ∨ ∀ column ∈ catalog.columns, column.IgnoresFiller) (records : List ρ)
    (sorts : List (Nat × SortSpec)) :
    ListedAlike catalog ctx ctx' requests requests' records sorts := by
  have hcolumns : ∀ column ∈ catalog.columns, column.title ctx' = column.title ctx ∧
      ∀ row, column.value row ctx' = column.value row ctx := by
    intro column hc
    rcases h with rfl | h
    · exact ⟨rfl, fun _ => rfl⟩
    · rw [hctx]
      exact ⟨(h column hc).title .., (h column hc).value ctx ctx'.filler⟩
  have halike := assembleRow_alike hq fun column hc => (hcolumns column hc).2
  have htitles := titles_assemble_congr hctx hq fun column hc => (hcolumns column hc).1
  have hlen : (requests.map (columnTitle catalog ctx)).length =
      (requests'.map (columnTitle catalog ctx')).length := by rw [htitles]
  -- both runs move the numbered records alike, for they compare the same values
  have hvalues : ∀ sort ∈ sorts, sort.1 < (requests.map (columnTitle catalog ctx)).length →
      ∀ p ∈ records.zipIdx, sortValueAt sort.1 (assembleRow catalog ctx requests p.2 p.1) =
        sortValueAt sort.1 (assembleRow catalog ctx' requests' p.2 p.1) :=
    fun sort _ _ p _ => sortValueAt_congr (halike p.2 p.1) sort.1
  obtain ⟨listing, hperm, hrows, hrows'⟩ := Table.exists_parallel_sortAll hlen hvalues
  rw [← rows_assemble] at hrows hrows'
  have hcells : List.Forall₂ (List.Forall₂ Cell.AlikeButFiller)
      (listing.map fun p => assembleRow catalog ctx requests p.2 p.1)
      (listing.map fun p => assembleRow catalog ctx' requests' p.2 p.1) := by
    rw [List.forall₂_map_left_iff, List.forall₂_map_right_iff, List.forall₂_same]
    exact fun p _ => halike p.2 p.1
  rw [← hrows, ← hrows'] at hcells
  refine ⟨⟨listing, hperm, hrows, hrows'⟩, ?_, hcells⟩
  rw [Table.titles_sortAll, Table.titles_sortAll]
  exact htitles

end

/-- **Fillers never move rows.**  Let requests and contexts differ in their fillers
    only: whatever sorts the tables of events go through, both list the same
    events in the same places, and their cells are the same but for what blank
    ones show.  The same holds of any catalog if its columns do not read the
    filler of the context, as no column over events does, or if that filler is
    the same. -/
theorem fillers_never_move_rows {ctx ctx' : Context} {requests requests' : List ColumnRequest}
    (hctx : ctx' = { ctx with filler := ctx'.filler })
    (hq : List.Forall₂ ColumnRequest.AlikeButFiller requests requests') :
    (∀ events sorts, ListedAlike eventCatalog ctx ctx' requests requests' events sorts) ∧
      ∀ (ρ : Type) (catalog : Catalog ρ),
        (ctx' = ctx ∨ ∀ column ∈ catalog.columns, column.IgnoresFiller) →
        ∀ records sorts, ListedAlike catalog ctx ctx' requests requests' records sorts :=
  ⟨listedAlike_of_ignores hctx hq (.inr fun _ hc => ignoresFiller_of_mem hc),
    fun _ _ h => listedAlike_of_ignores hctx hq h⟩

/-- Speeds and an unknown column, with fillers that would stand before and behind
    all texts. -/
theorem fillers_stand_where_blanks_stood :
    let ctx : Context := { now := 0 }
    let ctx' : Context := { now := 0, filler := "zzz" }
    let requests : List ColumnRequest :=
      [{ key := "address", filler := some "!" }, { key := "speed" }, { key := "nothing" }]
    let requests' : List ColumnRequest :=
      [{ key := "address" }, { key := "speed", filler := some "0" }, { key := "nothing" }]
    let events : List Event := [{ address := "Quay" }, { speedKph := 80.0 }, { address := "Mole" }]
    let sorts : List (Nat × SortSpec) := [(0, { nulls := .last }), (1, { descending := true })]
    ctx' = { ctx with filler := ctx'.filler } ∧
      List.Forall₂ ColumnRequest.AlikeButFiller requests requests' ∧
      ListedAlike eventCatalog ctx ctx' requests requests' events sorts := by
  intro ctx ctx' requests requests' events sorts
  have hctx : ctx' = { ctx with filler := ctx'.filler } := rfl
  have hq : List.Forall₂ ColumnRequest.AlikeButFiller requests requests' :=
    .cons rfl (.cons rfl (.cons rfl .nil))
  exact ⟨hctx, hq, (fillers_never_move_rows hctx hq).1 events sorts⟩

end EventTable
