/-
  EventTable — what is to be seen in every cell of a table.

  * `Displays` says what a cell of a requested column displays: its own text,
    or what fills the blank cells of that column;
  * `Displays.visible`: that is never blank, unless the filler of the context is;
  * `isBlank_filler_of_toContext`: no settings make such a context;
  * `forall₂_displays_assemble`: the cells of a row display in the order of the
    requests, and sorts keep the rows whole;
  * `assembled_cells_are_visible` puts these together.
-/
import EventTable.EventCatalog
import EventTable.Proofs.Assembly
import EventTable.Proofs.Sorting
import EventTable.Settings.Basic
import Mathlib.Data.List.Forall2

namespace EventTable

open Text Calendar

/-! ## Texts and fillers on display -/

/-- **What a cell of a requested column displays**: a text of its own that is not
    blank, or else the filler. -/
inductive Displays (ctx : Context) (request : ColumnRequest) (cell : Cell) : Prop
  | own {text} : cell.text = some text → isBlank text = false → cell.value = text →
      Displays ctx request cell
  | filled {filler} : cell.isBlank = true → Fills ctx request filler → cell.value = filler →
      Displays ctx request cell

variable {ctx : Context} {request : ColumnRequest}

theorem displays_withFiller {filler : String} (hf : Fills ctx request filler) (bare : Cell) :
    Displays ctx request (bare.withFiller filler) := by
  cases hb : bare.isBlank with
  | true => exact .filled hb hf (Cell.value_withFiller_of_isBlank filler hb)
  | false =>
    obtain ⟨text, ht, hv⟩ := Cell.isBlank_eq_false_iff.1 hb
    exact .own ht hv (Cell.value_of_text ht hv)

theorem Fills.isBlank_eq_false {filler : String} (hctx : isBlank ctx.filler = false)
    (h : Fills ctx request filler) : isBlank filler = false := by
  cases h with
  | own _ hb => exact hb
  | shared _ => exact hctx

/-- What is displayed is never blank. -/
theorem Displays.visible {cell : Cell} (hctx : isBlank ctx.filler = false)
    (h : Displays ctx request cell) : ∃ c ∈ cell.value.toList, isBlankChar c = false := by
  rw [← isBlank_eq_false_iff]
  cases h with
  | own _ hb hv => rwa [hv]
  | filled _ hf hv =>
    rw [hv]
    exact hf.isBlank_eq_false hctx

/-! ## Contexts of settings -/

theorem filler_of_toContext {s : Settings} {now : Int} {directory : Option Directory}
    (h : s.toContext now directory = .ok ctx) :
    ctx.filler = nonBlankOr s.filler Cell.defaultFiller := by
  unfold Settings.toContext at h
  cases hz : Zone.parse? s.timezone with
  | none => simp [hz, bind, Except.bind] at h
  | some zone =>
    cases hs : Settings.stylesByCode s.statusStyles with
    | error e => simp [hz, hs, bind, Except.bind] at h
    | ok styles =>
      simp only [hz, hs, bind, Except.bind, pure, Except.pure, Except.ok.injEq] at h
      rw [← h]

theorem isBlank_filler_of_toContext {s : Settings} {now : Int} {directory : Option Directory}
    (h : s.toContext now directory = .ok ctx) : isBlank ctx.filler = false := by
  rw [filler_of_toContext h]
  exact isBlank_nonBlankOr _ (by decide)

/-! ## Rows on display -/

variable {ρ : Type}

theorem forall₂_displays_assemble {catalog : Catalog ρ} {requests : List ColumnRequest}
    {records : List ρ} {row : List Cell} (h : row ∈ (assemble catalog ctx requests records).rows) :
    List.Forall₂ (Displays ctx) requests row := by
  obtain ⟨i, hi, rfl⟩ := List.mem_mapIdx.1 h
  refine List.forall₂_map_right_iff.2 (List.forall₂_same.2 fun request _ => ?_)
  exact displays_withFiller (fills_columnFiller ctx request) _

/-- **Every cell has something to show.**  In a table of events made with settings
    and sorted in any way, there is a row for each event, and each cell in it
    displays its own text or else the filler of its column, and never a blank. -/
theorem assembled_cells_are_visible {s : Settings} {now : Int} {directory : Option Directory}
    {ctx : Context} (h : s.toContext now directory = .ok ctx) (requests : List ColumnRequest)
    (events : List Event) (sorts : List (Nat × SortSpec)) :
    ((assembleEvents ctx requests events).sortAll sorts).rowCount = events.length ∧
      ∀ row ∈ ((assembleEvents ctx requests events).sortAll sorts).rows,
        List.Forall₂ (fun request cell =>
          (∃ c ∈ cell.value.toList, isBlankChar c = false) ∧ Displays ctx request cell)
          requests row := by
  have hperm := Table.rows_sortAll_perm (assembleEvents ctx requests events) sorts
  refine ⟨?_, fun row hrow => ?_⟩
  · exact hperm.length_eq.trans (assembled_assemble ..).rowCount
  · have hrow' := forall₂_displays_assemble (hperm.mem_iff.1 hrow)
    exact hrow'.imp fun _ _ hd => ⟨hd.visible (isBlank_filler_of_toContext h), hd⟩

/-- Wide blanks as fillers, and a column that is not known. -/
theorem wide_blanks_are_never_seen :
    let s : Settings := { timezone := "+02:00", filler := "\u2003 " }
    let requests : List ColumnRequest :=
      [{ key := "speed" }, { key := "nothing", filler := some "\u3000" }]
    let events : List Event := [{ speedKph := 80.0 }, {}]
    let sorts : List (Nat × SortSpec) := [(0, {}), (2, {}), (1, { descending := true })]
    ∃ ctx, s.toContext 0 none = .ok ctx ∧
      ((assembleEvents ctx requests events).sortAll sorts).rowCount = 2 ∧
      ∀ row ∈ ((assembleEvents ctx requests events).sortAll sorts).rows,
        List.Forall₂ (fun request cell =>
          (∃ c ∈ cell.value.toList, isBlankChar c = false) ∧ Displays ctx request cell)
          requests row := by
  intro s requests events sorts
  have hok : (s.toContext 0 none).isOk := by decide +kernel
  cases h : s.toContext 0 none with
  | error e => simp [h, Except.isOk, Except.toBool] at hok
  | ok ctx => exact ⟨ctx, rfl, assembled_cells_are_visible h requests events sorts⟩

end EventTable
