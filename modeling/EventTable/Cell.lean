/-
  EventTable — cells: what a table shows for one event in one column.

  A cell has a text, or a filler that is shown in its place, and annotations:
  a sort key, colours, a link and an image.  Cells are built step by step
  (`with…`); a blank colour, link or image counts as none.

  * `Cell.value` is the text shown, and `Cell.isBlank` holds of a cell without
    a text of its own;
  * `sortKey_with…`: no step but `withSortKey` touches the sort key;
  * `value_of_text`: a text that is not blank is shown as it is, and
    `value_withFiller_of_isBlank`: anything else as the filler.
-/
import EventTable.AgeBand
import EventTable.Text.Blank

namespace EventTable

open Text

/-- Where a cell leads to, and the window it opens there. -/
structure Link where
  url : String
  target : Option String := none
  deriving DecidableEq, Repr

/-- One cell of a table. -/
structure Cell where
  text : Option String := none
  filler : Option String := none
  sortKey : Option Float := none
  foreground : Option String := none
  background : Option String := none
  link : Option Link := none
  image : Option String := none
  deriving DecidableEq, Repr

namespace Cell

/-- Shown for a blank cell unless another filler is set. -/
def defaultFiller : String := "--"

/-- A cell without text and annotations. -/
def blank : Cell := {}

def withText (c : Cell) (text : String) : Cell := { c with text := some text }

/-- A cell with a text. -/
def ofText (text : String) : Cell := blank.withText text

def withSortKey (c : Cell) (key : Float) : Cell := { c with sortKey := some key }

def withForeground (c : Cell) (color : String) : Cell := { c with foreground := nonBlank? color }

def withBackground (c : Cell) (color : String) : Cell := { c with background := nonBlank? color }

def withLink (c : Cell) (url : String) (target : Option String) : Cell :=
  { c with link := (nonBlank? url).map fun url => ⟨url, target.bind nonBlank?⟩ }

def withImage (c : Cell) (url : String) : Cell := { c with image := nonBlank? url }

/-- Takes the colour of a band, unless a foreground is set. -/
def withAgeBand (c : Cell) : Option AgeBand → Cell
  | some b => if c.foreground.isNone then c.withForeground b.color else c
  | none => c

def withFiller (c : Cell) (filler : String) : Cell := { c with filler := some filler }

/-- Holds of a cell without a text of its own. -/
def isBlank (c : Cell) : Bool := c.text.all Text.isBlank

/-- The text shown. -/
def value (c : Cell) : String :=
  (c.text.bind nonBlank?).getD (c.filler.getD defaultFiller)

/-! ## What the steps do to the sort key -/

@[simp] theorem sortKey_blank : blank.sortKey = none := rfl

@[simp] theorem sortKey_ofText (text : String) : (ofText text).sortKey = none := rfl

@[simp] theorem sortKey_withSortKey (c : Cell) (key : Float) :
    (c.withSortKey key).sortKey = some key := rfl

@[simp] theorem sortKey_withForeground (c : Cell) (color : String) :
    (c.withForeground color).sortKey = c.sortKey := rfl

@[simp] theorem sortKey_withBackground (c : Cell) (color : String) :
    (c.withBackground color).sortKey = c.sortKey := rfl

@[simp] theorem sortKey_withLink (c : Cell) (url : String) (target : Option String) :
    (c.withLink url target).sortKey = c.sortKey := rfl

@[simp] theorem sortKey_withImage (c : Cell) (url : String) :
    (c.withImage url).sortKey = c.sortKey := rfl

@[simp] theorem sortKey_withFiller (c : Cell) (filler : String) :
    (c.withFiller filler).sortKey = c.sortKey := rfl

@[simp] theorem sortKey_withAgeBand (c : Cell) (band : Option AgeBand) :
    (c.withAgeBand band).sortKey = c.sortKey := by
  cases band with
  | none => rfl
  | some band =>
    rw [withAgeBand]
    split <;> rfl

/-! ## What is shown -/

@[simp] theorem text_withAgeBand (c : Cell) (band : Option AgeBand) :
    (c.withAgeBand band).text = c.text := by
  cases band with
  | none => rfl
  | some band =>
    rw [withAgeBand]
    split <;> rfl

theorem value_of_text {c : Cell} {text : String} (ht : c.text = some text)
    (h : Text.isBlank text = false) : c.value = text := by
  simp [value, ht, nonBlank?, h]

theorem value_ofText {text : String} (h : Text.isBlank text = false) :
    (ofText text).value = text :=
  value_of_text rfl h

theorem isBlank_eq_false_iff {c : Cell} :
    c.isBlank = false ↔ ∃ text, c.text = some text ∧ Text.isBlank text = false := by
  rw [isBlank]
  cases c.text <;> simp

@[simp] theorem isBlank_withFiller (c : Cell) (filler : String) :
    (c.withFiller filler).isBlank = c.isBlank := rfl

theorem value_withFiller_of_isBlank {c : Cell} (filler : String) (h : c.isBlank = true) :
    (c.withFiller filler).value = filler := by
  have hn : c.text.bind nonBlank? = none := Option.bind_eq_none_iff.2 fun text ht =>
    nonBlank?_eq_none_iff.2 <| by simpa [isBlank, ht] using h
  simp [value, withFiller, hn]

end Cell

end EventTable
