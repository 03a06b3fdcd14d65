/-
  EventTable — catalogs: the columns that a table can be made of.

  A column has a key, a title, and a value for each record; the value may fail
  to be resolved.

  * `Catalog.register?` adds a column whose key is well formed and new;
  * `Catalog.lookup?` finds a column by its key;
  * `Catalog.keys` are in the order of registration.
-/
import EventTable.Context

namespace EventTable

/-- Why a value could not be resolved. -/
inductive ResolveError where
  /-- A look-up failed. -/
  | directory (e : DirectoryError)
  /-- Something that the value is made of is missing. -/
  | unavailable (what : String)
  /-- The resolver gave up without saying why. -/
  | aborted
  deriving DecidableEq, Repr

def ResolveError.message : ResolveError → String
  | directory e => e.message
  | unavailable what => what ++ " is not available"
  | aborted => ""

/-- A column over records of type `ρ`. -/
structure Column (ρ : Type) where
  key : String
  /-- The title for an argument, its placeholders not filled. -/
  title : Context → (argument : String) → String
  /-- The cell for a record in a row, counted from zero, and an argument. -/
  value : (row : Nat) → Context → (argument : String) → ρ → Except ResolveError Cell

/-- Why a column was not registered. -/
inductive CatalogError where
  | duplicateKey (key : String)
  | invalidKey (key : String)
  deriving DecidableEq, Repr

def CatalogError.message : CatalogError → String
  | duplicateKey key => "column key '" ++ key ++ "' is registered twice"
  | invalidKey key =>
    "column key '" ++ key ++ "' must be non-empty and contain only [A-Za-z0-9_]"

/-- Keys are made of one or more ASCII letters, digits and underscores. -/
def isValidKey (key : String) : Bool :=
  !key.isEmpty && key.toList.all fun c => c.isAlphanum || c == '_'

/-- Columns in the order of registration. -/
structure Catalog (ρ : Type) where
  columns : List (Column ρ) := []

namespace Catalog

variable {ρ : Type}

/-- The column with a key. -/
def lookup? (c : Catalog ρ) (key : String) : Option (Column ρ) :=
  c.columns.find? (·.key == key)

def contains (c : Catalog ρ) (key : String) : Bool := (c.lookup? key).isSome

def keys (c : Catalog ρ) : List String := c.columns.map (·.key)

def size (c : Catalog ρ) : Nat := c.columns.length

/-- Adds a column; its key must be well formed and new. -/
def register? (c : Catalog ρ) (column : Column ρ) : Except CatalogError (Catalog ρ) :=
  if !isValidKey column.key then .error (.invalidKey column.key)
  else if c.contains column.key then .error (.duplicateKey column.key)
  else .ok ⟨c.columns ++ [column]⟩

end Catalog

end EventTable
