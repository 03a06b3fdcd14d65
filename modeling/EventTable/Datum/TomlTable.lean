/-
  EventTable — the tables of a TOML text, as they grow line by line.

  A table comes into being by its own header (`header`), as the parent of a
  table with a header (`implied`), or by a dotted key (`dotted`); only an
  implied table may get a header later, and a dotted key may go through any
  table but one with a header.

  * `TomlNode` is a value, a table with its origin, or an array of tables;
  * `Passage` says how a path goes through tables;
  * `assign?` gives a key of the current table its value, `openTable?` and
    `openElement?` follow a header; each is none where TOML forbids it;
  * `TomlNode.fieldsToDatum` is the value of the finished tables.
-/
import EventTable.Datum.Basic
import EventTable.Datum.TomlRules
import EventTable.Dictionary

namespace EventTable.Datum

/-- How a table came into being. -/
inductive TableOrigin where
  | header | implied | dotted
  deriving DecidableEq, Repr

/-- What stands under a key. -/
inductive TomlNode where
  | value (d : Datum)
  | table (origin : TableOrigin) (fields : List (String × TomlNode))
  | tables (elements : List (List (String × TomlNode)))

/-- The keys of a table and what stands under them. -/
abbrev TomlFields := List (String × TomlNode)

mutual

def TomlNode.toDatum : TomlNode → Datum
  | .value d => d
  | .table _ fs => .table (TomlNode.fieldsToDatum fs)
  | .tables ts => .list (TomlNode.elementsToData ts)

def TomlNode.fieldsToDatum : List (String × TomlNode) → List (String × Datum)
  | [] => []
  | (k, n) :: r => (k, n.toDatum) :: TomlNode.fieldsToDatum r

def TomlNode.elementsToData : List (List (String × TomlNode)) → List Datum
  | [] => []
  | t :: r => .table (TomlNode.fieldsToDatum t) :: TomlNode.elementsToData r

end

/-- How a path goes through tables. -/
structure Passage where
  /-- The origin of the tables that the path makes. -/
  made : TableOrigin
  /-- The origin that a table has after the path went through it, if the path
      may do so. -/
  through? : TableOrigin → Option TableOrigin

namespace Passage

/-- The path of a header goes through all tables and leaves them as they are. -/
def header : Passage := ⟨.implied, some⟩

/-- A dotted key goes through no table with a header. -/
def dotted (rules : TomlRules) : Passage where
  made := .dotted
  through? origin :=
    if origin = .header then none
    else some (if rules.joinsImplied then .dotted else origin)

end Passage

/-- Changes the table that a path leads to, making the missing tables on the
    way; of an array of tables the path goes through the last one. -/
def changeAt? (p : Passage) (change : TableOrigin → TomlFields → Option TomlFields) :
    (path : List String) → TableOrigin → TomlFields → Option TomlFields
  | [], origin, fs => change origin fs
  | k :: path, _, fs =>
    match fs.lookup k with
    | none => (changeAt? p change path p.made []).map fun sub =>
        Dictionary.put k (.table p.made sub) fs
    | some (.value _) => none
    | some (.table origin sub) =>
      (p.through? origin).bind fun origin =>
        (changeAt? p change path origin sub).map fun sub =>
          Dictionary.put k (.table origin sub) fs
    | some (.tables ts) =>
      match ts.getLast? with
      | none => none
      | some t => (changeAt? p change path .header t).map fun t =>
          Dictionary.put k (.tables (ts.dropLast ++ [t])) fs

/-- Gives a dotted key, seen from a table, its value. -/
def assign? (rules : TomlRules) (path : List String) (key : String) (d : Datum) :
    TableOrigin → TomlFields → Option TomlFields :=
  changeAt? (.dotted rules) (fun origin fs =>
    if (origin == .dotted) == path.isEmpty then none
    else if (fs.lookup key).isSome then none
    else some (Dictionary.put key (.value d) fs)) path

/-- Opens the table with the header `path.key`. -/
def openTable? (path : List String) (key : String) : TomlFields → Option TomlFields :=
  changeAt? .header (fun _ fs =>
    match fs.lookup key with
    | none => some (Dictionary.put key (.table .header []) fs)
    | some (.table .implied sub) => some (Dictionary.put key (.table .header sub) fs)
    | some _ => none) path .header

/-- Opens the next element of the array of tables with the header `path.key`. -/
def openElement? (path : List String) (key : String) : TomlFields → Option TomlFields :=
  changeAt? .header (fun _ fs =>
    match fs.lookup key with
    | none => some (Dictionary.put key (.tables [[]]) fs)
    | some (.tables ts) => some (Dictionary.put key (.tables (ts ++ [[]])) fs)
    | some _ => none) path .header

end EventTable.Datum
