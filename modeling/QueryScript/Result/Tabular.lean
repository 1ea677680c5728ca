import QueryScript.Recorder.NativeSet
import QueryScript.Result.Census

/-!
# Tables

A table has typed columns and rows with one cell for each column.  `ofRows` makes one from
objects: the columns are the keys of all rows in the order in which they first occur, and a
missing cell reads `null`.  `toRows` goes back to objects.
-/

namespace QueryScript

/-- A column with its type. -/
structure Column where
  name : String
  type : ColumnType
deriving DecidableEq, Repr

/-- Columns, and rows with a cell for each. -/
structure Tabular where
  columns : List Column
  rows : List (List Json)
deriving Repr

namespace Tabular

/-- The cells of a row under some keys. -/
def cellsUnder (keys : List String) (row : Json) : List Json :=
  keys.map fun key => (row.field? key).getD .null

/-- The table of some rows; a row that is no object has no cells of its own. -/
def ofRows (rows : List Json) : Tabular :=
  let census := Census.ofRows rows
  ⟨census.map fun (name, tally) => ⟨name, tally.resolve⟩, rows.map (cellsUnder census.names)⟩

/-- A row with a cell for each of so many columns: cut off, and then filled up with `null`. -/
def fit (width : Nat) (row : List Json) : List Json :=
  (row.take width).rightpad width .null

/-- The table of a driver's result. -/
def ofNative (set : NativeSet) : Tabular :=
  ⟨set.columns.map fun c => ⟨c.name, .ofNative c.typeName⟩,
    set.rows.map (fit set.columns.length)⟩

/-- One row as an object. -/
def rowObject (columns : List Column) (row : List Json) : Json :=
  .obj (Entries.ofPairs ((columns.map (·.name)).zip row))

/-- The rows as objects. -/
def toRows (t : Tabular) : List Json :=
  t.rows.map (rowObject t.columns)

/-- The column that a value writes. -/
def columnOfJson? (v : Json) : Option Column := do
  let es ← Dialect.json.record? ["name", "type"] v
  let name ← Entries.required? es "name" Json.string?
  let type ← Entries.required? es "type" fun t => (Dialect.json.name? t).bind ColumnType.ofName?
  return ⟨name, type⟩

/-- The table that a value writes. -/
def ofJson? (v : Json) : Option Tabular := do
  let es ← Dialect.json.record? ["columns", "rows"] v
  let columns ← Entries.required? es "columns" (Json.listOf? columnOfJson?)
  let rows ← Entries.required? es "rows" (Json.listOf? Json.array?)
  return ⟨columns, rows⟩

/-- A column as a value. -/
def columnJson (c : Column) : Json :=
  .obj [("name", .str c.name), ("type", .str c.type.name)]

/-- The table as a value. -/
def toJson (t : Tabular) : Json :=
  .obj [("columns", .arr (t.columns.map columnJson)), ("rows", .arr (t.rows.map .arr))]

end Tabular

end QueryScript
