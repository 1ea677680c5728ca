import QueryScript.Json.Record

/-!
# Native result sets

A database driver's own result: typed columns and rows of cells.  `toRows` gives the rows as
objects; a missing cell reads `null`, a cell without a column is dropped, and of two columns
with one name the later gives the value.
-/

namespace QueryScript

/-- A column with the type name that the driver uses. -/
structure NativeColumn where
  name : String
  typeName : String
deriving DecidableEq, Repr

/-- A result in the driver's own form. -/
structure NativeSet where
  columns : List NativeColumn
  rows : List (List Json)
deriving Repr

namespace NativeSet

/-- The cells of a row, one for each name: cut off or filled up with `null`. -/
def cells {α : Type} : List α → List Json → List Json
  | [], _ => []
  | _ :: cols, [] => .null :: cells cols []
  | _ :: cols, v :: rest => v :: cells cols rest

/-- A row as an object. -/
def rowObject (columns : List NativeColumn) (row : List Json) : Json :=
  .obj (Entries.ofPairs ((columns.map (·.name)).zip (cells columns row)))

/-- The column that a value writes. -/
def columnOfJson? (v : Json) : Option NativeColumn := do
  let es ← Dialect.json.record? ["name", "type"] v
  let name ← Entries.required? es "name" Json.string?
  let typeName ← Entries.required? es "type" Json.string?
  return ⟨name, typeName⟩

/-- The set that a value writes. -/
def ofJson? (v : Json) : Option NativeSet := do
  let es ← Dialect.json.record? ["columns", "rows"] v
  let columns ← Entries.required? es "columns" (Json.listOf? columnOfJson?)
  let rows ← Entries.required? es "rows" (Json.listOf? Json.array?)
  return ⟨columns, rows⟩

/-- The rows as objects. -/
def toRows (set : NativeSet) : List Json :=
  set.rows.map (rowObject set.columns)

end NativeSet

end QueryScript
