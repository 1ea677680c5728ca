import QueryScript.Error
import QueryScript.Json.Printer

/-!
# Rows under keys

Rows as one object: the text of each row's cell in the key column is the key, and of rows with
one key the last counts.
-/

namespace QueryScript.Keyed

/-- The key that a cell gives: the text of a scalar, else the value as JSON. -/
def keyText (cell : Json) : String :=
  cell.scalarText?.getD cell.compact

/-- What stands for a row: the row itself, one cell, or an object of several cells. -/
def projection (valueKeys : List String) (es : Entries) : Json :=
  match valueKeys with
  | [] => .obj es
  | [key] => (Entries.get? es key).getD .null
  | keys => .obj (Entries.ofPairs (keys.map fun key => (key, (Entries.get? es key).getD .null)))

/-- The key and the value of a row, if it has the key column. -/
def pairOf? (column : String) (valueKeys : List String) : Json → Option (String × Json)
  | .obj es => (Entries.get? es column).map fun cell => (keyText cell, projection valueKeys es)
  | _ => none

/-- Refuses columns that the first row lacks. -/
def checkColumns (column : String) (valueKeys : List String) (first : Json) :
    Except Error Unit :=
  if (first.field? column).isNone then .error (.columnKey column)
  else
    match valueKeys.find? fun key => (first.field? key).isNone with
    | some key => .error (.valueKey key)
    | none => .ok ()

/-- The rows under their keys. -/
def ofRows (rows : List Json) (column : String) (valueKeys : List String) :
    Except Error Entries :=
  match rows with
  | [] => .ok []
  | first :: _ => do
    checkColumns column valueKeys first
    return Entries.ofPairs (rows.filterMap (pairOf? column valueKeys))

end QueryScript.Keyed
