import QueryScript.Recorder.Executors
import QueryScript.Result.Format
import QueryScript.Result.Keyed
import QueryScript.Result.Tabular

/-!
# The shape of results

A format applies to a list of rows that are all objects; every other value stays as it is.
-/

namespace QueryScript.Format

/-- A list of rows in this format. -/
def shapeRows (format : Format) (rows : List Json) : Except Error Json :=
  match format with
  | .array => .ok (.arr rows)
  | .query | .tabular => .ok (Tabular.ofRows rows).toJson
  | .struct column values => (Keyed.ofRows rows column values).map .obj

/-- A value in this format. -/
def shape (format : Format) (v : Json) : Except Error Json :=
  match v with
  | .arr rows => if rows.all Json.isObject then format.shapeRows rows else .ok v
  | v => .ok v

/-- An answer in this format; a driver's own result keeps its column types in a table. -/
def shapeAnswer (format : Format) : Answer → Except Error Json
  | .native set =>
    if format.wantsNative then .ok (Tabular.ofNative set).toJson
    else format.shape (.arr set.toRows)
  | .value v => format.shape v

/-- A page whose rows, under a key, are in this format. -/
def shapePage (format : Format) (key : String) (page : Json) : Except Error Json :=
  match page with
  | .obj es =>
    match Entries.get? es key with
    | some rows => do
      let shaped ← format.shape rows
      return .obj (Entries.insert es key shaped)
    | none => .ok page
  | v => .ok v

end QueryScript.Format
