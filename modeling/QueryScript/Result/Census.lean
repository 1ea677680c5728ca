import QueryScript.Result.ColumnType

/-!
# The columns of rows

The columns of some rows are found in one pass over their entries.  A key that is met for the
first time opens a column at the end, and the type of every value is counted under its key.
-/

namespace QueryScript

/-- The tally with the type of one more value; `null` has none. -/
def Tally.addValue (tally : Tally) (v : Json) : Tally :=
  match ColumnType.detect v with
  | some t => tally.add t
  | none => tally

/-- The columns found so far, each with the tally of the types in it. -/
abbrev Census := List (String × Tally)

namespace Census

/-- The census with one more cell. -/
def addCell : Census → String → Json → Census
  | [], name, v => [(name, Tally.addValue [] v)]
  | (n, tally) :: rest, name, v =>
    if n = name then (n, tally.addValue v) :: rest else (n, tally) :: addCell rest name v

/-- The census with one more row; a row that is no object has no cells. -/
def addRow (census : Census) : Json → Census
  | .obj es => es.foldl (fun census (key, v) => census.addCell key v) census
  | _ => census

/-- The census of some rows. -/
def ofRows (rows : List Json) : Census :=
  rows.foldl addRow []

/-- The names of the columns. -/
def names (census : Census) : List String :=
  census.map (·.1)

end Census

end QueryScript
