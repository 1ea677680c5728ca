import QueryScript.Recorder.Basic

/-!
# Answering executors

The recorder answers every executor from its rows.  An executor is recorded, and its options
kept, before it is answered.
-/

namespace QueryScript

/-- What an executor answers: a native result set, or a value. -/
inductive Answer where
  | native (set : NativeSet)
  | value (v : Json)

/-- The answer as a value. -/
def Answer.toJson : Answer → Json
  | .native set => .arr set.toRows
  | .value v => v

/-- The column that an executor cannot do without. -/
def requiredColumn (args : List Argument) (executor : Executor) : Except Error String :=
  match args.head?.bind Argument.string? with
  | some name => .ok name
  | none => .error (.builder (executor.name ++ " requires a column name"))

/-- The sum of integers of 64 bits, which wraps around. -/
def sumOfIntegers (integers : List Int) : Int :=
  integers.foldl (fun total i => Word.wrap (total + i)) 0

/-- The sum of numbers: of integers as an integer, of others as doubles. -/
def sumOf (numbers : List Number) : Json :=
  if numbers.all (·.signed?.isSome) then .int (sumOfIntegers (numbers.filterMap Number.signed?))
  else
    let total := (numbers.map Number.toDouble).foldl Binary64.add .negativeZero
    if total.isFinite then .num (.double total) else .null

/-- Whether `b` replaces `a` as the extreme so far. -/
def beats (largest : Bool) (a b : Number) : Bool :=
  b.toDouble.order a.toDouble == some (if largest then .gt else .lt)

/-- The first of the smallest or of the largest numbers. -/
def extremeOf (largest : Bool) : List Number → Json
  | [] => .null
  | n :: rest => .num (rest.foldl (fun best m => if beats largest best m then m else best) n)

namespace Recorder

/-- The cells of one column under the texts of another; rows without a scalar key are left
out. -/
def keyedColumn (r : Recorder) (column key : String) : Entries :=
  Entries.ofPairs (r.visible.filterMap fun row =>
    ((row.field? key).bind Json.scalarText?).map fun k => (k, (row.field? column).getD .null))

/-- The numbers of a column. -/
def numbers (r : Recorder) (column : String) : List Number :=
  (r.column column).filterMap Json.number?

/-- The rows of a page.  Pages are cut from all rows, whatever is visible. -/
def page (r : Recorder) (page size : Nat) : List Json :=
  (r.rows.drop (pageOffset page size)).take size

/-- A page with its description. -/
def paginate (r : Recorder) (args : List Argument) (simple : Bool) : Except Error Json := do
  let page := max ((← naturalArgument args 0).getD 1) 1
  let size := max ((← naturalArgument args 1).getD defaultPageSize) 1
  let total := r.rows.length
  let totals := if simple then [] else
    [("totalRecords", Json.nat total), ("totalPages", Json.nat ((total + size - 1) / size))]
  return .obj
    [("results", .arr (r.page page size)),
      ("pagination", .obj ([("page", Json.nat page), ("maxRows", Json.nat size)] ++ totals))]

/-- The first row whose cell equals the argument; the column is `id` unless it is given. -/
def findRow (r : Recorder) (args : List Argument) : Json :=
  let id := (args.head?.bind Argument.value?).getD .null
  let column := (args[1]?.bind Argument.string?).getD "id"
  (r.rows.find? fun row =>
    match row.field? column with
    | some cell => cell.same id
    | none => false).getD .null

/-- The cells of a column, as a list or under the texts of a key column. -/
def values (r : Recorder) (column : String) (key : Option String) : Json :=
  match key with
  | some k => .obj (r.keyedColumn column k)
  | none => .arr (r.column column)

/-- The answer to an executor. -/
def answer (r : Recorder) (executor : Executor) (args : List Argument) (options : Options) :
    Except Error Answer := do
  match executor with
  | .get =>
    match options.native, r.native with
    | true, some set => return .native set
    | _, _ => return .value (.arr r.visible)
  | .first => return .value (r.visible.head?.getD .null)
  | .find => return .value (r.findRow args)
  | .value =>
    let column ← requiredColumn args executor
    return .value ((r.visible.head?.bind (·.field? column)).getD .null)
  | .values =>
    let column ← requiredColumn args executor
    return .value (r.values column (args[1]?.bind Argument.string?))
  | .count => return .value (Json.nat r.visible.length)
  | .exists => return .value (.bool (!r.visible.isEmpty))
  | .sum =>
    let column ← requiredColumn args executor
    return .value (sumOf (r.numbers column))
  | .min =>
    let column ← requiredColumn args executor
    return .value (extremeOf false (r.numbers column))
  | .max =>
    let column ← requiredColumn args executor
    return .value (extremeOf true (r.numbers column))
  | .avg => return .value .null
  | .paginate => return .value (← r.paginate args false)
  | .simplePaginate => return .value (← r.paginate args true)
  | .toSql => return .value (.str r.trace)
  | .dump => return .value (.str r.trace)

/-- The recorder after an executor was called. -/
def executed (r : Recorder) (executor : Executor) (args : List Argument) (options : Options) :
    Recorder :=
  { r.record (.mk executor.name (args.map .arg)) with lastOptions := some options }

end Recorder

/-- Runs an executor. -/
def Build.execute (executor : Executor) (args : List Argument) (options : Options) :
    Build Answer := do
  let before ← get
  set (before.executed executor args options)
  Build.lift (before.answer executor args options)

end QueryScript
