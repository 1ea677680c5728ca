import QueryScript.Options
import QueryScript.Recorder.Call
import QueryScript.Recorder.NativeSet
import QueryScript.Number.Numeral
import QueryScript.Vocabulary.Executor

/-!
# The recorder

A query builder that keeps every call it is given and answers executors from a fixed list of
rows.  The calls of the limit family also set which rows are visible.

A call is an action of type `Build`: it may fail, and what it recorded before stays.  A nested
query is another `Build`, run on a recorder of its own by `Build.nested`, so that nothing it
does shows outside but the calls it returns.  The conditions of a join are given in the same way,
by a `Joining` that is run on a clause of its own.  Every call does all that can fail before it
records anything.
-/

namespace QueryScript

/-- A builder that records calls. -/
structure Recorder where
  /-- The calls in order. -/
  calls : List Call := []
  /-- The rows that executors answer from. -/
  rows : List Json := []
  /-- The result set for those who ask for the driver's own. -/
  native : Option NativeSet := none
  /-- The cap on the number of visible rows. -/
  limit : Option Nat := none
  /-- The number of rows skipped. -/
  offset : Nat := 0
  /-- The options of the last executor. -/
  lastOptions : Option Options := none

namespace Recorder

/-- A recorder without rows. -/
def fresh : Recorder := {}

/-- A recorder with rows. -/
def ofRows (rows : List Json) : Recorder := { rows := rows }

/-- The recorder with a native set, whose rows become the recorder's. -/
def withNative (r : Recorder) (set : NativeSet) : Recorder :=
  { r with rows := set.toRows, native := some set }

/-- The recorder with one more call. -/
def record (r : Recorder) (call : Call) : Recorder :=
  { r with calls := r.calls ++ [call] }

/-- The rows that are left after the offset and under the limit. -/
def visible (r : Recorder) : List Json :=
  match r.limit with
  | some n => (r.rows.drop r.offset).take n
  | none => r.rows.drop r.offset

/-- The cells of a column among the visible rows; rows without the column give none. -/
def column (r : Recorder) (name : String) : List Json :=
  r.visible.filterMap (·.field? name)

/-- The calls in one line. -/
def trace (r : Recorder) : String :=
  Call.trace r.calls

end Recorder

/-- An action on a recorder that may fail. -/
abbrev Build (α : Type) := ExceptT Error (StateM Recorder) α

/-- An action on the conditions of a join that may fail. -/
abbrev Joining (α : Type) := ExceptT Error (StateM (List JoinCondition)) α

namespace Joining

/-- Adds a condition. -/
def on (c : JoinCondition) : Joining Unit :=
  modify (· ++ [c])

/-- Adds conditions that are known. -/
def replay : List JoinCondition → Joining Unit
  | [] => pure ()
  | c :: rest => do
    on c
    replay rest

/-- What a join with known conditions is given. -/
def ofConditions (cs : List JoinCondition) : Option (Joining Unit) :=
  if cs.isEmpty then none else some (replay cs)

/-- Runs an action on the conditions that there are. -/
def runOn {α : Type} (j : Joining α) (cs : List JoinCondition) :
    Except Error α × List JoinCondition :=
  StateT.run (ExceptT.run j) cs

/-- The conditions of a join, each added on a clause of its own. -/
def conditions : Option (Joining Unit) → Except Error (List JoinCondition)
  | none => .ok []
  | some j =>
    match j.runOn [] with
    | (.ok _, cs) => .ok cs
    | (.error e, _) => .error e

end Joining

namespace Build

/-- Runs an action on a recorder. -/
def runOn {α : Type} (b : Build α) (r : Recorder) : Except Error α × Recorder :=
  StateT.run (ExceptT.run b) r

/-- The outcome of a computation without effects. -/
def lift {α : Type} (x : Except Error α) : Build α :=
  match x with
  | .ok a => pure a
  | .error e => throw e

/-- The calls that an action makes on a recorder of its own. -/
def nested (sub : Build Unit) : Build (List Call) :=
  match sub.runOn .fresh with
  | (.ok _, r) => pure r.calls
  | (.error e, _) => throw e

/-- Records a call. -/
def record (method : String) (operands : List Operand) : Build Unit :=
  modify (·.record (.mk method operands))

/-- Records a call with arguments only. -/
def call (method : String) (args : List Argument) : Build Unit :=
  record method (args.map .arg)

/-- A text as an operand. -/
def textOperand (s : String) : Operand :=
  .arg (.value (.str s))

/-- The conditions of a join as an operand, if there are any. -/
def conditionOperands (cs : List JoinCondition) : List Operand :=
  if cs.isEmpty then [] else [.conditions cs]

/-- Takes rows from a table. -/
def fromTable (method table : String) : Build Unit :=
  record method [textOperand table]

/-- Takes rows from a nested query under an alias, or selects its value as a column. -/
def fromQuery (method name : String) (sub : Build Unit) : Build Unit := do
  let calls ← nested sub
  record method [.nested calls, textOperand name]

/-- Joins a table on the conditions that are given, if any are. -/
def joinOn (method : String) (args : List Argument) (on : Option (Joining Unit)) :
    Build Unit := do
  let cs ← lift (Joining.conditions on)
  record method (args.map .arg ++ conditionOperands cs)

/-- Joins a table on conditions that are known. -/
def join (method : String) (args : List Argument) (on : List JoinCondition) : Build Unit :=
  joinOn method args (Joining.ofConditions on)

/-- Joins a nested query under an alias, on the conditions that are given, if any are. -/
def joinQueryOn (method name : String) (sub : Build Unit) (args : List Argument)
    (on : Option (Joining Unit)) : Build Unit := do
  let calls ← nested sub
  let cs ← lift (Joining.conditions on)
  record method (.nested calls :: textOperand name :: (args.map .arg ++ conditionOperands cs))

/-- Joins a nested query under an alias, on conditions that are known. -/
def joinQuery (method name : String) (sub : Build Unit) (args : List Argument)
    (on : List JoinCondition) : Build Unit :=
  joinQueryOn method name sub args (Joining.ofConditions on)

/-- Adds a group of clauses, a nested query to test for rows, or one to unite with. -/
def group (method : String) (sub : Build Unit) : Build Unit := do
  let calls ← nested sub
  record method [.nested calls]

/-- Compares with the result of a nested query. -/
def whereQuery (method : String) (args : List Argument) (sub : Build Unit) : Build Unit := do
  let calls ← nested sub
  record method (args.map .arg ++ [.nested calls])

/-- Names a nested query for the rest of the query. -/
def withQuery (method name : String) (sub : Build Unit) : Build Unit := do
  let calls ← nested sub
  record method [textOperand name, .nested calls]

end Build

/-- The number of rows on a page when none is given. -/
def defaultPageSize : Nat := 25

/-- The rows before a page, as far as 64 bits can tell; pages count from 1. -/
def pageOffset (page size : Nat) : Nat :=
  min ((page - 1) * size) (Word.limit - 1)

/-- An argument that should be a natural number of 64 bits; absent arguments and `null` give
none, a text may write the number. -/
def naturalArgument (args : List Argument) (index : Nat) : Except Error (Option Nat) :=
  match args[index]?.bind Argument.value? with
  | none => .ok none
  | some .null => .ok none
  | some (.num n) =>
    match n.natural? with
    | some k => .ok (some k)
    | none => .error (.builder ("expected a non-negative integer, got " ++ Json.renderNumber n))
  | some (.str s) =>
    match Numeral.natural? (Text.trim s) with
    | some k => .ok (some k)
    | none => .error (.builder ("expected a non-negative integer, got '" ++ s ++ "'"))
  | some v => .error (.builder ("expected a non-negative integer, got " ++ v.compact))

/-- How a call of the limit family changes which rows are visible. -/
def limitChange (method : String) (args : List Argument) :
    Except Error (Recorder → Recorder) := do
  match method with
  | "limit" | "take" =>
    let n ← naturalArgument args 0
    return fun r => { r with limit := n }
  | "offset" | "skip" =>
    let n ← naturalArgument args 0
    return fun r => { r with offset := n.getD 0 }
  | "forPage" =>
    let page ← naturalArgument args 0
    let size ← naturalArgument args 1
    let size := size.getD defaultPageSize
    return fun r => { r with offset := pageOffset (max (page.getD 1) 1) size, limit := some size }
  | _ => return id

/-- Limits or moves the visible rows. -/
def Build.limit (method : String) (args : List Argument) : Build Unit := do
  let change ← Build.lift (limitChange method args)
  modify change
  Build.call method args

end QueryScript
