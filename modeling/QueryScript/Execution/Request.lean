import QueryScript.Definition.Basic
import QueryScript.Number.Numeral
import QueryScript.Options
import QueryScript.Params
import QueryScript.Result.Format
import QueryScript.Vocabulary.Arguments

/-!
# Requests

The first step of a definition that names an executor says what is asked of the query, with
which arguments, options and result format.  A definition without such a step asks for the
rows.
-/

namespace QueryScript

/-- What a definition asks of its query. -/
structure Request where
  executor : Executor
  args : List Json := []
  /-- The options declared beside the executor. -/
  options : Options := {}
  /-- The result format declared beside the executor. -/
  returnFormat : Option Format := none

namespace Request

/-- The request of a definition that names no executor. -/
def rows : Request := { executor := .get }

/-- The text of an option; `null` gives none. -/
def textOption (es : Entries) (key : String) : Except Error (Option String) :=
  match Entries.get? es key with
  | none => .ok none
  | some .null => .ok none
  | some (.str s) => .ok (some s)
  | some v => .error (.definition ("'" ++ key ++ "' must be a string, got " ++ v.kindName))

/-- The number of seconds that a time limit writes. -/
def seconds? : Json → Option Nat
  | .num n => n.natural?
  | .str s => Numeral.natural? (Text.trim s)
  | _ => none

/-- The time limit among the options. -/
def timeoutOption (es : Entries) : Except Error (Option Nat) :=
  match Entries.get? es "timeout" with
  | none => .ok none
  | some .null => .ok none
  | some v =>
    match seconds? v with
    | some n => .ok (some n)
    | none => .error (.definition "'timeout' must be a non-negative number of seconds")

/-- The connection options of a step. -/
def declaredOptions (es : Entries) : Except Error Options := do
  let datasource ← textOption es "datasource"
  let timeout ← timeoutOption es
  let username ← textOption es "username"
  let password ← textOption es "password"
  return { datasource, timeout, username, password }

/-- The result format of a step. -/
def declaredFormat (es : Entries) : Except Error (Option Format) :=
  match Entries.get? es "returnFormat" with
  | none => .ok none
  | some .null => .ok none
  | some v => (Format.ofJson v).map some

/-- The request of a step with parameters filled in. -/
def ofEntries (executor : Executor) (es : Entries) : Except Error Request := do
  let options ← declaredOptions es
  let returnFormat ← declaredFormat es
  let value := (Entries.get? es executor.name).getD .null
  return { executor, args := executorArguments executor value, options, returnFormat }

/-- The executor that an item names. -/
def executorOf? : Item → Option Executor
  | .stray _ => none
  | .step es _ =>
    match Head.ofEntries? es with
    | some (.executor key) => Executor.ofName? key
    | _ => none

/-- The first executor that a definition names, with the step that names it. -/
def find? (definition : Definition) : Option (Executor × Item) :=
  definition.findSome? fun item => (executorOf? item).map fun e => (e, item)

/-- The request of a definition. -/
def ofDefinition (definition : Definition) (params : Params) : Except Error Request :=
  match find? definition with
  | some (executor, item) => ofEntries executor ((Json.resolve params item.toJson).entries?.getD [])
  | none => .ok rows

/-- Arguments of a page, with the page size filled in where none is given. -/
def withPageSize (size : Nat) : List Json → List Json
  | [] => [.nat 1, .nat size]
  | [page] => [page, .nat size]
  | page :: .null :: rest => page :: .nat size :: rest
  | args => args

/-- The request under a cap on the number of rows: pages get it as their size where the
definition gives none. -/
def capped (r : Request) (maxRows : Nat) : Request :=
  if r.executor.isPaginated then { r with args := withPageSize maxRows r.args } else r

end Request

end QueryScript
