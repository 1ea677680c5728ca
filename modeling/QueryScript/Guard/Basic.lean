import QueryScript.Catalog.Builtin
import QueryScript.Definition.CteNames
import QueryScript.Settings.Basic
import QueryScript.TableReference

/-!
# The guard

The security rules of a deployment, ready to be applied: policies for tables, actions and
executors, friendly names of tables, and the catalog of dangerous SQL.  Each check either lets
something pass or says why not; `checkTable` also gives the reference to hand on, in which a
friendly name is replaced by the actual one.
-/

namespace QueryScript

/-- Security rules ready to be applied. -/
structure Guard where
  tables : Policy
  actions : Policy
  executors : Policy
  /-- Friendly names in small letters with the actual ones. -/
  tableAliases : List (String × String)
  catalog : Catalog
deriving DecidableEq, Repr

namespace Guard

/-- A friendly name with its actual one, which must be a table without an alias. -/
def readAlias (friendly actual : String) : Except Error (String × String) :=
  match TableReference.parse actual with
  | .error e => .error (.config ("table alias '" ++ friendly ++ "': " ++ e.message))
  | .ok target =>
    if target.tableAlias.isSome then
      .error (.config ("table alias '" ++ friendly ++ "' must map to a bare table name, got '" ++
        actual ++ "'"))
    else .ok (Text.lower friendly, target.name)

/-- The guard for security settings.  Of friendly names that differ only in case, the last
counts. -/
def ofSettings (s : SecuritySettings) : Except Error Guard := do
  let aliases ← s.tableAliases.mapM fun (friendly, actual) => readAlias friendly actual
  let catalog ←
    if s.replaceDefaultPatterns then Catalog.ofSettings s.rawPatterns
    else Catalog.withExtra s.rawPatterns
  let tables ← Policy.ofSettings s.tables
  let actions ← Policy.ofSettings s.actions
  let executors ← Policy.ofSettings s.executors
  return ⟨tables, actions, executors, aliases.reverse, catalog⟩

/-- The actual name of a table, if the name is a friendly one. -/
def actualName? (guard : Guard) (name : String) : Option String :=
  guard.tableAliases.lookup (Text.lower name)

/-- The reference to hand on for a table reference.  A common table expression passes as it
is, a friendly name is replaced, and any other name must be permitted. -/
def checkTable (guard : Guard) (ctes : CteNames) (reference : String) : Except Error String := do
  let t ← TableReference.parse reference
  if ctes.contains t.name then return t.withName t.name
  match guard.actualName? t.name with
  | some actual => return t.withName actual
  | none =>
    match guard.tables.refusal? t.name with
    | some reason => throw (.table reference reason)
    | none => return t.withName t.name

/-- Whether the action policy permits an action.  An allow list may name the action or its
base, a block list covers the action through either. -/
def permitsAction (guard : Guard) (name : String) : Bool :=
  let base := (Action.normalize name).base
  match guard.actions.mode with
  | .none => true
  | .allow => guard.actions.permits name || guard.actions.permits base
  | .block => guard.actions.permits name && guard.actions.permits base

/-- Refuses an action that the policy does not permit. -/
def checkAction (guard : Guard) (name : String) : Except Error Unit :=
  if guard.permitsAction name then .ok () else .error (.actionDenied name)

/-- Refuses an executor that the policy does not permit. -/
def checkExecutor (guard : Guard) (name : String) : Except Error Unit :=
  if guard.executors.permits name then .ok () else .error (.executorDenied name)

/-- Refuses SQL text that a catalog rule matches. -/
def checkSql (guard : Guard) (sql : String) : Except Error Unit :=
  guard.catalog.check sql

end Guard

end QueryScript
