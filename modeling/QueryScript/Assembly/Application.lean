import QueryScript.Condition.Basic
import QueryScript.Definition.JoinConditions
import QueryScript.Guard.Basic
import QueryScript.Recorder.Basic

/-!
# Applying an action

Applying an action makes one call on the query builder.  Whatever the call is given comes from
the action's value with parameters filled in, and is judged by the guard before it is handed
on; nested queries come from the value as it is written.
-/

namespace QueryScript

/-- What all actions of one query share. -/
structure Scope where
  guard : Guard
  params : Params
  /-- The names of common table expressions in the whole definition. -/
  ctes : CteNames

namespace Scope

/-- Positional arguments as they are handed to the builder. -/
def arguments (scope : Scope) (args : List Json) : Except Error (List Argument) :=
  Argument.resolveAll scope.guard.checkSql args

/-- The table reference that the first argument gives. -/
def table (scope : Scope) : List Json → Except Error String
  | .str reference :: _ => scope.guard.checkTable scope.ctes reference
  | v :: _ => .error (.table v.compact "table name must be a string")
  | [] => .error (.table "" "missing table name")

/-- Judges the first argument as SQL, if it is a text. -/
def checkSql (scope : Scope) : List Json → Except Error Unit
  | .str sql :: _ => scope.guard.checkSql sql
  | _ => .ok ()

/-- The arguments of an action whose first argument is SQL. -/
def sqlArguments (scope : Scope) (args : List Json) : Except Error (List Argument) := do
  scope.checkSql args
  scope.arguments args

/-- A condition of a join as it is handed to the builder. -/
def condition (scope : Scope) (c : WrittenCondition) : Except Error JoinCondition := do
  let args ← scope.arguments (c.args.map (Json.resolve scope.params))
  return ⟨c.method, args⟩

end Scope

/-- An action with what it needs to be applied. -/
structure Application where
  /-- The action's name, which is the method to call. -/
  method : String
  route : Route
  /-- The entries of the step. -/
  entries : Entries
  /-- The action's value as it is written. -/
  written : Json
  /-- The action's value with parameters filled in. -/
  resolved : Json
  /-- The positional arguments in the resolved value. -/
  args : List Json
  /-- The nested definitions, ready to be built. -/
  nested : List (Slot × Build Bool)

namespace Application

/-- The query in a slot; what it limits are its own rows. -/
def inSlot (a : Application) (slot : Slot) : Option (Build Unit) :=
  (a.nested.lookup slot).map discard

/-- The name and the query of an action that needs a nested query. -/
def target (a : Application) : SubqueryTarget :=
  .of a.entries a.method a.written

/-- The nested query. -/
def query? (a : Application) : Option (Build Unit) :=
  a.target.query.bind fun (slot, _) => a.inSlot slot

/-- The group of clauses of a filter: the step's own, and failing that the value's. -/
def group? (a : Application) : Option (Build Unit) :=
  match Entries.get? a.entries "clauses" with
  | some _ => a.inSlot .clauses
  | none => a.inSlot (.valueClauses a.method)

/-- The nested query that a filter compares with, which only the step itself can carry. -/
def operandQuery? (a : Application) : Option (Build Unit) :=
  match Entries.get? a.entries "query" with
  | some (.arr _) => a.inSlot .query
  | _ => none

/-- The conditions of a join: the step's own, and failing that the value's. -/
def conditions (a : Application) (scope : Scope) : Except Error (List JoinCondition) :=
  match Entries.get? a.entries "on" <|> a.written.field? "on" with
  | none => .ok []
  | some on => do
    let written ← WrittenCondition.ofJson on
    written.mapM scope.condition

/-- The nested query, or the failure for the lack of one. -/
def requireQuery (a : Application) (family : SubqueryFamily) : Except Error (Build Unit) :=
  match a.query? with
  | some query => .ok query
  | none => .error (.subquery family "requires a query")

/-- The name and the nested query, or the failure for the lack of one. -/
def requireNamed (a : Application) (family : SubqueryFamily) (what : String) :
    Except Error (String × Build Unit) :=
  match a.target.name, a.query? with
  | some name, some query => .ok (name, query)
  | _, _ => .error (.subquery family ("requires " ++ what ++ " and a query"))

/-- The alias of a joined query and the arguments after it.  A list gives the alias first; an
object gives the two columns to compare by name. -/
def joinedAs (a : Application) : Option String × List Json :=
  match a.resolved with
  | .obj es => (a.target.name, ["first", "operator", "second"].filterMap (Entries.get? es))
  | .arr (.str name :: extra) => (some name, extra)
  | _ => (a.target.name, [])

/-- Joins a table or raw SQL. -/
def applyJoin (a : Application) (scope : Scope) : Build Unit := do
  let args ←
    if a.route = .join then do
      let reference ← Build.lift (scope.table a.args)
      pure (.str reference :: a.args.drop 1)
    else do
      Build.lift (scope.checkSql a.args)
      pure a.args
  let conditions ← Build.lift (a.conditions scope)
  let args ← Build.lift (scope.arguments args)
  Build.join a.method args conditions

/-- Joins a nested query. -/
def applyJoinQuery (a : Application) (scope : Scope) : Build Unit := do
  let (name?, extra) := a.joinedAs
  match name?, a.query? with
  | some name, some query => do
    let conditions ← Build.lift (a.conditions scope)
    let args ← Build.lift (scope.arguments extra)
    Build.joinQuery a.method name query args conditions
  | _, _ => throw (.subquery .joinSub "requires an alias and a query")

/-- Filters rows or groups: by a group of clauses, by a nested query, or by one clause. -/
def applyFilter (a : Application) (scope : Scope) : Build Unit := do
  match a.group? with
  | some group => Build.group a.method group
  | none =>
    let args ← Build.lift (scope.arguments a.args)
    match a.route, a.operandQuery? with
    | .whereClause, some query => Build.whereQuery a.method args query
    | _, _ => Build.call a.method args

/-- Makes the action's call. -/
def apply (a : Application) (scope : Scope) : Build Unit :=
  match a.route with
  | .fromTable => do
    let reference ← Build.lift (scope.table a.args)
    Build.fromTable a.method reference
  | .fromRaw | .selectRaw | .whereRaw | .havingRaw | .orderByRaw => do
    let args ← Build.lift (scope.sqlArguments a.args)
    Build.call a.method args
  | .fromSub => do
    let (name, query) ← Build.lift (a.requireNamed .fromSub "an alias")
    Build.fromQuery a.method name query
  | .subSelect => do
    let (name, query) ← Build.lift (a.requireNamed .subSelect "an alias")
    Build.fromQuery a.method name query
  | .select | .groupBy | .lock | .orderBy => do
    let args ← Build.lift (scope.arguments a.args)
    Build.call a.method args
  | .join | .joinRaw => a.applyJoin scope
  | .joinSub => a.applyJoinQuery scope
  | .whereClause | .having => a.applyFilter scope
  | .whereExists => do
    let query ← Build.lift (a.requireQuery .whereExists)
    Build.group a.method query
  | .clearOrders => Build.call a.method []
  | .limit | .offset | .forPage => do
    let args ← Build.lift (scope.arguments a.args)
    Build.limit a.method args
  | .union => do
    let query ← Build.lift (a.requireQuery .union)
    Build.group a.method query
  | .withQuery => do
    let (name, query) ← Build.lift (a.requireNamed .cte "a name")
    Build.withQuery a.method name query

end Application

end QueryScript
