import QueryScript.Assembly.Application
import QueryScript.Vocabulary.Arguments

/-!
# Assembling a query

A definition is assembled step by step: first the steps that name common table expressions,
then all others, each group in the order in which it is written.  A step that is gated by a
condition which does not hold is replaced by its `else` definition.

The recursion runs over the items themselves: nested definitions are assembled into the slots
where they hang, and a step takes from its slots what it needs.  Assembling answers whether a
call capped the rows of this query; caps inside nested queries do not count.
-/

namespace QueryScript

/-- A step ready to be run. -/
structure Step where
  /-- Whether the step names a common table expression. -/
  declares : Bool
  /-- Runs the step and tells whether it capped the rows. -/
  run : Build Bool

namespace Step

/-- A step that does nothing. -/
def inert : Step := ⟨false, pure false⟩

/-- Runs steps in order and tells whether one of them capped the rows. -/
def runInOrder : List Step → Build Bool
  | [] => pure false
  | s :: rest => do
    let capped ← s.run
    let cappedLater ← runInOrder rest
    return capped || cappedLater

/-- Runs the steps of one definition: those that declare names first. -/
def runAll (steps : List Step) : Build Bool := do
  let capped ← runInOrder (steps.filter (·.declares))
  let cappedLater ← runInOrder (steps.filter (!·.declares))
  return capped || cappedLater

end Step

namespace Scope

/-- Whether a step's condition lets its action be applied. -/
def isEnabled (scope : Scope) (es : Entries) (args : List Json) : Bool :=
  match Entries.get? es "when" with
  | some condition => Condition.evaluate condition args scope.params
  | none => true

/-- Runs a step's action, or its `else` definition if its condition does not hold. -/
def runAction (scope : Scope) (es : Entries) (nested : List (Slot × Build Bool)) (key : String)
    (route : Route) (written : Json) : Build Bool := do
  let resolved := Json.resolve scope.params written
  let args := actionArguments (Action.normalize key).base route resolved
  if scope.isEnabled es args then
    Build.lift (scope.guard.checkAction key)
    Application.apply ⟨key, route, es, written, resolved, args, nested⟩ scope
    return route.setsLimit
  else
    (nested.lookup .otherwise).getD (pure false)

/-- The step with some entries, over its nested definitions. -/
def step (scope : Scope) (es : Entries) (nested : List (Slot × Build Bool)) : Step :=
  match Head.ofEntries? es with
  | some (.action key) =>
    match Action.route? key, Entries.get? es key with
    | some route, some written =>
      ⟨route = .withQuery, scope.runAction es nested key route written⟩
    | _, _ => .inert
  | _ => .inert

mutual

/-- The step of an item. -/
def assembleItem (scope : Scope) : Item → Step
  | .stray _ => .inert
  | .step es nested => scope.step es (assembleNested scope nested)

/-- The steps of a definition. -/
def assembleItems (scope : Scope) : List Item → List Step
  | [] => []
  | i :: rest => assembleItem scope i :: assembleItems scope rest

/-- Nested definitions, each ready to be built in its slot. -/
def assembleNested (scope : Scope) : List (Slot × List Item) → List (Slot × Build Bool)
  | [] => []
  | (slot, items) :: rest =>
    (slot, Step.runAll (assembleItems scope items)) :: assembleNested scope rest

end

/-- Builds a definition and tells whether it capped the rows. -/
def assemble (scope : Scope) (definition : Definition) : Build Bool :=
  Step.runAll (scope.assembleItems definition)

end Scope

end QueryScript
