import QueryScript.Guard.Basic
import QueryScript.Recorder.Argument

/-!
# Checking a definition before it is built

The check walks every item of a definition and of all definitions nested in it.  Table names
and SQL text that are written literally are judged, and the SQL of every raw marker.  What
comes from parameters is judged when it is built.
-/

namespace QueryScript.Guard

/-- The text that an action's value gives as its first argument: a string, the first item of
an array, or the value under the argument's name. -/
def literalText? (key : String) : Json → Option String
  | .str s => some s
  | .arr xs => xs.head?.bind Json.string?
  | .obj es => (Entries.get? es key).bind Json.string?
  | _ => none

/-- Keys of nested definitions, which are walked on their own. -/
def isNestedKey (key : String) : Bool :=
  key == "query" || key == "else" || key == "clauses"

/-- The SQL of a raw marker's payload. -/
def checkPayload (guard : Guard) (payload : Json) : Except Error Unit := do
  let sql ← Argument.payloadSql payload
  guard.checkSql sql

mutual

/-- Judges every raw marker in a value. -/
def checkMarkers (guard : Guard) : Json → Except Error Unit
  | .arr xs => checkMarkersItems guard xs
  | .obj es =>
    match Entries.get? es Json.rawKey with
    | some payload => checkPayload guard payload
    | none => checkMarkersEntries guard es
  | _ => .ok ()

/-- Judges every raw marker in the items. -/
def checkMarkersItems (guard : Guard) : List Json → Except Error Unit
  | [] => .ok ()
  | x :: rest =>
    match checkMarkers guard x with
    | .error e => .error e
    | .ok _ => checkMarkersItems guard rest

/-- Judges every raw marker in the values, nested definitions left out. -/
def checkMarkersEntries (guard : Guard) : List (String × Json) → Except Error Unit
  | [] => .ok ()
  | (k, v) :: rest =>
    if isNestedKey k then checkMarkersEntries guard rest
    else
      match checkMarkers guard v with
      | .error e => .error e
      | .ok _ => checkMarkersEntries guard rest

end

/-- Judges the raw markers in one condition of a join. -/
def checkCondition (guard : Guard) : Json → Except Error Unit
  | .obj es => checkMarkersEntries guard es
  | _ => .ok ()

/-- The conditions in the value of a join. -/
def conditionsIn : Json → List Json
  | .obj es =>
    match Entries.get? es "on" with
    | some (.arr xs) => xs
    | some (.obj on) => [.obj on]
    | _ => []
  | _ => []

/-- Judges what is written literally in the value of one key. -/
def checkEntry (guard : Guard) (ctes : CteNames) (key : String) (value : Json) :
    Except Error Unit :=
  if Action.isReserved key then .ok ()
  else
    match Action.route? key with
    | none => .ok ()
    | some route => do
      if route.takesTable then
        if let some table := literalText? "table" value then
          discard (guard.checkTable ctes table)
      if route.isRaw then
        if let some sql := literalText? "sql" value then
          guard.checkSql sql
      if route = .join then
        (conditionsIn value).forM (checkCondition guard)

mutual

/-- Judges an item and the definitions nested in it. -/
def checkItem (guard : Guard) (ctes : CteNames) : Item → Except Error Unit
  | .stray _ => .ok ()
  | .step es nested => do
    es.forM fun (k, v) => checkEntry guard ctes k v
    checkMarkersEntries guard es
    checkNested guard ctes nested

/-- Judges the items in order. -/
def checkItems (guard : Guard) (ctes : CteNames) : List Item → Except Error Unit
  | [] => .ok ()
  | i :: rest => do
    checkItem guard ctes i
    checkItems guard ctes rest

/-- Judges nested definitions in order. -/
def checkNested (guard : Guard) (ctes : CteNames) : List (Slot × List Item) → Except Error Unit
  | [] => .ok ()
  | (_, items) :: rest => do
    checkItems guard ctes items
    checkNested guard ctes rest

end

/-- Judges a whole definition; a failure is a violation. -/
def checkDefinition (guard : Guard) (definition : Definition) : Except Error Unit :=
  match checkItems guard (CteNames.collect definition) definition with
  | .ok _ => .ok ()
  | .error e => .error e.asViolation

/-- Judges the definition that a value writes. -/
def validate (guard : Guard) (value : Json) : Except Error Unit := do
  let definition ← Definition.ofJson value
  guard.checkDefinition definition

end QueryScript.Guard
