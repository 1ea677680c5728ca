import QueryScript.Error
import QueryScript.Json.Basic
import QueryScript.Vocabulary.Action
import QueryScript.Vocabulary.Executor

/-!
# Definitions

A definition is a list of items.  An item that is an object is a step: its first key that
names an action or an executor says what it does.  Definitions nest: a step carries others
under `query`, `else` and `clauses`, and in the values of its actions.

`Item.ofJson` reads a value into a tree in which every nested definition of a step is found
once, under the `Slot` where it hangs.  The check of a definition walks all slots; building it
takes nested definitions from the same slots, so it cannot reach one that was not checked.
-/

namespace QueryScript

/-- The items that a value writes where a definition is expected: those of an array, or an
object as the only one. -/
def Json.items? : Json → Option (List Json)
  | .arr xs => some xs
  | .obj es => some [.obj es]
  | _ => none

/-- Where a nested definition hangs on its step. -/
inductive Slot where
  /-- Under the step's own key `query`. -/
  | query
  /-- Under the step's own key `else`. -/
  | otherwise
  /-- Under the step's own key `clauses`. -/
  | clauses
  /-- Under `query` in the value of an action that needs a nested query. -/
  | valueQuery (action : String)
  /-- Under `clauses` in the value of an action that accepts a group of clauses. -/
  | valueClauses (action : String)
  /-- The value of an action that needs a nested query, if it is a list of objects. -/
  | valueItems (action : String)
deriving DecidableEq, Repr

/-- The slot of a step's own key. -/
def Slot.ofKey? : String → Option Slot
  | "query" => some .query
  | "else" => some .otherwise
  | "clauses" => some .clauses
  | _ => none

/-- An item of a definition. -/
inductive Item where
  /-- A value that is no object; it does nothing. -/
  | stray (value : Json)
  /-- An object with its nested definitions. -/
  | step (entries : List (String × Json)) (nested : List (Slot × List Item))

/-- The items of a definition. -/
abbrev Definition := List Item

namespace Item

/-- The value that the item was read from. -/
def toJson : Item → Json
  | .stray v => v
  | .step es _ => .obj es

/-- The nested definitions in the order in which they are checked: those under the step's own
keys first, then those in the values of its actions. -/
def arrange (found : List (Slot × List Item)) : List (Slot × List Item) :=
  let own := [Slot.query, .otherwise, .clauses]
  own.flatMap (fun s => found.filter (·.1 = s)) ++ found.filter (fun f => !own.contains f.1)

mutual

/-- The item that a value writes. -/
def ofJson : Json → Item
  | .obj es => .step es (arrange (nestedIn es))
  | v => .stray v

/-- The items that a list of values writes. -/
def ofItems : List Json → List Item
  | [] => []
  | x :: rest => ofJson x :: ofItems rest

/-- The nested definitions of a step, in the order of its keys. -/
def nestedIn : List (String × Json) → List (Slot × List Item)
  | [] => []
  | (key, .arr xs) :: rest =>
    match Slot.ofKey? key with
    | some slot => (slot, ofItems xs) :: nestedIn rest
    | none =>
      if Action.isReserved key then nestedIn rest
      else
        match Action.route? key with
        | some route =>
          if route.needsSubquery && xs.all Json.isObject then
            (.valueItems key, ofItems xs) :: nestedIn rest
          else nestedIn rest
        | none => nestedIn rest
  | (key, .obj es) :: rest =>
    match Slot.ofKey? key with
    | some slot => (slot, [.step es (arrange (nestedIn es))]) :: nestedIn rest
    | none =>
      if Action.isReserved key then nestedIn rest
      else
        match Action.route? key with
        | some route =>
          if route.needsSubquery then
            match arrayUnder "query" es with
            | some items => (.valueQuery key, items) :: nestedIn rest
            | none => nestedIn rest
          else if route.acceptsClauses then
            match definitionUnder "clauses" es with
            | some items => (.valueClauses key, items) :: nestedIn rest
            | none => nestedIn rest
          else nestedIn rest
        | none => nestedIn rest
  | _ :: rest => nestedIn rest

/-- The items in the array under a key. -/
def arrayUnder (key : String) : List (String × Json) → Option (List Item)
  | [] => none
  | (k, .arr xs) :: rest => if k = key then some (ofItems xs) else arrayUnder key rest
  | (k, _) :: rest => if k = key then none else arrayUnder key rest

/-- The definition under a key: the items of an array, or an object as the only item. -/
def definitionUnder (key : String) : List (String × Json) → Option (List Item)
  | [] => none
  | (k, .arr xs) :: rest => if k = key then some (ofItems xs) else definitionUnder key rest
  | (k, .obj es) :: rest =>
    if k = key then some [.step es (arrange (nestedIn es))] else definitionUnder key rest
  | (k, _) :: rest => if k = key then none else definitionUnder key rest

end

end Item

/-- The definition that a value writes: a list of items. -/
def Definition.ofJson : Json → Except Error Definition
  | .arr xs => .ok (Item.ofItems xs)
  | v => .error (.definition ("expected an array of actions, got " ++ v.kindName))

/-- What a step does, by the key that says so. -/
inductive Head where
  | action (key : String)
  | executor (key : String)
deriving DecidableEq, Repr

namespace Head

/-- What a key says, unless it is reserved or unknown. -/
def ofKey? (key : String) : Option Head :=
  if Action.isReserved key then none
  else if Action.isRegistered key then some (.action key)
  else if (Executor.ofName? key).isSome then some (.executor key)
  else none

/-- What a step does: its first key that says something. -/
def ofEntries? (es : Entries) : Option Head :=
  es.findSome? fun (k, _) => ofKey? k

/-- The key. -/
def key : Head → String
  | .action key => key
  | .executor key => key

end Head

/-- The name and the query of an action that needs a nested query. -/
structure SubqueryTarget where
  name : Option String
  /-- The slot that holds the query, and the query as it is written. -/
  query : Option (Slot × List Json)

namespace SubqueryTarget

/-- The name in an action's value: a string, or the `alias` or else the `name` of an object. -/
def nameIn? : Json → Option String
  | .str s => some s
  | .obj es => ((Entries.get? es "alias") <|> (Entries.get? es "name")).bind Json.string?
  | _ => none

/-- The query in an action's value: the `query` of an object, or a list of objects. -/
def queryIn? (key : String) : Json → Option (Slot × List Json)
  | .obj es => ((Entries.get? es "query").bind Json.array?).map fun xs => (.valueQuery key, xs)
  | .arr xs => if xs.all Json.isObject && !xs.isEmpty then some (.valueItems key, xs) else none
  | _ => none

/-- The target of a step's action.  A name in the value goes before the step's `alias`, the
step's own `query` before one in the value. -/
def of (es : Entries) (key : String) (value : Json) : SubqueryTarget where
  name := nameIn? value <|> (Entries.get? es "alias").bind Json.string?
  query :=
    match (Entries.get? es "query").bind Json.array? with
    | some xs => some (.query, xs)
    | none => queryIn? key value

end SubqueryTarget

end QueryScript
