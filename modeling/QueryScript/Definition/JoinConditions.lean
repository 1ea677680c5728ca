import QueryScript.Error
import QueryScript.Json.Marker
import QueryScript.Json.Printer

/-!
# Conditions of joins as they are written

The conditions of a join are written as one list of arguments, as a list of such lists and of
objects, or as one object:

    ["a.id", "=", "b.a_id"]
    [["a.id", "b.a_id"], {"orOn": ["a.kind", "b.kind"]}]
    {"first": "a.id", "operator": "=", "second": "b.a_id"}
-/

namespace QueryScript

/-- One condition of a join before its parameters are filled in. -/
structure WrittenCondition where
  method : String
  args : List Json
deriving Repr

namespace WrittenCondition

/-- A condition with the combinator that stands for itself. -/
def plain (args : List Json) : WrittenCondition := ⟨"on", args⟩

/-- The keys that name a condition's combinator, in the order in which they are looked up. -/
def combinators : List String := ["on", "andOn", "orOn"]

/-- The arguments under a combinator: the items of an array, or one value. -/
def argumentsIn : Json → List Json
  | .arr items => items
  | v => [v]

/-- The condition that an object writes: under a combinator, or by the two columns that it
compares. -/
def ofEntries (es : Entries) : Except Error WrittenCondition :=
  match combinators.findSome? fun key => (Entries.get? es key).map fun v => (key, v) with
  | some (key, v) => .ok ⟨key, argumentsIn v⟩
  | none =>
    match Entries.get? es "first", Entries.get? es "second" with
    | some first, some second =>
      .ok (plain ([first] ++ (Entries.get? es "operator").toList ++ [second]))
    | _, _ =>
      .error (.definition "join clause needs 'first' and 'second', or one of on/andOn/orOn")

/-- The condition that one item of a list writes. -/
def ofItem : Json → Except Error WrittenCondition
  | .arr args => .ok (plain args)
  | .obj es => ofEntries es
  | v => .error (.definition ("unrecognized join clause " ++ v.compact))

/-- Whether a value can be an argument of the only condition of a list. -/
def isOperand (v : Json) : Bool :=
  !v.isArray && (!v.isObject || v.isMarker)

/-- The conditions that a value writes. -/
def ofJson : Json → Except Error (List WrittenCondition)
  | .arr items => if items.all isOperand then .ok [plain items] else items.mapM ofItem
  | .obj es => do
    let c ← ofEntries es
    return [c]
  | v => .error (.definition ("unrecognized join 'on' value " ++ v.compact))

end WrittenCondition

end QueryScript
