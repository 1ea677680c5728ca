import QueryScript.Condition.Comparison
import QueryScript.Params

/-!
# Conditions

A condition decides whether an action is applied.  It looks at the action's arguments and at
the caller's parameters.  Reading never fails: a value that is no condition becomes
`unreadable`, which holds, so that it blocks nothing.  A comparison whose target is missing
does not hold.

The reader recurses into the values under the keys `and`, `or`, `not` and `operands`;
`operandsUnder` and `operandUnder` find the key and read what is under it in one structural
pass over the entries.
-/

namespace QueryScript

/-- What is asked of a parameter. -/
inductive ParamTest where
  | hasValue
  | notEmpty
  | isEmpty
  | compare (comparison : Comparison) (expected : Json)
deriving Repr

/-- A condition on the arguments of an action and the caller's parameters. -/
inductive Condition where
  | literal (value : Bool)
  /-- The first array among the arguments, if there is one, is not empty. -/
  | hasValues
  /-- There is an array among the arguments and the first one is empty. -/
  | isEmpty
  /-- An argument, by position from 1 or else the first array, is empty or is not. -/
  | argEmptiness (index : Option Nat) (expectEmpty : Bool)
  /-- A comparison with an argument, by position from 1. -/
  | argCompare (comparison : Comparison) (target : Option (Nat × Json))
  | param (name : String) (test : ParamTest)
  | all (operands : List Condition)
  | any (operands : List Condition)
  | not (operand : Condition)
  | unreadable
deriving Repr

namespace Condition

/-- A position counted from 1. -/
def position? (v : Json) : Option Nat :=
  (v.number?.bind Number.natural?).filter (1 ≤ ·)

/-- The argument at a position counted from 1. -/
def argAt? (args : List Json) (position : Nat) : Option Json :=
  if position = 0 then none else args[position - 1]?

/-- The first array among the arguments. -/
def firstArray? (args : List Json) : Option Json :=
  args.find? Json.isArray

/-- The text under a key, if there is one. -/
def textUnder? (es : Entries) (key : String) : Option String :=
  (Entries.get? es key).bind Json.string?

/-- The test that one entry of a parameter condition asks for. -/
def entryTest? (key : String) (value : Json) : Option ParamTest :=
  match key with
  | "hasValue" => some .hasValue
  | "notEmpty" => some .notEmpty
  | "isEmpty" => some .isEmpty
  | other => (Comparison.ofName? other).map fun c => .compare c value

/-- The test of a parameter condition: the comparison under `op` if it names one, else the
first entry that names a test, else whether the parameter has a value. -/
def paramTest (es : Entries) : ParamTest :=
  match (textUnder? es "op").bind Comparison.ofName? with
  | some c => .compare c ((Entries.get? es "value").getD .null)
  | none => (es.findSome? fun (k, v) => entryTest? k v).getD .hasValue

/-- A comparison with an argument as the entry of a comparison's name gives it. -/
def entryTarget? : Json → Option (Nat × Json)
  | .arr (index :: expected :: _) => (position? index).map fun i => (i, expected)
  | _ => none

/-- A comparison with an argument as the keys `index` and `value` give it. -/
def keyedTarget? (es : Entries) : Option (Nat × Json) :=
  match (Entries.get? es "index").bind position?, Entries.get? es "value" with
  | some i, some v => some (i, v)
  | _, _ => none

/-- The condition under `notEmpty` or `isEmpty`. -/
def emptiness (expectEmpty : Bool) : Json → Condition
  | .bool true => .argEmptiness none expectEmpty
  | .bool false => .literal true
  | v =>
    match position? v with
    | some i => .argEmptiness (some i) expectEmpty
    | none => .unreadable

/-- The condition of an object without logical keys and without `op`. -/
def plain (es : Entries) : Condition :=
  match Entries.get? es "notEmpty" with
  | some v => emptiness false v
  | none =>
    match Entries.get? es "isEmpty" with
    | some v => emptiness true v
    | none =>
      (es.findSome? fun (k, v) =>
        (Comparison.ofName? k).map fun c => .argCompare c (entryTarget? v)).getD .unreadable

/-- The condition of an object with an `op`: a logical one needs its operands. -/
def operation (op : String) (operands : Option (List Condition)) (es : Entries) : Condition :=
  match op with
  | "and" => (operands.map all).getD .unreadable
  | "or" => (operands.map any).getD .unreadable
  | "not" => ((operands.bind List.getLast?).map not).getD .unreadable
  | other =>
    match Comparison.ofName? other with
    | some c => .argCompare c (keyedTarget? es)
    | none => .unreadable

mutual

/-- The condition that a value writes. -/
def ofJson : Json → Condition
  | .bool b => .literal b
  | .str s =>
    match s with
    | "hasValues" => .hasValues
    | "notEmpty" => .hasValues
    | "isEmpty" => .isEmpty
    | "true" => .literal true
    | "false" => .literal false
    | _ => .unreadable
  | .obj es =>
    match textUnder? es "param" with
    | some name => .param name (paramTest es)
    | none =>
      match operandsUnder "and" es with
      | some operands => .all operands
      | none =>
        match operandsUnder "or" es with
        | some operands => .any operands
        | none =>
          match operandUnder "not" es with
          | some operand => .not operand
          | none =>
            match textUnder? es "op" with
            | some op => operation op (operandsUnder "operands" es) es
            | none => plain es
  | _ => .unreadable

/-- The conditions that a list of values writes. -/
def ofItems : List Json → List Condition
  | [] => []
  | x :: rest => ofJson x :: ofItems rest

/-- The conditions in the array under a key. -/
def operandsUnder (key : String) : List (String × Json) → Option (List Condition)
  | [] => none
  | (k, .arr xs) :: rest => if k = key then some (ofItems xs) else operandsUnder key rest
  | (k, _) :: rest => if k = key then none else operandsUnder key rest

/-- The condition under a key. -/
def operandUnder (key : String) : List (String × Json) → Option Condition
  | [] => none
  | (k, v) :: rest => if k = key then some (ofJson v) else operandUnder key rest

end

/-- Whether a parameter passes a test.  An absent parameter only passes as empty. -/
def passes (test : ParamTest) : Option Json → Bool
  | none =>
    match test with
    | .isEmpty => true
    | _ => false
  | some v =>
    match test with
    | .hasValue => match v with
      | .null => false
      | _ => true
    | .notEmpty => !v.isEmpty
    | .isEmpty => v.isEmpty
    | .compare c expected => c.holds v expected

mutual

/-- Whether a condition holds. -/
def holds (args : List Json) (params : Params) : Condition → Bool
  | .literal b => b
  | .hasValues =>
    match firstArray? args with
    | some v => !v.isEmpty
    | none => true
  | .isEmpty =>
    match firstArray? args with
    | some v => v.isEmpty
    | none => false
  | .argEmptiness index expectEmpty =>
    let target := match index with
      | some i => argAt? args i
      | none => firstArray? args
    match target with
    | some v => v.isEmpty == expectEmpty
    | none => !expectEmpty
  | .argCompare c target =>
    match target with
    | some (i, expected) =>
      match argAt? args i with
      | some actual => c.holds actual expected
      | none => false
    | none => false
  | .param name test => passes test (params.get? name)
  | .all operands => holdsAll args params operands
  | .any operands => holdsAny args params operands
  | .not operand => !holds args params operand
  | .unreadable => true

/-- Whether all conditions hold. -/
def holdsAll (args : List Json) (params : Params) : List Condition → Bool
  | [] => true
  | c :: rest => holds args params c && holdsAll args params rest

/-- Whether some condition holds. -/
def holdsAny (args : List Json) (params : Params) : List Condition → Bool
  | [] => false
  | c :: rest => holds args params c || holdsAny args params rest

end

/-- Whether the condition that a value writes holds. -/
def evaluate (when_ : Json) (args : List Json) (params : Params) : Bool :=
  (ofJson when_).holds args params

end Condition

end QueryScript
