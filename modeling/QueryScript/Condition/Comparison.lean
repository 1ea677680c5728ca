import QueryScript.Json.Basic
import QueryScript.Number.Numeral

/-!
# Comparing values

Six comparisons of JSON values.  Two values are compared as numbers as soon as one of them is
a number, and a text that reads as a number counts as that number; two texts are compared
character by character, two booleans with `false` first.  Values that cannot be compared are
unequal and in no order.
-/

namespace QueryScript

/-- A comparison. -/
inductive Comparison where
  | gt
  | gte
  | lt
  | lte
  | eq
  | neq
deriving DecidableEq, Repr

namespace Comparison

/-- The comparison with a name. -/
def ofName? : String → Option Comparison
  | "gt" => some .gt
  | "gte" => some .gte
  | "lt" => some .lt
  | "lte" => some .lte
  | "eq" => some .eq
  | "neq" => some .neq
  | _ => none

/-- The comparison's name. -/
def name : Comparison → String
  | .gt => "gt"
  | .gte => "gte"
  | .lt => "lt"
  | .lte => "lte"
  | .eq => "eq"
  | .neq => "neq"

theorem ofName?_name (c : Comparison) : ofName? c.name = some c := by
  cases c <;> rfl

end Comparison

namespace Json

/-- The value as a double: a number, or a text that reads as one. -/
def asDouble? : Json → Option Binary64
  | .num n => some n.toDouble
  | .str s => Numeral.double? (Text.trim s)
  | _ => none

/-- Whether the value is a number. -/
def isNumber : Json → Bool
  | .num _ => true
  | _ => false

/-- Equality as conditions see it: numeric if either side is a number, otherwise equality of
values. -/
def equals (a b : Json) : Bool :=
  if a.isNumber || b.isNumber then
    match a.asDouble?, b.asDouble? with
    | some x, some y => x.eq y
    | _, _ => false
  else a.same b

/-- The order of two texts, by code points. -/
def orderText (a b : String) : Ordering :=
  if a < b then .lt else if a = b then .eq else .gt

/-- The order of two values, if they have one. -/
def order? (a b : Json) : Option Ordering :=
  match a, b with
  | .str s, .str t => some (orderText s t)
  | .bool s, .bool t => some (compare s.toNat t.toNat)
  | _, _ =>
    match a.asDouble?, b.asDouble? with
    | some x, some y => x.order y
    | _, _ => none

end Json

/-- Whether the comparison holds between two values. -/
def Comparison.holds (c : Comparison) (left right : Json) : Bool :=
  match c with
  | .eq => left.equals right
  | .neq => !left.equals right
  | .gt => left.order? right == some .gt
  | .gte => left.order? right == some .gt || left.order? right == some .eq
  | .lt => left.order? right == some .lt
  | .lte => left.order? right == some .lt || left.order? right == some .eq

end QueryScript
