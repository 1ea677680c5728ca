import QueryScript.Number.Binary64
import QueryScript.Number.Word
import QueryScript.Text.Ascii

/-!
# JSON values

Values keep what an answer can show: an integer and a double are different numbers even when
they are numerically equal, and the entries of an object keep their order.  `Entries.insert`
fixes the order rule: the first occurrence of a key fixes its position, and writing it again
changes only the value.  `Json.same` is equality of values: the order of an object's entries
does not count, the kind of a number does.
-/

namespace QueryScript

/-- A JSON number: an integer of 64 bits, signed or not, or a double. -/
inductive Number where
  | int (value : Int)
  | double (value : Binary64)
deriving DecidableEq, Repr

namespace Number

/-- The number as a natural number, if it is a non-negative integer. -/
def natural? : Number → Option Nat
  | .int (.ofNat n) => some n
  | _ => none

/-- The number as an integer, if it is one of signed 64 bits. -/
def signed? : Number → Option Int
  | .int i => if i < Word.signedLimit then some i else none
  | .double _ => none

/-- The nearest double. -/
def toDouble : Number → Binary64
  | .int i => .ofInt i
  | .double x => x

/-- Equality of numbers of one kind: integers by value, doubles numerically. -/
def same : Number → Number → Bool
  | .int i, .int j => i == j
  | .double x, .double y => x.eq y
  | _, _ => false

end Number

/-- A JSON value. -/
inductive Json where
  | null
  | bool (value : Bool)
  | num (value : Number)
  | str (value : String)
  | arr (items : List Json)
  | obj (entries : List (String × Json))
deriving Repr, Inhabited

/-- The entries of an object, in order. -/
abbrev Entries := List (String × Json)

namespace Entries

/-- The value under a key. -/
def get? : Entries → String → Option Json
  | [], _ => none
  | (k, v) :: rest, key => if k = key then some v else get? rest key

/-- Whether a key is present. -/
def has (es : Entries) (key : String) : Bool :=
  (es.get? key).isSome

/-- The entries with the key's value set: in place if the key is present, else at the end. -/
def insert : Entries → String → Json → Entries
  | [], key, value => [(key, value)]
  | (k, v) :: rest, key, value =>
    if k = key then (k, value) :: rest else (k, v) :: insert rest key value

/-- The keys in order. -/
def keys (es : Entries) : List String :=
  es.map (·.1)

/-- Entries from a list of pairs, later values overwriting earlier ones in place. -/
def ofPairs (pairs : List (String × Json)) : Entries :=
  pairs.foldl (fun es (k, v) => Entries.insert es k v) []

end Entries

namespace Json

/-- An integer as a value. -/
def int (i : Int) : Json := .num (.int i)

/-- A natural number as a value. -/
def nat (n : Nat) : Json := .num (.int n)

/-- The text of a string value. -/
def string? : Json → Option String
  | .str s => some s
  | _ => none

/-- The items of an array. -/
def array? : Json → Option (List Json)
  | .arr xs => some xs
  | _ => none

/-- The entries of an object. -/
def entries? : Json → Option Entries
  | .obj es => some es
  | _ => none

/-- The number of a numeric value. -/
def number? : Json → Option Number
  | .num n => some n
  | _ => none

/-- The value under a key, if this is an object that has the key. -/
def field? : Json → String → Option Json
  | .obj es, key => Entries.get? es key
  | _, _ => none

/-- Whether the value is an object. -/
def isObject : Json → Bool
  | .obj _ => true
  | _ => false

/-- Whether the value is an array. -/
def isArray : Json → Bool
  | .arr _ => true
  | _ => false

/-- The name of the value's kind, as messages show it. -/
def kindName : Json → String
  | .null => "null"
  | .bool _ => "boolean"
  | .num _ => "number"
  | .str _ => "string"
  | .arr _ => "array"
  | .obj _ => "object"

/-- Strings, numbers and booleans. -/
def isScalar : Json → Bool
  | .str _ => true
  | .num _ => true
  | .bool _ => true
  | _ => false

/-- `null`, the empty string, the empty array and the empty object. -/
def isEmpty : Json → Bool
  | .null => true
  | .str s => s.isEmpty
  | .arr xs => xs.isEmpty
  | .obj es => es.isEmpty
  | .num _ => false
  | .bool _ => false

mutual

/-- Equality of values.  Objects are equal when they have the same keys with equal values. -/
def same : Json → Json → Bool
  | .null, .null => true
  | .bool a, .bool b => a == b
  | .num a, .num b => a.same b
  | .str a, .str b => a == b
  | .arr xs, .arr ys => sameItems xs ys
  | .obj es, .obj fs => es.length == fs.length && sameEntries es fs
  | _, _ => false

/-- Equality item by item. -/
def sameItems : List Json → List Json → Bool
  | [], [] => true
  | x :: xs, y :: ys => same x y && sameItems xs ys
  | _, _ => false

/-- Whether every entry on the left has an equal one on the right. -/
def sameEntries : List (String × Json) → List (String × Json) → Bool
  | [], _ => true
  | (k, x) :: rest, other =>
    (match Entries.get? other k with
      | some y => same x y
      | none => false) && sameEntries rest other

end

end Json

end QueryScript
