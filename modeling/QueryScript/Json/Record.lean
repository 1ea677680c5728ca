import QueryScript.Json.Basic

/-!
# Records

A record is written as an object with named fields, or as an array of its fields in order.
Names beyond those of the record mean nothing.  The readers of single fields distinguish a
field that may be left out, one that must be given, and one for which `null` stands for
nothing.

`Dialect` says where JSON and TOML, once read into the same values, still differ.
-/

namespace QueryScript

/-- What a notation allows beside the plain forms. -/
structure Dialect where
  /-- Whether an array may be longer than the record it writes. -/
  allowsLonger : Bool
  /-- Whether a value says nothing, as the value under a mere name must. -/
  isVoid : Json → Bool

namespace Dialect

/-- Records in JSON: `null` says nothing. -/
def json : Dialect where
  allowsLonger := false
  isVoid
    | .null => true
    | _ => false

/-- Records in TOML, which has no `null`: an empty array or table says nothing. -/
def toml : Dialect where
  allowsLonger := true
  isVoid v := (v.isArray || v.isObject) && v.isEmpty

/-- The fields of a record with these names. -/
def record? (d : Dialect) (names : List String) : Json → Option Entries
  | .obj es => some es
  | .arr xs => if d.allowsLonger || xs.length ≤ names.length then some (names.zip xs) else none
  | _ => none

/-- A mere name: a text, or an object whose only key is the name. -/
def name? (d : Dialect) : Json → Option String
  | .str s => some s
  | .obj [(key, v)] => if d.isVoid v then some key else none
  | _ => none

end Dialect

namespace Entries

/-- A field that must be given. -/
def required? {α : Type} (es : Entries) (key : String) (read : Json → Option α) : Option α :=
  (Entries.get? es key).bind read

/-- A field that may be left out. -/
def withDefault? {α : Type} (es : Entries) (key : String) (default : α)
    (read : Json → Option α) : Option α :=
  match Entries.get? es key with
  | some v => read v
  | none => some default

/-- A field that may be left out or `null`. -/
def nullable? {α : Type} (es : Entries) (key : String) (read : Json → Option α) :
    Option (Option α) :=
  match Entries.get? es key with
  | none => some none
  | some .null => some none
  | some v => (read v).map some

end Entries

namespace Json

/-- A boolean. -/
def bool? : Json → Option Bool
  | .bool b => some b
  | _ => none

/-- A natural number of 64 bits. -/
def natural? (v : Json) : Option Nat :=
  v.number?.bind Number.natural?

/-- A list whose items are read one by one. -/
def listOf? {α : Type} (read : Json → Option α) (v : Json) : Option (List α) :=
  v.array?.bind fun xs => xs.mapM read

/-- An absent value as `null`. -/
def orNull {α : Type} (write : α → Json) : Option α → Json
  | some a => write a
  | none => .null

end Json

end QueryScript
