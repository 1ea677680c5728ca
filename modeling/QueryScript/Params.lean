import QueryScript.Error
import QueryScript.Json.Marker
import QueryScript.Json.Printer
import QueryScript.Text.Classes

/-!
# Parameters

The caller's parameters are a map from names to values.  A definition refers to them in two
ways: a marker object stands for the whole value, and `$name$` inside a string is replaced by
the text of a scalar.  `Json.resolve` replaces both in one pass; what it puts in is never read
again.
-/

namespace QueryScript

/-- The caller's parameters. -/
structure Params where
  entries : Entries
deriving Repr, Inhabited

namespace Params

/-- No parameters. -/
def empty : Params := ⟨[]⟩

/-- The parameters that a value gives: an object, or `null` for none. -/
def ofJson : Json → Except Error Params
  | .obj es => .ok ⟨es⟩
  | .null => .ok empty
  | v => .error (.definition ("params must be an object, got " ++ v.kindName))

/-- The value of a parameter. -/
def get? (params : Params) (name : String) : Option Json :=
  Entries.get? params.entries name

/-- Whether a parameter is given. -/
def has (params : Params) (name : String) : Bool :=
  Entries.has params.entries name

/-- The parameters with one set. -/
def insert (params : Params) (name : String) (value : Json) : Params :=
  ⟨Entries.insert params.entries name value⟩

/-- The number of parameters. -/
def size (params : Params) : Nat :=
  params.entries.length

/-- The text that `$name$` is replaced by; absent parameters and those that are not scalars
give none. -/
def text? (params : Params) (name : String) : Option String :=
  (params.get? name).bind Json.scalarText?

end Params

namespace Template

/-- The first character of a name. -/
def startsName (c : Char) : Bool :=
  c.isAlpha || c == '_'

/-- A possible `$name$` being read: `none` outside of one, otherwise the name so far, last
character first. -/
abbrev Pending := Option (List Char)

/-- The text of a pending name as it was written. -/
def Pending.written : Pending → List Char
  | none => []
  | some taken => '$' :: taken.reverse

/-- The text with every `$name$` replaced for which `lookup` gives a text.  Names are found
from left to right; one that is not replaced stays as written, and reading goes on after its
closing `$`. -/
def fill (lookup : String → Option String) : Pending → List Char → List Char
  | pending, [] => pending.written
  | none, c :: cs => if c = '$' then fill lookup (some []) cs else c :: fill lookup none cs
  | some [], c :: cs =>
    if c = '$' then '$' :: fill lookup (some []) cs
    else if startsName c then fill lookup (some [c]) cs
    else '$' :: c :: fill lookup none cs
  | some (t :: ts), c :: cs =>
    if c = '$' then
      let name := String.ofList (t :: ts).reverse
      let replacement := match lookup name with
        | some s => s.toList
        | none => Pending.written (some (t :: ts)) ++ ['$']
      replacement ++ fill lookup none cs
    else if Text.isWord c then fill lookup (some (c :: t :: ts)) cs
    else Pending.written (some (t :: ts)) ++ c :: fill lookup none cs

end Template

namespace Json

/-- A text with its templates filled in. -/
def fillText (params : Params) (s : String) : String :=
  String.ofList (Template.fill params.text? none s.toList)

mutual

/-- The value with every parameter marker replaced by the parameter's value, `null` if it is
absent, and every template filled in.  Keys stay as they are. -/
def resolve (params : Params) : Json → Json
  | .str s => .str (fillText params s)
  | .arr xs => .arr (resolveItems params xs)
  | .obj es =>
    match paramName? (.obj es) with
    | some name => (params.get? name).getD .null
    | none => .obj (resolveEntries params es)
  | v => v

/-- The items resolved one by one. -/
def resolveItems (params : Params) : List Json → List Json
  | [] => []
  | x :: rest => resolve params x :: resolveItems params rest

/-- The entries with their values resolved. -/
def resolveEntries (params : Params) : List (String × Json) → List (String × Json)
  | [] => []
  | (k, v) :: rest => (k, resolve params v) :: resolveEntries params rest

end

end Json

end QueryScript
