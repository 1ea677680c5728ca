import QueryScript.Definition.Basic

/-!
# Names of common table expressions

A definition may name nested queries and then take rows from them as from tables.  The names
are gathered from the whole tree before anything is checked, so that a name may be used before
it is declared; they are compared without regard to the case of ASCII letters.
-/

namespace QueryScript

/-- Names of common table expressions, in small letters, each once. -/
structure CteNames where
  names : List String
deriving DecidableEq, Repr

namespace CteNames

/-- No names. -/
def empty : CteNames := ⟨[]⟩

/-- The names with one more. -/
def insert (ctes : CteNames) (name : String) : CteNames :=
  let small := Text.lower name
  if ctes.names.contains small then ctes else ⟨ctes.names ++ [small]⟩

/-- Whether a name is among them. -/
def contains (ctes : CteNames) (name : String) : Bool :=
  ctes.names.contains (Text.lower name)

/-- The names with all of a list. -/
def insertAll (ctes : CteNames) (names : List String) : CteNames :=
  names.foldl insert ctes

/-- The name that a step declares, if it declares one. -/
def declared? (es : Entries) : Option String :=
  match Head.ofEntries? es with
  | some (.action key) =>
    if Action.route? key = some .withQuery then
      (SubqueryTarget.of es key ((Entries.get? es key).getD .null)).name
    else none
  | _ => none

mutual

/-- The names declared by an item and by the definitions nested in it. -/
def inItem : Item → List String
  | .stray _ => []
  | .step es nested => (declared? es).toList ++ inNested nested

/-- The names declared in the items. -/
def inItems : List Item → List String
  | [] => []
  | i :: rest => inItem i ++ inItems rest

/-- The names declared in nested definitions. -/
def inNested : List (Slot × List Item) → List String
  | [] => []
  | (_, items) :: rest => inItems items ++ inNested rest

end

/-- The names declared anywhere in a definition. -/
def collect (definition : Definition) : CteNames :=
  empty.insertAll (inItems definition)

end CteNames

end QueryScript
