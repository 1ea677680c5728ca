import QueryScript.Error
import QueryScript.Text.Split

/-!
# Table references

A reference names a table, possibly with segments separated by dots, and may give it an alias,
with or without the word `as` in any case:

    sales.orders as o

`TableReference.parse` cuts off white space at both ends and then takes the longest name, the
alias if one follows, and nothing else.
-/

namespace QueryScript

/-- The alias of a table, with the word `as` as it was written, if it was. -/
structure TableAlias where
  word : Option String
  name : String
deriving DecidableEq, Repr

/-- The alias as text, its parts separated by one blank. -/
def TableAlias.text (a : TableAlias) : String :=
  match a.word with
  | some w => w ++ " " ++ a.name
  | none => a.name

/-- A table and its alias. -/
structure TableReference where
  name : String
  tableAlias : Option TableAlias
deriving DecidableEq, Repr

namespace TableReference

/-- Characters of identifiers. -/
def isIdent (c : Char) : Bool :=
  Text.isAlphanumeric c || c == '_'

/-- The blanks that may separate the parts of a reference. -/
def isSeparator (c : Char) : Bool :=
  c == ' ' || c == '\t' || c == '\r' || c == '\n'

/-- The reference to another table under the same alias. -/
def withName (t : TableReference) (name : String) : String :=
  match t.tableAlias with
  | some a => name ++ " " ++ a.text
  | none => name

/-- The segments of a name up to the first empty one. -/
def segments (cs : List Char) : List (List Char) :=
  (Text.splitChars (· == '.') cs).takeWhile (· ≠ [])

/-- Segments with dots between them. -/
def joinSegments : List (List Char) → List Char
  | [] => []
  | [s] => s
  | s :: rest => s ++ '.' :: joinSegments rest

/-- The longest dotted name at the start of a text. -/
def dottedName (cs : List Char) : List Char :=
  joinSegments (segments (cs.takeWhile fun c => isIdent c || c == '.'))

/-- An identifier and what follows it. -/
def identifier? (cs : List Char) : Option (List Char × List Char) :=
  match cs.takeWhile isIdent with
  | [] => none
  | name => some (name, cs.dropWhile isIdent)

/-- The word `as` in any case with a separator after it, and what follows the separators. -/
def asWord? : List Char → Option (String × List Char)
  | a :: s :: c :: cs =>
    if a.toLower = 'a' ∧ s.toLower = 's' ∧ isSeparator c then
      some (String.ofList [a, s], cs.dropWhile isSeparator)
    else none
  | _ => none

/-- An alias and what follows it. -/
def alias? (cs : List Char) : Option (TableAlias × List Char) :=
  match cs with
  | [] => none
  | c :: _ =>
    if !isSeparator c then none
    else
      let body := cs.dropWhile isSeparator
      match asWord? body with
      | some (word, rest) =>
        (identifier? rest).map fun (name, tail) => (⟨some word, String.ofList name⟩, tail)
      | none => (identifier? body).map fun (name, tail) => (⟨none, String.ofList name⟩, tail)

/-- The reference that a text writes. -/
def parse (s : String) : Except Error TableReference :=
  let cs := Text.trimChars s.toList
  let name := dottedName cs
  if name = [] then .error (.table s "not a table identifier")
  else
    let afterName := cs.drop name.length
    let (tableAlias, tail) := match alias? afterName with
      | some (a, rest) => (some a, rest)
      | none => (none, afterName)
    let trailing := tail.dropWhile isSeparator
    if trailing = [] then .ok ⟨String.ofList name, tableAlias⟩
    else
      .error (.table s ("unexpected trailing content '" ++ String.ofList trailing ++ "'"))

end TableReference

end QueryScript
