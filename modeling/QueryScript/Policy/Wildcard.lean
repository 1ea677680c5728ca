import QueryScript.Error
import QueryScript.Text.CaseFold
import QueryScript.Text.Split

/-!
# Wildcards

An entry of a policy list names one thing or, with `*`, many: a star stands for any characters
but a dot, so it stays within one segment of a dotted name.  Every other character stands for
itself up to case.  An entry with a star is compared by Unicode case, one without by the case
of ASCII letters only.
-/

namespace QueryScript

/-- An entry of a policy list, without surrounding white space. -/
structure Wildcard where
  text : String
deriving DecidableEq, Repr

namespace Wildcard

/-- The entry that a text writes; a blank text is none. -/
def ofText (s : String) : Except Error Wildcard :=
  let text := Text.trim s
  if text = "" then .error (.config "empty policy pattern") else .ok ⟨text⟩

/-- Whether `rest` accepts what is left after skipping some characters other than a dot. -/
def skipSegment (rest : List Char → Bool) : List Char → Bool
  | [] => rest []
  | c :: cs => rest (c :: cs) || (c != '.' && skipSegment rest cs)

/-- Whether a name has the form of a starred entry. -/
def fits : List Char → List Char → Bool
  | [], name => name.isEmpty
  | p :: ps, name =>
    if p = '*' then skipSegment (fits ps) name
    else
      match name with
      | [] => false
      | c :: cs => Text.fold p == Text.fold c && fits ps cs

/-- Whether the entry covers a name. -/
def covers (w : Wildcard) (name : String) : Bool :=
  if w.text.toList.contains '*' then fits w.text.toList name.toList
  else Text.eqIgnoreCase name w.text

end Wildcard

end QueryScript
