import QueryScript.Text.CaseFold
import QueryScript.Text.Classes

/-!
# Classes of characters in patterns

A class is a list of parts, or everything outside them.  Patterns do not distinguish case: a
character belongs to a range when some character equal to it up to case lies in the range.
The named classes are closed under case already, and so is all that is put together from
classes by union, intersection and complement.
-/

namespace QueryScript.Pattern

/-- A named class. -/
inductive Named where
  | word
  | digit
  | space
deriving DecidableEq, Repr

/-- Whether a character belongs to a named class. -/
def Named.contains : Named → Char → Bool
  | .word, c => Text.isWord c
  | .digit, c => Text.isDecimalDigit c
  | .space, c => Text.isBlank c

/-- A part of a class. -/
inductive Part where
  | one (c : Char)
  | range (lo hi : Char)
  | named (n : Named)
  | outside (n : Named)
  | empty
  | union (a b : Part)
  | inter (a b : Part)
  | compl (a : Part)
deriving DecidableEq, Repr

namespace Part

/-- Whether a character belongs to a part, up to case. -/
def contains : Part → Char → Bool
  | .one d, c => Text.fold c == Text.fold d
  | .range lo hi, c => (Text.caseVariants c).any fun v => lo ≤ v && v ≤ hi
  | .named n, c => n.contains c
  | .outside n, c => !n.contains c
  | .empty, _ => false
  | .union a b, c => a.contains c || b.contains c
  | .inter a b, c => a.contains c && b.contains c
  | .compl a, c => !a.contains c

/-- All parts as one. -/
def unionOf (parts : List Part) : Part :=
  parts.foldr union empty

/-- What is in one part and not in the other. -/
def diff (a b : Part) : Part := .inter a (.compl b)

/-- What is in one of two parts only. -/
def symmDiff (a b : Part) : Part := .union (a.diff b) (b.diff a)

end Part

/-- A class of characters. -/
structure Class where
  negated : Bool
  parts : List Part
deriving DecidableEq, Repr

namespace Class

/-- Whether a character belongs to the class. -/
def contains (cls : Class) (c : Char) : Bool :=
  (cls.parts.any (·.contains c)) != cls.negated

/-- The class of one character, up to case. -/
def one (c : Char) : Class := ⟨false, [.one c]⟩

/-- Every character that does not end a line. -/
def notNewline : Class := ⟨true, [.one '\n']⟩

/-- The class as a part of another. -/
def toPart (cls : Class) : Part :=
  if cls.negated then .compl (.unionOf cls.parts) else .unionOf cls.parts

end Class

end QueryScript.Pattern
