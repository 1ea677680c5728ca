/-!
# ASCII case and word characters

Names of actions, tables and policies are compared without regard to the case of
ASCII letters; every other character stands for itself.  `lower` is the map that
such comparisons go through, and `eqIgnoreCase` compares two texts by it.
-/

namespace QueryScript.Text

/-- The text with every ASCII capital replaced by its small letter. -/
def lower (s : String) : String :=
  String.ofList (s.toList.map Char.toLower)

/-- The text with every ASCII small letter replaced by its capital. -/
def upper (s : String) : String :=
  String.ofList (s.toList.map Char.toUpper)

/-- Equality up to the case of ASCII letters. -/
def eqIgnoreCase (a b : String) : Bool :=
  lower a == lower b

/-- The text with its first character made a capital, if it is an ASCII letter. -/
def capitalize (s : String) : String :=
  match s.toList with
  | [] => ""
  | c :: cs => String.ofList (c.toUpper :: cs)

/-- The characters with the first one made small, if it is an ASCII letter. -/
def decapitalize : List Char → List Char
  | [] => []
  | c :: cs => c.toLower :: cs

/-- ASCII letters, ASCII digits and the underscore. -/
def isAsciiWord (c : Char) : Bool :=
  c.isAlphanum || c == '_'

/-- The value of a hexadecimal digit. -/
def hexValue? (c : Char) : Option Nat :=
  if c.isDigit then some (c.toNat - 48)
  else if 'a' ≤ c ∧ c ≤ 'f' then some (c.toNat - 87)
  else if 'A' ≤ c ∧ c ≤ 'F' then some (c.toNat - 55)
  else none

theorem toList_lower (s : String) : (lower s).toList = s.toList.map Char.toLower := by
  simp [lower]

end QueryScript.Text
