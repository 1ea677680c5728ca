import QueryScript.Text.Classes
import QueryScript.Text.Unprintable

/-!
# Values in log lines

Texts stand in quotes with escapes for what could not be seen, and optional values say whether
they are there.
-/

namespace QueryScript.Text.Debug

/-- Whether a character shows as itself. -/
def isPrintable (c : Char) : Bool :=
  32 ≤ c.toNat && !inRanges unprintableRanges c.toNat

/-- A character inside quotes: a short escape, itself, or its code point. -/
def escapeChar (c : Char) : List Char :=
  if c = '"' then ['\\', '"']
  else if c = '\\' then ['\\', '\\']
  else if c = '\n' then ['\\', 'n']
  else if c = '\r' then ['\\', 'r']
  else if c = '\t' then ['\\', 't']
  else if c = '\x00' then ['\\', '0']
  else if isPrintable c then [c]
  else ['\\', 'u', '{'] ++ Nat.toDigits 16 c.toNat ++ ['}']

/-- A text in quotes. -/
def quote (s : String) : String :=
  String.ofList ('"' :: (s.toList.flatMap escapeChar ++ ['"']))

/-- An optional value. -/
def optional {α : Type} (show_ : α → String) : Option α → String
  | some a => "Some(" ++ show_ a ++ ")"
  | none => "None"

end QueryScript.Text.Debug
