import QueryScript.Json.Basic
import QueryScript.Number.Shortest
import QueryScript.Text.Split

/-!
# JSON text

`Json.compact` writes a value without blanks; `Json.pretty` writes one entry a line, indented
by two blanks.  Doubles are written with the fewest digits that read back, laid out by
`Json.doubleLayout`; strings escape the quote, the backslash and the control characters and
nothing else.
-/

namespace QueryScript

/-- How a decimal is laid out as text. -/
structure DecimalLayout where
  /-- The least exponent of the leading digit that is written positionally. -/
  positionalFrom : Int
  /-- The largest exponent of the leading digit that is written positionally. -/
  positionalTo : Int
deriving DecidableEq, Repr

namespace DecimalLayout

/-- Digits with a point after the first `n` of them; missing digits are zeros and a digit
stands on either side of the point. -/
def withPoint (digits : List Char) (n : Int) : List Char :=
  if n ≤ 0 then '0' :: '.' :: (List.replicate (-n).toNat '0' ++ digits)
  else
    let whole := digits.take n.toNat
    let fraction := digits.drop n.toNat
    whole ++ List.replicate (n.toNat - digits.length) '0' ++
      '.' :: (if fraction = [] then ['0'] else fraction)

/-- The text of a positive decimal: positional while the leading digit's exponent is in range,
otherwise one digit, a point if more follow, and the exponent with its sign. -/
def render (layout : DecimalLayout) (d : Decimal) : List Char :=
  let digits := Nat.toDigits 10 d.digits
  let lead := d.exponent + digits.length - 1
  if layout.positionalFrom ≤ lead ∧ lead ≤ layout.positionalTo then withPoint digits (lead + 1)
  else
    digits.take 1 ++ (if 1 < digits.length then '.' :: digits.drop 1 else []) ++
      'e' :: (if lead < 0 then '-' else '+') :: Nat.toDigits 10 lead.natAbs

end DecimalLayout

namespace Json

/-- Doubles are positional from `0.00001` up to below `10^16`. -/
def doubleLayout : DecimalLayout := ⟨-5, 15⟩

/-- The text of a double.  Only finite doubles are JSON numbers; the others read `null`. -/
def renderDouble : Binary64 → String
  | .finite negative units =>
    let body := if units = 0 then ['0', '.', '0'] else doubleLayout.render (Binary64.shortest units)
    String.ofList (if negative then '-' :: body else body)
  | _ => "null"

/-- The text of an integer. -/
def renderInt (i : Int) : String :=
  String.ofList (if i < 0 then '-' :: Nat.toDigits 10 i.natAbs else Nat.toDigits 10 i.natAbs)

/-- The text of a number. -/
def renderNumber : Number → String
  | .int i => renderInt i
  | .double x => renderDouble x

/-- A hexadecimal digit in small letters. -/
def hexDigit (n : Nat) : Char :=
  Nat.digitChar n

/-- How a character stands inside a string. -/
def escapeChar (c : Char) : List Char :=
  if c = '"' then ['\\', '"']
  else if c = '\\' then ['\\', '\\']
  else if c = '\n' then ['\\', 'n']
  else if c = '\r' then ['\\', 'r']
  else if c = '\t' then ['\\', 't']
  else if c = '\x08' then ['\\', 'b']
  else if c = '\x0c' then ['\\', 'f']
  else if c.toNat < 32 then
    ['\\', 'u', '0', '0', hexDigit (c.toNat / 16), hexDigit (c.toNat % 16)]
  else [c]

/-- The text of a string value, quotes included. -/
def quote (s : String) : String :=
  String.ofList ('"' :: (s.toList.flatMap escapeChar ++ ['"']))

mutual

/-- The value as text without blanks. -/
def compact : Json → String
  | .null => "null"
  | .bool b => if b then "true" else "false"
  | .num n => renderNumber n
  | .str s => quote s
  | .arr xs => "[" ++ compactItems xs ++ "]"
  | .obj es => "\x7b" ++ compactEntries es ++ "\x7d"

/-- The items as text, with commas between them. -/
def compactItems : List Json → String
  | [] => ""
  | [x] => compact x
  | x :: rest => compact x ++ "," ++ compactItems rest

/-- The entries as text, with commas between them. -/
def compactEntries : List (String × Json) → String
  | [] => ""
  | [(k, v)] => quote k ++ ":" ++ compact v
  | (k, v) :: rest => quote k ++ ":" ++ compact v ++ "," ++ compactEntries rest

end

/-- The start of a line at a depth of nesting. -/
def newLine (depth : Nat) : String :=
  String.ofList ('\n' :: List.replicate (2 * depth) ' ')

mutual

/-- The value as indented text, as it stands at a depth of nesting. -/
def prettyAt (depth : Nat) : Json → String
  | .arr [] => "[]"
  | .arr (x :: xs) =>
    "[" ++ newLine (depth + 1) ++ prettyAt (depth + 1) x ++ prettyItems (depth + 1) xs ++
      newLine depth ++ "]"
  | .obj [] => "\x7b\x7d"
  | .obj ((k, v) :: rest) =>
    "\x7b" ++ newLine (depth + 1) ++ quote k ++ ": " ++ prettyAt (depth + 1) v ++
      prettyEntries (depth + 1) rest ++ newLine depth ++ "\x7d"
  | .null => "null"
  | .bool b => if b then "true" else "false"
  | .num n => renderNumber n
  | .str s => quote s

/-- The items after the first, each after a comma and on a line of its own. -/
def prettyItems (depth : Nat) : List Json → String
  | [] => ""
  | x :: rest => "," ++ newLine depth ++ prettyAt depth x ++ prettyItems depth rest

/-- The entries after the first, each after a comma and on a line of its own. -/
def prettyEntries (depth : Nat) : List (String × Json) → String
  | [] => ""
  | (k, v) :: rest =>
    "," ++ newLine depth ++ quote k ++ ": " ++ prettyAt depth v ++ prettyEntries depth rest

end

/-- The value as indented text. -/
def pretty (v : Json) : String :=
  prettyAt 0 v

/-- The text of a scalar as it is spliced into other text: a string stands without quotes. -/
def scalarText? : Json → Option String
  | .str s => some s
  | .num n => some (renderNumber n)
  | .bool b => some (if b then "true" else "false")
  | _ => none

end Json

end QueryScript
