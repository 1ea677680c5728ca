import QueryScript.Pattern.Basic

/-!
# Escapes in patterns

A backslash gives a letter a meaning, and takes it from punctuation.  `x`, `u` and `U` begin the
code point of a character in hexadecimal: two, four or eight digits, or any number in braces.
-/

namespace QueryScript.Pattern

/-- The named class of an escape letter. -/
def namedPart? : Char → Option Part
  | 'w' => some (.named .word)
  | 'd' => some (.named .digit)
  | 's' => some (.named .space)
  | 'W' => some (.outside .word)
  | 'D' => some (.outside .digit)
  | 'S' => some (.outside .space)
  | _ => none

/-- The character that an escape stands for: a control character by its letter, and any ASCII
punctuation but the angle brackets for itself. -/
def literalEscape? : Char → Option Char
  | 'n' => some '\n'
  | 't' => some '\t'
  | 'r' => some '\r'
  | 'f' => some '\x0c'
  | 'v' => some '\x0b'
  | 'a' => some '\x07'
  | c => if c.toNat < 128 && !c.isAlphanum && c != '<' && c != '>' then some c else none

/-- The condition of an escape letter. -/
def anchorEscape? : Char → Option Anchor
  | 'b' => some .wordBoundary
  | 'B' => some .noWordBoundary
  | 'A' => some .textStart
  | 'z' => some .textEnd
  | _ => none

/-- The item that an escape stands for. -/
def escapeItem? (c : Char) : Option Pattern :=
  match anchorEscape? c, namedPart? c, literalEscape? c with
  | some a, _, _ => some (.anchor a)
  | none, some part, _ => some (.set ⟨false, [part]⟩)
  | none, none, some d => some (.set (.one d))
  | none, none, none => none

/-- A code point being read. -/
inductive CodePoint where
  /-- After the letter, which asks for so many digits. -/
  | opened (digits : Nat)
  /-- So many digits are still to come. -/
  | digits (left value : Nat)
  /-- Inside braces, and the value of the digits if there are any. -/
  | braced (value : Option Nat)

namespace CodePoint

/-- The code point that an escape letter begins. -/
def ofLetter? : Char → Option CodePoint
  | 'x' => some (.opened 2)
  | 'u' => some (.opened 4)
  | 'U' => some (.opened 8)
  | _ => none

/-- The character with a code point. -/
def char? (n : Nat) : Option Char :=
  if n.isValidChar then some (Char.ofNat n) else none

/-- One more digit of a fixed number. -/
def digit (left value d : Nat) : Option (CodePoint ⊕ Char) :=
  if 1 < left then some (.inl (.digits (left - 1) (16 * value + d)))
  else (char? (16 * value + d)).map .inr

/-- The next character: more is to come, or the character is known. -/
def step (p : CodePoint) (c : Char) : Option (CodePoint ⊕ Char) :=
  match p with
  | .opened left =>
    if c = '\x7b' then some (.inl (.braced none)) else (Text.hexValue? c).bind (digit left 0)
  | .digits left value => (Text.hexValue? c).bind (digit left value)
  | .braced value =>
    if c = '\x7d' then (value.bind char?).map .inr
    else (Text.hexValue? c).map fun d => .inl (.braced (some (16 * value.getD 0 + d)))

end CodePoint

end QueryScript.Pattern
