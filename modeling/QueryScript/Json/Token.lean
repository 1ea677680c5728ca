import QueryScript.Json.Basic
import QueryScript.Number.Numeral
import QueryScript.Number.Scaling

/-!
# JSON tokens

Text is read one character at a time.  `Scan` is what has been read of the current token, and
`Scan.step` takes the next character, giving the new state and the tokens that are now
complete.  A string is complete at its closing quote; a number or a literal is complete when a
character follows that cannot belong to it.
-/

namespace QueryScript.Json

/-- A token: punctuation, or a value without parts. -/
inductive Token where
  | openArray
  | closeArray
  | openObject
  | closeObject
  | comma
  | colon
  | scalar (value : Json)

/-- The part of the current token read so far; characters are kept last first. -/
inductive Scan where
  /-- Between tokens. -/
  | idle
  /-- Inside a number or a literal. -/
  | bare (taken : List Char)
  /-- Inside a string. -/
  | text (taken : List Char)
  /-- After a backslash. -/
  | escape (taken : List Char)
  /-- Inside the four hexadecimal digits of an escape: how many are still to come, the value of
  those read, and the upper half of a surrogate pair if this is to be the lower one. -/
  | hex (taken : List Char) (upper : Option Nat) (missing value : Nat)
  /-- After the upper half of a surrogate pair: the lower half must follow. -/
  | pair (taken : List Char) (upper : Nat)
  /-- After the backslash that starts the lower half. -/
  | pairEscape (taken : List Char) (upper : Nat)

/-- Whether digits are written as JSON writes a whole number: no leading zero. -/
def plainDigits (ds : List Char) : Bool :=
  match ds with
  | [] => false
  | ['0'] => true
  | '0' :: _ => false
  | ds => ds.all Char.isDigit

/-- A number that is no integer of 64 bits. -/
def doubleNumber? (negative : Bool) (cs : List Char) : Option Number :=
  ((Numeral.decimal? cs).bind (Scaling.double? negative)).map .double

/-- An unsigned JSON number with the sign it stands under. -/
def unsignedNumber? (negative : Bool) (cs : List Char) : Option Number :=
  let whole := cs.takeWhile Char.isDigit
  let rest := cs.dropWhile Char.isDigit
  if !plainDigits whole then none
  else
    match rest with
    | [] =>
      let n := Numeral.ofDigits whole
      if negative then
        if n = 0 ∨ Word.signedLimit < n then doubleNumber? true cs else some (.int (-(n : Int)))
      else if n < Word.limit then some (.int n)
      else doubleNumber? false cs
    | '.' :: d :: _ => if d.isDigit then doubleNumber? negative cs else none
    | '.' :: [] => none
    | _ => doubleNumber? negative cs

/-- A JSON number. -/
def number (cs : List Char) : Option Number :=
  match cs with
  | '-' :: rest => unsignedNumber? true rest
  | cs => unsignedNumber? false cs

/-- The value of a number or a literal. -/
def bareValue? (cs : List Char) : Option Json :=
  if cs = ['n', 'u', 'l', 'l'] then some .null
  else if cs = ['t', 'r', 'u', 'e'] then some (.bool true)
  else if cs = ['f', 'a', 'l', 's', 'e'] then some (.bool false)
  else (number cs).map .num

/-- Characters of numbers and literals. -/
def isBare (c : Char) : Bool :=
  c.isAlphanum || c == '+' || c == '-' || c == '.'

namespace Scan

/-- A character between tokens. -/
def start (c : Char) : Option (Scan × List Token) :=
  if c = ' ' ∨ c = '\n' ∨ c = '\t' ∨ c = '\r' then some (.idle, [])
  else if c = '[' then some (.idle, [.openArray])
  else if c = ']' then some (.idle, [.closeArray])
  else if c = '{' then some (.idle, [.openObject])
  else if c = '}' then some (.idle, [.closeObject])
  else if c = ',' then some (.idle, [.comma])
  else if c = ':' then some (.idle, [.colon])
  else if c = '"' then some (.text [], [])
  else if isBare c then some (.bare [c], [])
  else none

/-- The character that an escape of one letter stands for. -/
def escaped? (c : Char) : Option Char :=
  if c = '"' ∨ c = '\\' ∨ c = '/' then some c
  else if c = 'b' then some '\x08'
  else if c = 'f' then some '\x0c'
  else if c = 'n' then some '\n'
  else if c = 'r' then some '\r'
  else if c = 't' then some '\t'
  else none

/-- The state after the four digits of an escape: an upper half of a surrogate pair waits for
the lower one, a lower one stands only after an upper one. -/
def afterHex (taken : List Char) (upper : Option Nat) (value : Nat) : Option Scan :=
  let isUpper := 0xd800 ≤ value && value < 0xdc00
  let isLower := 0xdc00 ≤ value && value < 0xe000
  match upper with
  | none =>
    if isUpper then some (.pair taken value)
    else if isLower then none
    else some (.text (Char.ofNat value :: taken))
  | some u =>
    if isLower then
      some (.text (Char.ofNat (0x10000 + (u - 0xd800) * 0x400 + (value - 0xdc00)) :: taken))
    else none

/-- The next character. -/
def step : Scan → Char → Option (Scan × List Token)
  | .idle, c => start c
  | .bare taken, c =>
    if isBare c then some (.bare (c :: taken), [])
    else
      match bareValue? taken.reverse, start c with
      | some v, some (next, tokens) => some (next, .scalar v :: tokens)
      | _, _ => none
  | .text taken, c =>
    if c = '"' then some (.idle, [.scalar (.str (String.ofList taken.reverse))])
    else if c = '\\' then some (.escape taken, [])
    else if c.toNat < 32 then none
    else some (.text (c :: taken), [])
  | .escape taken, c =>
    if c = 'u' then some (.hex taken none 4 0, [])
    else (escaped? c).map fun e => (.text (e :: taken), [])
  | .hex taken upper missing value, c =>
    match Text.hexValue? c with
    | none => none
    | some d =>
      let value := 16 * value + d
      if 1 < missing then some (.hex taken upper (missing - 1) value, [])
      else (afterHex taken upper value).map fun s => (s, [])
  | .pair taken upper, c => if c = '\\' then some (.pairEscape taken upper, []) else none
  | .pairEscape taken upper, c => if c = 'u' then some (.hex taken (some upper) 4 0, []) else none

/-- The tokens of the rest of a text. -/
def run : Scan → List Char → Option (List Token)
  | .idle, [] => some []
  | .bare taken, [] => (bareValue? taken.reverse).map fun v => [.scalar v]
  | _, [] => none
  | s, c :: cs =>
    match s.step c with
    | some (next, tokens) => (run next cs).map (tokens ++ ·)
    | none => none

end Scan

end QueryScript.Json
