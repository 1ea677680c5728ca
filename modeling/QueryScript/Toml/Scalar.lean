import QueryScript.Json.Basic
import QueryScript.Json.Printer
import QueryScript.Number.Numeral
import QueryScript.Text.Timestamp
import QueryScript.Toml.Text

/-!
# TOML numbers, booleans, dates and times

Digits may be separated by single underscores.  Integers are of 64 bits with a sign and may be
written in base 16, 8 or 2; a date or time stands in the value as an object with one key.
-/

namespace QueryScript.Toml

/-- The longest start of a text that consists of digits with single underscores between them:
the digits, and what follows. -/
def digitRun (isDigit : Char → Bool) : List Char → List Char × List Char
  | [] => ([], [])
  | c :: cs =>
    if isDigit c then
      match cs with
      | '_' :: d :: rest =>
        if isDigit d then
          let (ds, tail) := digitRun isDigit (d :: rest)
          (c :: ds, tail)
        else ([c], '_' :: d :: rest)
      | cs =>
        let (ds, tail) := digitRun isDigit cs
        (c :: ds, tail)
    else ([], c :: cs)

/-- The value of digits in a base of at most 16. -/
def valueIn (base : Nat) (ds : List Char) : Nat :=
  ds.foldl (fun n c => base * n + (hexNumber? [c]).getD 0) 0

/-- Whether a character is a digit of a base. -/
def isDigitIn (base : Nat) (c : Char) : Bool :=
  match hexNumber? [c] with
  | some n => n < base
  | none => false

/-- An integer after the mark of its base. -/
def baseInteger? (base : Nat) (cs : List Char) : Option (Json × List Char) :=
  let (ds, rest) := digitRun (isDigitIn base) cs
  let n := valueIn base ds
  if ds = [] ∨ Word.signedLimit ≤ n then none else some (.nat n, rest)

/-- A sign and the text after it. -/
def splitSign : List Char → Bool × List Char
  | '-' :: cs => (true, cs)
  | '+' :: cs => (false, cs)
  | cs => (false, cs)

/-- The digits of a decimal integer without leading zeros, and what follows. -/
def wholeDigits (cs : List Char) : List Char × List Char :=
  match cs with
  | '0' :: rest => (['0'], rest)
  | cs => digitRun Char.isDigit cs

/-- The digits after a point, and what follows; none if there is no point. -/
def fraction? : List Char → Option (List Char × List Char)
  | '.' :: cs => some (digitRun Char.isDigit cs)
  | cs => some ([], cs)

/-- An exponent and what follows; none if it has no digits. -/
def exponent? : List Char → Option (Int × List Char)
  | c :: cs =>
    if c = 'e' ∨ c = 'E' then
      let (negative, cs) := splitSign cs
      let (ds, rest) := digitRun Char.isDigit cs
      if ds = [] then none
      else some (if negative then -(Numeral.ofDigits ds : Int) else Numeral.ofDigits ds, rest)
    else some (0, c :: cs)
  | [] => some (0, [])

/-- A signed decimal integer or double. -/
def decimal? (cs : List Char) : Option (Json × List Char) := do
  let (negative, cs) := splitSign cs
  let (whole, rest) := wholeDigits cs
  if whole = [] then none
  else
    let (fraction, afterFraction) ← fraction? rest
    let (exponent, tail) ← exponent? afterFraction
    if tail.length = rest.length then
      let n := Numeral.ofDigits whole
      if negative then if n ≤ Word.signedLimit then some (.int (-(n : Int)), rest) else none
      else if n < Word.signedLimit then some (.nat n, rest) else none
    else if rest.head? = some '.' ∧ fraction = [] then none
    else
      let d : Decimal := ⟨Numeral.ofDigits (whole ++ fraction), exponent - fraction.length⟩
      let x := Numeral.toBinary64 negative d
      if x = .infinite false then none else some (.num (.double x), tail)

/-- A word and what follows it. -/
def word? (word : String) (v : Json) (cs : List Char) : Option (Json × List Char) :=
  if word.toList.isPrefixOf cs then some (v, cs.drop word.length) else none

/-- Infinity or not-a-number, with an optional sign. -/
def special? (cs : List Char) : Option (Json × List Char) :=
  let (negative, cs) := splitSign cs
  (word? "inf" (.num (.double (.infinite negative))) cs) <|> word? "nan" (.num (.double .nan)) cs

/-- A number. -/
def number? (cs : List Char) : Option (Json × List Char) :=
  match cs with
  | '0' :: 'x' :: rest => baseInteger? 16 rest
  | '0' :: 'o' :: rest => baseInteger? 8 rest
  | '0' :: 'b' :: rest => baseInteger? 2 rest
  | cs => special? cs <|> decimal? cs

/-- The key under which the text of a date or time stands. -/
def timestampKey : String := "$__toml_private_datetime"

/-- What follows an offset from universal time, if there is one. -/
def afterOffset (cs : List Char) : List Char :=
  match cs with
  | [] => []
  | c :: rest =>
    if c = 'Z' ∨ c = 'z' then rest
    else if (c = '+' ∨ c = '-') ∧ Text.Timestamp.isOffset (cs.take 6) then cs.drop 6
    else cs

/-- What follows a time of day. -/
def afterTime? (cs : List Char) : Option (List Char) := do
  let cs ← Text.Timestamp.afterTime? true cs
  return (Text.Timestamp.afterFraction? cs).getD cs

/-- What follows a date, a time of day, or both. -/
def afterTimestamp? (cs : List Char) : Option (List Char) :=
  match Text.Timestamp.afterDate? true cs with
  | none => afterTime? cs
  | some [] => some []
  | some (c :: rest) =>
    if c = 'T' ∨ c = 't' ∨ c = ' ' then
      match afterTime? rest with
      | some tail => some (afterOffset tail)
      | none => some (c :: rest)
    else some (c :: rest)

/-- A date or time. -/
def timestamp? (cs : List Char) : Option (Json × List Char) :=
  (afterTimestamp? cs).map fun rest =>
    (.obj [(timestampKey, .str (String.ofList (cs.take (cs.length - rest.length))))], rest)

/-- A value that is no string and has no parts. -/
def scalar? (cs : List Char) : Option (Json × List Char) :=
  match cs with
  | 't' :: _ => word? "true" (.bool true) cs
  | 'f' :: _ => word? "false" (.bool false) cs
  | cs => timestamp? cs <|> number? cs

end QueryScript.Toml
