import QueryScript.Number.Shortest
import QueryScript.Number.Word
import QueryScript.Text.Split

/-!
# Numerals

Three readers of text: natural numbers and integers of 64 bits, with an optional sign, and
decimal numbers rounded to the nearest double.  None of them allows blanks, digit separators
or a base mark.
-/

namespace QueryScript.Numeral

/-- The value of decimal digits. -/
def ofDigits (cs : List Char) : Nat :=
  cs.foldl (fun n c => 10 * n + (c.toNat - 48)) 0

/-- The value of a non-empty run of ASCII digits. -/
def digits? (cs : List Char) : Option Nat :=
  if cs ≠ [] ∧ cs.all Char.isDigit then some (ofDigits cs) else none

/-- A natural number below `2^64`; a leading `+` is allowed. -/
def natural? (s : String) : Option Nat :=
  let cs := match s.toList with
    | '+' :: rest => rest
    | cs => cs
  (digits? cs).filter (· < Word.limit)

/-- An integer from `-2^63` to `2^63 - 1`; a leading sign is allowed. -/
def integer? (s : String) : Option Int :=
  match s.toList with
  | '-' :: rest => ((digits? rest).filter (· ≤ Word.signedLimit)).map fun n => -(n : Int)
  | '+' :: rest => ((digits? rest).filter (· < Word.signedLimit)).map Int.ofNat
  | cs => ((digits? cs).filter (· < Word.signedLimit)).map Int.ofNat

/-- The double nearest to `digits · 10^exponent`.  Exponents far outside the range of
doubles are settled without computing the power. -/
def toBinary64 (negative : Bool) (d : Decimal) : Binary64 :=
  let size : Int := (toString d.digits).length + d.exponent
  if d.digits = 0 then .finite negative 0
  else if 400 < size then .infinite negative
  else if size < -400 then .finite negative 0
  else .ofUnits negative (d.digits * Binary64.tenUp d.exponent * Binary64.one)
    (Binary64.tenDown d.exponent)

/-- The exponent after a mantissa: nothing, or `e` with an optional sign and digits. -/
def exponentPart? : List Char → Option Int
  | [] => some 0
  | e :: rest =>
    if e = 'e' ∨ e = 'E' then
      match rest with
      | '-' :: ds => (digits? ds).map fun n => -(n : Int)
      | '+' :: ds => (digits? ds).map Int.ofNat
      | ds => (digits? ds).map Int.ofNat
    else none

/-- An unsigned decimal: digits with an optional point among, before or after them, and an
optional exponent. -/
def decimal? (cs : List Char) : Option Decimal :=
  let whole := cs.takeWhile Char.isDigit
  let rest := cs.dropWhile Char.isDigit
  let (fraction, tail) := match rest with
    | '.' :: more => (more.takeWhile Char.isDigit, more.dropWhile Char.isDigit)
    | _ => ([], rest)
  if whole = [] ∧ fraction = [] then none
  else (exponentPart? tail).map fun e => ⟨ofDigits (whole ++ fraction), e - fraction.length⟩

/-- A double without its sign: a decimal, or one of the words for infinity and not-a-number
in any case. -/
def unsignedDouble? (negative : Bool) (cs : List Char) : Option Binary64 :=
  let word := Text.lower (String.ofList cs)
  if word = "inf" ∨ word = "infinity" then some (.infinite negative)
  else if word = "nan" then some .nan
  else (decimal? cs).map (toBinary64 negative)

/-- A double, with an optional sign; numbers too large become infinite. -/
def double? (s : String) : Option Binary64 :=
  match s.toList with
  | '-' :: rest => unsignedDouble? true rest
  | '+' :: rest => unsignedDouble? false rest
  | cs => unsignedDouble? false cs

end QueryScript.Numeral
