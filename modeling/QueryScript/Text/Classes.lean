import QueryScript.Text.Ascii
import QueryScript.Text.Alphabetic
import QueryScript.Text.Numeric

/-!
# Character classes

The classes that patterns, table references and trimming speak of.  Each is decided by its
ASCII part first; only characters from 128 on look into a table.
-/

namespace QueryScript.Text

/-- Whether a code point lies in one of the inclusive ranges. -/
def inRanges (table : List (Nat × Nat)) (n : Nat) : Bool :=
  table.any fun (lo, hi) => lo ≤ n && n ≤ hi

/-- White space: the code points with the Unicode property White_Space. -/
def blankRanges : List (Nat × Nat) :=
  [(0x9, 0xd), (0x20, 0x20), (0x85, 0x85), (0xa0, 0xa0), (0x1680, 0x1680),
    (0x2000, 0x200a), (0x2028, 0x2029), (0x202f, 0x202f), (0x205f, 0x205f), (0x3000, 0x3000)]

/-- White space of any script. -/
def isBlank (c : Char) : Bool :=
  inRanges blankRanges c.toNat

/-- A decimal digit of any script. -/
def isDecimalDigit (c : Char) : Bool :=
  c.isDigit || (128 ≤ c.toNat && inRanges decimalDigitRanges c.toNat)

/-- A letter of any script. -/
def isAlphabetic (c : Char) : Bool :=
  c.isAlpha || (128 ≤ c.toNat && inRanges alphabeticRanges c.toNat)

/-- A letter or a number of any script. -/
def isAlphanumeric (c : Char) : Bool :=
  c.isAlphanum ||
    (128 ≤ c.toNat &&
      (inRanges alphabeticRanges c.toNat || inRanges decimalDigitRanges c.toNat ||
        inRanges otherNumberRanges c.toNat))

/-- The connecting punctuation and the joiners that may stand inside a word. -/
def connectorRanges : List (Nat × Nat) :=
  [(0x200c, 0x200d), (0x203f, 0x2040), (0x2054, 0x2054), (0xfe33, 0xfe34), (0xfe4d, 0xfe4f),
    (0xff3f, 0xff3f)]

/-- A word character: letters, marks, decimal digits, connectors and joiners. -/
def isWord (c : Char) : Bool :=
  isAsciiWord c ||
    (128 ≤ c.toNat &&
      (inRanges alphabeticRanges c.toNat || inRanges markRanges c.toNat ||
        inRanges decimalDigitRanges c.toNat || inRanges connectorRanges c.toNat))

end QueryScript.Text
