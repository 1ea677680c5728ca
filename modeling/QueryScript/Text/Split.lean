import QueryScript.Text.Classes

/-!
# Cutting text

Trimming white space from both ends, cutting at a separator, and looking for one text inside
another.  Everything is stated on lists of characters, with `String` only at the edges.
-/

namespace QueryScript.Text

/-- The characters without white space at either end. -/
def trimChars (cs : List Char) : List Char :=
  ((cs.dropWhile isBlank).reverse.dropWhile isBlank).reverse

/-- The text without white space at either end. -/
def trim (s : String) : String :=
  String.ofList (trimChars s.toList)

/-- The pieces between the characters that satisfy `p`; there is always one more piece than
there are such characters. -/
def splitChars (p : Char → Bool) : List Char → List (List Char)
  | [] => [[]]
  | c :: cs =>
    if p c then [] :: splitChars p cs
    else
      match splitChars p cs with
      | [] => [[c]]
      | piece :: rest => (c :: piece) :: rest

theorem splitChars_ne_nil (p : Char → Bool) (cs : List Char) : splitChars p cs ≠ [] := by
  cases cs with
  | nil => simp [splitChars]
  | cons c cs =>
    unfold splitChars
    split
    · simp
    · split <;> simp

/-- The non-empty pieces between the characters that satisfy `p`. -/
def tokens (p : Char → Bool) (cs : List Char) : List (List Char) :=
  (splitChars p cs).filter (· ≠ [])

/-- Whether `needle` occurs in `hay` as an unbroken piece. -/
def occursIn (needle : List Char) : List Char → Bool
  | [] => needle.isEmpty
  | c :: cs => needle.isPrefixOf (c :: cs) || occursIn needle cs

/-- The texts one after the other with `separator` between them. -/
def joinWith (separator : String) : List String → String
  | [] => ""
  | [s] => s
  | s :: rest => s ++ separator ++ joinWith separator rest

end QueryScript.Text
