/-!
# TOML strings

Four kinds of string: basic ones with escapes and literal ones without, each on one line or on
several.  Every reader takes the text after the opening marks and gives the content with what
follows the closing marks.
-/

namespace QueryScript.Toml

/-- Blanks inside a line. -/
def isSpace (c : Char) : Bool :=
  c == ' ' || c == '\t'

/-- Characters that may stand in a line: no control characters but the tab. -/
def isLineChar (c : Char) : Bool :=
  c == '\t' || (32 ≤ c.toNat && c.toNat != 127)

/-- What follows a line break, if the text starts with one. -/
def afterBreak? : List Char → Option (List Char)
  | '\n' :: cs => some cs
  | '\r' :: '\n' :: cs => some cs
  | _ => none

/-- The value of hexadecimal digits. -/
def hexNumber? (cs : List Char) : Option Nat :=
  cs.foldlM (fun n c =>
    if c.isDigit then some (16 * n + (c.toNat - 48))
    else if 'a' ≤ c ∧ c ≤ 'f' then some (16 * n + (c.toNat - 87))
    else if 'A' ≤ c ∧ c ≤ 'F' then some (16 * n + (c.toNat - 55))
    else none) 0

/-- The character with a code point written in `width` hexadecimal digits. -/
def codePoint? (width : Nat) (cs : List Char) : Option (Char × List Char) :=
  if (cs.take width).length < width then none
  else
    match hexNumber? (cs.take width) with
    | some n => if n.isValidChar then some (Char.ofNat n, cs.drop width) else none
    | none => none

/-- The character that an escape stands for. -/
def escaped? : List Char → Option (Char × List Char)
  | [] => none
  | c :: cs =>
    match c with
    | 'b' => some ('\x08', cs)
    | 't' => some ('\t', cs)
    | 'n' => some ('\n', cs)
    | 'f' => some ('\x0c', cs)
    | 'r' => some ('\r', cs)
    | '"' => some ('"', cs)
    | '\\' => some ('\\', cs)
    | 'u' => codePoint? 4 cs
    | 'U' => codePoint? 8 cs
    | _ => none

/-- The rest of a basic string on one line; `taken` holds the content so far, last character
first. -/
def basic? : Nat → List Char → List Char → Option (String × List Char)
  | 0, _, _ => none
  | _, _, [] => none
  | fuel + 1, taken, c :: cs =>
    if c = '"' then some (String.ofList taken.reverse, cs)
    else if c = '\\' then
      match escaped? cs with
      | some (e, rest) => basic? fuel (e :: taken) rest
      | none => none
    else if isLineChar c then basic? fuel (c :: taken) cs
    else none

/-- The rest of a literal string on one line. -/
def literal? (taken : List Char) : List Char → Option (String × List Char)
  | [] => none
  | c :: cs =>
    if c = '\'' then some (String.ofList taken.reverse, cs)
    else if isLineChar c then literal? (c :: taken) cs
    else none

/-- Three marks in a row close a string of several lines; up to two marks before them belong
to the content. -/
def closing? (mark : Char) (cs : List Char) : Option (List Char × List Char) :=
  let marks := (cs.take 5).takeWhile (· = mark)
  if marks.length < 3 then none
  else some (marks.drop 3, cs.drop marks.length)

/-- The text after blanks and line breaks. -/
def skipLines : Nat → List Char → List Char
  | 0, cs => cs
  | fuel + 1, cs =>
    let cs := cs.dropWhile isSpace
    match afterBreak? cs with
    | some rest => skipLines fuel rest
    | none => cs

/-- The rest of a string of several lines.  In a basic one a backslash at the end of a line
joins the lines. -/
def lines? (mark : Char) : Nat → List Char → List Char → Option (String × List Char)
  | 0, _, _ => none
  | _, _, [] => none
  | fuel + 1, taken, c :: cs =>
    match closing? mark (c :: cs) with
    | some (marks, rest) => some (String.ofList (marks ++ taken).reverse, rest)
    | none =>
      match afterBreak? (c :: cs) with
      | some rest => lines? mark fuel ('\n' :: taken) rest
      | none =>
        if c = '\\' ∧ mark = '"' then
          match afterBreak? (cs.dropWhile isSpace) with
          | some rest => lines? mark fuel taken (skipLines rest.length rest)
          | none =>
            match escaped? cs with
            | some (e, rest) => lines? mark fuel (e :: taken) rest
            | none => none
        else if isLineChar c then lines? mark fuel (c :: taken) cs
        else none

/-- A string on one line, as keys may be written. -/
def quoted? : List Char → Option (String × List Char)
  | '"' :: cs => basic? (cs.length + 1) [] cs
  | '\'' :: cs => literal? [] cs
  | _ => none

/-- A string of any kind.  A line break right after three opening marks is left out. -/
def string? : List Char → Option (String × List Char)
  | '"' :: '"' :: '"' :: cs => lines? '"' (cs.length + 1) [] ((afterBreak? cs).getD cs)
  | '\'' :: '\'' :: '\'' :: cs => lines? '\'' (cs.length + 1) [] ((afterBreak? cs).getD cs)
  | cs => quoted? cs

end QueryScript.Toml
