import QueryScript.Pattern.ClassReader
import QueryScript.Text.Split

/-!
# Reading patterns

Patterns are written in the usual way: literals, `.`, classes in brackets, the named classes
`\w \d \s`, the conditions `\b`, `^` and `$`, groups, alternatives, and the repetitions
`* + ?` and counts in braces, each followed by `?` to prefer fewer.  A group may have a name, which
no other group has.  Flags, classes by Unicode property and the conditions `\<`, `\>` and `\b` with
a word in braces are not read.  How deep groups nest and how large a pattern grows is not limited.

The reader takes one character at a time.  It keeps the open groups, innermost first, and a
`Mode` that says what the next character continues.  A text that ends inside a group, a class,
a count or an escape is no pattern, nor is one that repeats nothing.
-/

namespace QueryScript.Pattern

/-- A group being read: its finished alternatives and the items of the current one, both last
first. -/
structure Level where
  branches : List Pattern
  items : List Pattern

/-- The pattern of a group. -/
def Level.close (level : Level) : Pattern :=
  firstOf ((sequence level.items.reverse) :: level.branches).reverse

/-- A repetition. -/
inductive Quantifier where
  | star
  | plus
  | optional
  | counted (least : Nat) (extra : Option Nat)

/-- The repetition of a body. -/
def Quantifier.apply (q : Quantifier) (greedy : Bool) (body : Pattern) : Pattern :=
  match q with
  | .star => .star greedy body
  | .plus => Pattern.plus greedy body
  | .optional => Pattern.optional greedy body
  | .counted least extra => Pattern.counted greedy body least extra

/-- What the next character continues. -/
inductive Mode where
  | plain
  /-- A repetition of an item, which may still be marked to prefer fewer. -/
  | quantified (body : Pattern) (q : Quantifier)
  | escape
  | codePoint (p : CodePoint)
  /-- After an opening parenthesis. -/
  | groupOpen
  /-- After an opening parenthesis and a question mark. -/
  | groupMark
  /-- After the `P` that may stand before the name of a group. -/
  | groupLetter
  /-- Inside the name of a group, last character first. -/
  | groupName (reversed : List Char)
  | cls (scan : ClassScan)
  /-- Inside braces after an item: the first count, and the second if a comma was read. -/
  | count (body : Pattern) (least : List Char) (most : Option (List Char))

/-- The first count that 32 bits do not hold. -/
def countLimit : Nat := 4294967296

/-- A count written in digits, with white space around them, last character first. -/
def countValue? (reversed : List Char) : Option Nat :=
  let ds := Text.trimChars reversed.reverse
  if ds = [] || !ds.all Char.isDigit then none
  else
    let n := ds.foldl (fun n c => 10 * n + (c.toNat - 48)) 0
    if n < countLimit then some n else none

/-- The count in braces. -/
def countQuantifier? (least : List Char) (most : Option (List Char)) : Option Quantifier :=
  match countValue? least, most with
  | none, _ => none
  | some n, none => some (.counted n (some 0))
  | some n, some [] => some (.counted n none)
  | some n, some ds =>
    match countValue? ds with
    | some m => if n ≤ m then some (.counted n (some (m - n))) else none
    | none => none

/-- Whether a character may stand in the name of a group, after others or as the first. -/
def isNameChar (first : Bool) (c : Char) : Bool :=
  c == '_' || (if first then Text.isAlphabetic c
    else Text.isAlphanumeric c || c == '.' || c == '[' || c == ']')

/-- The reader between two characters: the innermost group, the groups around it, what the next
character continues, and the names of the groups so far. -/
structure Reader where
  level : Level
  outer : List Level
  mode : Mode
  names : List (List Char)

namespace Reader

/-- The reader before the first character. -/
def start : Reader := ⟨⟨[], []⟩, [], .plain, []⟩

/-- The reader with one more item. -/
def push (r : Reader) (item : Pattern) : Reader :=
  { r with level := { r.level with items := item :: r.level.items }, mode := .plain }

/-- A repetition of the last item. -/
def quantify (r : Reader) (mode : Pattern → Mode) : Option Reader :=
  match r.level.items with
  | [] => none
  | body :: rest => some { r with level := { r.level with items := rest }, mode := mode body }

/-- The innermost group closed. -/
def closeGroup (r : Reader) : Option Reader :=
  match r.outer with
  | [] => none
  | level :: outer => some (push { r with level := level, outer := outer } r.level.close)

/-- A character that continues nothing. -/
def plainStep (r : Reader) (c : Char) : Option Reader :=
  match c with
  | '(' => some { r with mode := .groupOpen }
  | ')' => r.closeGroup
  | '|' =>
    some { r with
      level := ⟨sequence r.level.items.reverse :: r.level.branches, []⟩, mode := .plain }
  | '*' => r.quantify (.quantified · .star)
  | '+' => r.quantify (.quantified · .plus)
  | '?' => r.quantify (.quantified · .optional)
  | '{' => r.quantify (.count · [] none)
  | '[' => some { r with mode := .cls .start }
  | '\\' => some { r with mode := .escape }
  | '.' => some (r.push (.set .notNewline))
  | '^' => some (r.push (.anchor .textStart))
  | '$' => some (r.push (.anchor .textEnd))
  | c => some (r.push (.set (.one c)))

/-- The reader inside a new group. -/
def openGroup (r : Reader) : Reader :=
  { r with level := ⟨[], []⟩, outer := r.level :: r.outer, mode := .plain }

/-- The reader inside a new group with a name. -/
def openNamed (r : Reader) (name : List Char) : Option Reader :=
  if name = [] || r.names.contains name then none
  else some { r.openGroup with names := name :: r.names }

/-- The next character. -/
def step (r : Reader) (c : Char) : Option Reader :=
  match r.mode with
  | .plain => r.plainStep c
  | .quantified body q =>
    if c = '?' then some (r.push (q.apply false body)) else (r.push (q.apply true body)).plainStep c
  | .escape =>
    match CodePoint.ofLetter? c with
    | some p => some { r with mode := .codePoint p }
    | none => (escapeItem? c).map r.push
  | .codePoint p =>
    match p.step c with
    | some (.inl next) => some { r with mode := .codePoint next }
    | some (.inr d) => some (r.push (.set (.one d)))
    | none => none
  | .groupOpen => if c = '?' then some { r with mode := .groupMark } else r.openGroup.plainStep c
  | .groupMark =>
    if c = ':' then some r.openGroup
    else if c = 'P' then some { r with mode := .groupLetter }
    else if c = '<' then some { r with mode := .groupName [] }
    else none
  | .groupLetter => if c = '<' then some { r with mode := .groupName [] } else none
  | .groupName reversed =>
    if c = '>' then r.openNamed reversed
    else if isNameChar (reversed = []) c then some { r with mode := .groupName (c :: reversed) }
    else none
  | .cls s =>
    match s.step c with
    | some (.inl s') => some { r with mode := .cls s' }
    | some (.inr cls) => some (r.push (.set cls))
    | none => none
  | .count body least most =>
    if c = '\x7d' then
      (countQuantifier? least most).map fun q => { r with mode := .quantified body q }
    else if c = ',' && most.isNone then some { r with mode := .count body least (some []) }
    else
      match most with
      | none => some { r with mode := .count body (c :: least) none }
      | some cs => some { r with mode := .count body least (some (c :: cs)) }

/-- The pattern when the text ends here. -/
def finish (r : Reader) : Option Pattern :=
  match r.outer, r.mode with
  | [], .plain => some r.level.close
  | [], .quantified body q => some (r.push (q.apply true body)).level.close
  | _, _ => none

/-- The reader after the rest of a text. -/
def run : Reader → List Char → Option Reader
  | r, [] => some r
  | r, c :: cs => (r.step c).bind fun next => run next cs

end Reader

/-- The pattern that a text writes, if it writes one. -/
def parse? (s : String) : Option Pattern :=
  (Reader.run .start s.toList).bind Reader.finish

end QueryScript.Pattern
