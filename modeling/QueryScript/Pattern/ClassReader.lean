import QueryScript.Pattern.Escape

/-!
# Reading classes

A class stands in brackets: characters, ranges, named classes, names of ASCII classes such as
`[:alpha:]`, and other classes.  What stands side by side is united; `&&`, `--` and `~~` between
two such unions take what is in both, in the first only, and in one of them only.  The operations
bind alike, from the left.

A hyphen and a closing bracket stand for themselves where they cannot mean anything else: hyphens
at the start, a closing bracket right at the start, a hyphen before the closing bracket, and one
behind a range or a class in brackets.  A range begins and ends with a character.

The reader keeps the open brackets, innermost first, and a `ClassMode` that says what the next
character continues.
-/

namespace QueryScript.Pattern

/-- An operation on two classes. -/
inductive Operation where
  | inter
  | diff
  | symmDiff
deriving DecidableEq, Repr

namespace Operation

/-- The operation that a character stands for when it is doubled. -/
def ofChar? : Char → Option Operation
  | '&' => some .inter
  | '-' => some .diff
  | '~' => some .symmDiff
  | _ => none

/-- What the operation makes of two parts. -/
def apply : Operation → Part → Part → Part
  | .inter => .inter
  | .diff => .diff
  | .symmDiff => .symmDiff

end Operation

/-- A bracket being read. -/
structure Bracket where
  negated : Bool
  /-- The operand before an operation, and the operation. -/
  waiting : Option (Part × Operation)
  /-- The parts of the current operand, last first. -/
  parts : List Part

namespace Bracket

/-- The bracket just opened. -/
def opened : Bracket := ⟨false, none, []⟩

/-- The bracket with one more part. -/
def add (b : Bracket) (part : Part) : Bracket :=
  { b with parts := part :: b.parts }

/-- What has been read, as one part. -/
def operand (b : Bracket) : Part :=
  match b.waiting with
  | none => .unionOf b.parts.reverse
  | some (left, op) => op.apply left (.unionOf b.parts.reverse)

/-- The bracket after an operation. -/
def operate (b : Bracket) (op : Operation) : Bracket :=
  { b with waiting := some (b.operand, op), parts := [] }

/-- The class in the bracket. -/
def close (b : Bracket) : Class :=
  match b.waiting with
  | none => ⟨b.negated, b.parts.reverse⟩
  | some _ => ⟨b.negated, [b.operand]⟩

end Bracket

/-- The names of ASCII classes, and the ranges of their characters. -/
def asciiClasses : List (String × List (Char × Char)) :=
  [("alnum", [('0', '9'), ('A', 'Z'), ('a', 'z')]), ("alpha", [('A', 'Z'), ('a', 'z')]),
    ("ascii", [('\x00', '\x7f')]), ("blank", [('\t', '\t'), (' ', ' ')]),
    ("cntrl", [('\x00', '\x1f'), ('\x7f', '\x7f')]), ("digit", [('0', '9')]),
    ("graph", [('!', '~')]), ("lower", [('a', 'z')]), ("print", [(' ', '~')]),
    ("punct", [('!', '/'), (':', '@'), ('[', '\x60'), ('\x7b', '~')]),
    ("space", [('\t', '\r'), (' ', ' ')]), ("upper", [('A', 'Z')]),
    ("word", [('0', '9'), ('A', 'Z'), ('_', '_'), ('a', 'z')]),
    ("xdigit", [('0', '9'), ('A', 'F'), ('a', 'f')])]

/-- What follows the bracket before the name of an ASCII class, and the part that is meant: the
class, or with a caret before the name all that is outside of it. -/
def asciiParts : List (List Char × Part) :=
  asciiClasses.flatMap fun (name, ranges) =>
    let part := Part.unionOf (ranges.map fun (lo, hi) => .range lo hi)
    [(':' :: (name.toList ++ [':', ']']), part),
      (':' :: '^' :: (name.toList ++ [':', ']']), .compl part)]

/-- What was read last in a class and may begin a range. -/
inductive ClassItem where
  /-- A character, and whether it was written without a backslash. -/
  | char (c : Char) (bare : Bool)
  | set (part : Part)

/-- The item as a part of its own. -/
def ClassItem.toPart : ClassItem → Part
  | .char c _ => .one c
  | .set part => part

/-- What the next character of a class continues. -/
inductive ClassMode where
  /-- After an opening bracket, and perhaps a caret. -/
  | opened (caret : Bool)
  /-- After hyphens at the start. -/
  | hyphens
  /-- After a finished part. -/
  | between
  | item (i : ClassItem)
  /-- After an item and a hyphen. -/
  | hyphen (i : ClassItem)
  /-- After a backslash, and before it perhaps an item and a hyphen. -/
  | escape (start : Option ClassItem)
  | codePoint (start : Option ClassItem) (p : CodePoint)
  /-- After a bracket that may belong to the name of an ASCII class; what was read since, last
  first. -/
  | name (reversed : List Char)

/-- A class being read: the innermost bracket, the brackets around it, and what the next character
continues. -/
structure ClassScan where
  bracket : Bracket
  outer : List Bracket
  mode : ClassMode

namespace ClassScan

/-- The class just opened. -/
def start : ClassScan := ⟨.opened, [], .opened false⟩

/-- The scan with one more part. -/
def add (s : ClassScan) (part : Part) : ClassScan :=
  { s with bracket := s.bracket.add part, mode := .between }

/-- The scan after an operation. -/
def operate (s : ClassScan) (op : Operation) : ClassScan :=
  { s with bracket := s.bracket.operate op, mode := .between }

/-- The scan in another bracket. -/
def nest (s : ClassScan) : ClassScan :=
  ⟨.opened, s.bracket :: s.outer, .opened false⟩

/-- The innermost bracket closed: a part of the one around it, or the whole class. -/
def close (s : ClassScan) : ClassScan ⊕ Class :=
  match s.outer with
  | [] => .inr s.bracket.close
  | b :: outer => .inl ⟨b.add s.bracket.close.toPart, outer, .between⟩

/-- A character where a part may begin. -/
def beginPart (s : ClassScan) (c : Char) : ClassScan ⊕ Class :=
  if c = ']' then s.close
  else if c = '[' then .inl { s with mode := .name [] }
  else if c = '\\' then .inl { s with mode := .escape none }
  else .inl { s with mode := .item (.char c true) }

/-- A character after an opening bracket. -/
def beginBracket (s : ClassScan) (caret : Bool) (c : Char) : ClassScan ⊕ Class :=
  if c = '^' && !caret then
    .inl { s with bracket := { s.bracket with negated := true }, mode := .opened true }
  else if c = '-' then .inl { s.add (.one '-') with mode := .hyphens }
  else if c = ']' then .inl (s.add (.one ']'))
  else s.beginPart c

/-- A range from an item to a character. -/
def rangeTo (s : ClassScan) (start : ClassItem) (hi : Char) : Option ClassScan :=
  match start with
  | .char lo _ => if lo ≤ hi then some (s.add (.range lo hi)) else none
  | .set _ => none

/-- An item that was written with a backslash: an item of its own, or the end of a range. -/
def arrive (s : ClassScan) (start : Option ClassItem) (i : ClassItem) : Option ClassScan :=
  match start, i with
  | none, i => some { s with mode := .item i }
  | some start, .char c _ => s.rangeTo start c
  | some _, .set _ => none

/-- A character after an item. -/
def afterItem (s : ClassScan) (i : ClassItem) (c : Char) : ClassScan ⊕ Class :=
  match i, Operation.ofChar? c with
  | .char d true, some op =>
    if d = c then .inl (s.operate op)
    else if c = '-' then .inl { s with mode := .hyphen i }
    else (s.add i.toPart).beginPart c
  | _, _ =>
    if c = '-' then .inl { s with mode := .hyphen i } else (s.add i.toPart).beginPart c

/-- A character after an item and a hyphen. -/
def afterHyphen (s : ClassScan) (i : ClassItem) (c : Char) : Option (ClassScan ⊕ Class) :=
  if c = ']' then some ((s.add i.toPart).add (.one '-')).close
  else if c = '-' then some (.inl ((s.add i.toPart).operate .diff))
  else if c = '\\' then some (.inl { s with mode := .escape (some i) })
  else (s.rangeTo i c).map .inl

/-- A character after a backslash. -/
def afterBackslash (s : ClassScan) (start : Option ClassItem) (c : Char) : Option ClassScan :=
  match namedPart? c, CodePoint.ofLetter? c, literalEscape? c with
  | some part, _, _ => s.arrive start (.set part)
  | none, some p, _ => some { s with mode := .codePoint start p }
  | none, none, some d => s.arrive start (.char d false)
  | none, none, none => none

/-- A character after a bracket that may belong to the name of an ASCII class.  If it does not, the
bracket has opened a class, and what was read since are the first characters of that class. -/
def afterBracket (s : ClassScan) (reversed : List Char) (c : Char) : ClassScan ⊕ Class :=
  let text := (c :: reversed).reverse
  match asciiParts.lookup text with
  | some part => .inl (s.add part)
  | none =>
    if asciiParts.any (text.isPrefixOf ·.1) then .inl { s with mode := .name (c :: reversed) }
    else
      match reversed with
      | [] => s.nest.beginBracket false c
      | last :: earlier =>
        let bracket := { Bracket.opened with parts := earlier.map .one }
        { s.nest with bracket := bracket }.afterItem (.char last true) c

/-- The next character: the class goes on, or it is finished. -/
def step (s : ClassScan) (c : Char) : Option (ClassScan ⊕ Class) :=
  match s.mode with
  | .opened caret => some (s.beginBracket caret c)
  | .hyphens =>
    if c = '-' then some (.inl { s.add (.one '-') with mode := .hyphens })
    else some (s.beginPart c)
  | .between => some (s.beginPart c)
  | .item i => some (s.afterItem i c)
  | .hyphen i => s.afterHyphen i c
  | .escape start => (s.afterBackslash start c).map .inl
  | .codePoint start p =>
    match p.step c with
    | some (.inl next) => some (.inl { s with mode := .codePoint start next })
    | some (.inr d) => (s.arrive start (.char d false)).map .inl
    | none => none
  | .name reversed => some (s.afterBracket reversed c)

end ClassScan

end QueryScript.Pattern
