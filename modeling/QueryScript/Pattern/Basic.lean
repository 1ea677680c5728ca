import QueryScript.Pattern.Class

/-!
# Patterns

A pattern is a regular expression over classes of characters, with word boundaries and the
ends of the text as conditions on a place.

`ends` lists the places where a match that starts at a given place can stop, the preferred
one first: an earlier alternative before a later one, and one more repetition before one
fewer.  `find?` reports the first match, at the leftmost place where there is one, and of
those the preferred one.
-/

namespace QueryScript

/-- A condition on a place in a text. -/
inductive Pattern.Anchor where
  | wordBoundary
  | noWordBoundary
  | textStart
  | textEnd
deriving DecidableEq, Repr

/-- A regular expression. -/
inductive Pattern where
  | empty
  | set (cls : Pattern.Class)
  | anchor (a : Pattern.Anchor)
  | seq (first second : Pattern)
  | alt (preferred other : Pattern)
  /-- Any number of repetitions; `greedy` prefers more of them. -/
  | star (greedy : Bool) (body : Pattern)
deriving DecidableEq, Repr

namespace Pattern

/-- A place in a text: the character before it, if there is one, and the characters after. -/
structure Place where
  before : Option Char
  after : List Char
deriving DecidableEq, Repr

/-- Whether a possible character is a word character. -/
def isWordAt : Option Char → Bool
  | some c => Text.isWord c
  | none => false

/-- Whether a condition holds at a place. -/
def Anchor.holds (p : Place) : Anchor → Bool
  | .wordBoundary => isWordAt p.before != isWordAt p.after.head?
  | .noWordBoundary => isWordAt p.before == isWordAt p.after.head?
  | .textStart => p.before.isNone
  | .textEnd => p.after.isEmpty

/-- The places after any number of steps, at most `fuel` of which move on.  A step that does
not move ends the repetition. -/
def repeated (greedy : Bool) (step : Place → List Place) : Nat → Place → List Place
  | 0, p => [p]
  | fuel + 1, p =>
    let more := (step p).flatMap fun q =>
      if q.after.length < p.after.length then repeated greedy step fuel q else [q]
    if greedy then more ++ [p] else p :: more

/-- The places where a match from a place can stop, the preferred one first. -/
def ends : Pattern → Place → List Place
  | .empty, p => [p]
  | .set cls, p =>
    match p.after with
    | [] => []
    | c :: cs => if cls.contains c then [⟨some c, cs⟩] else []
  | .anchor a, p => if a.holds p then [p] else []
  | .seq first second, p => (ends first p).flatMap (ends second)
  | .alt preferred other, p => ends preferred p ++ ends other p
  | .star greedy body, p => repeated greedy (ends body) p.after.length p

/-- The text of the preferred match at a place. -/
def matchAt? (pattern : Pattern) (p : Place) : Option (List Char) :=
  (ends pattern p).head?.map fun q => p.after.take (p.after.length - q.after.length)

/-- The first match at or after a place. -/
def findFrom? (pattern : Pattern) (before : Option Char) : List Char → Option (List Char)
  | [] => pattern.matchAt? ⟨before, []⟩
  | c :: cs =>
    match pattern.matchAt? ⟨before, c :: cs⟩ with
    | some text => some text
    | none => findFrom? pattern (some c) cs

/-- The text of the first match. -/
def find? (pattern : Pattern) (s : String) : Option String :=
  (pattern.findFrom? none s.toList).map String.ofList

/-- One or more repetitions. -/
def plus (greedy : Bool) (body : Pattern) : Pattern :=
  .seq body (.star greedy body)

/-- The body or nothing. -/
def optional (greedy : Bool) (body : Pattern) : Pattern :=
  if greedy then .alt body .empty else .alt .empty body

/-- The patterns one after the other. -/
def sequence : List Pattern → Pattern
  | [] => .empty
  | [p] => p
  | p :: rest => .seq p (sequence rest)

/-- The first of the patterns that matches. -/
def firstOf : List Pattern → Pattern
  | [] => .empty
  | [p] => p
  | p :: rest => .alt p (firstOf rest)

/-- At least `least` repetitions, and at most `extra` more if that is bounded. -/
def counted (greedy : Bool) (body : Pattern) (least : Nat) (extra : Option Nat) : Pattern :=
  let tail := match extra with
    | none => .star greedy body
    | some n => (List.range n).foldl (fun p _ => optional greedy (.seq body p)) .empty
  (List.range least).foldl (fun p _ => .seq body p) tail

end Pattern

end QueryScript
