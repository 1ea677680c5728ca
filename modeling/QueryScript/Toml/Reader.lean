import QueryScript.Toml.Scalar
import QueryScript.Toml.Table

/-!
# Reading TOML

A document is a list of statements, one a line: a header, or a key with a value.  Arrays and
inline tables nest up to a fixed depth.  Reading either gives the whole document as one object
or fails.

The readers of nested values take a bound on the number of their steps; the length of the text
always suffices.
-/

namespace QueryScript.Toml

/-- The least depth of nesting, and number of parts of a key, that is refused. -/
def depthLimit : Nat := 80

/-- The text after a comment, if there is one, up to the end of the line; none if a control
character stands in the comment. -/
def afterComment? : List Char → Option (List Char)
  | '#' :: cs =>
    let rest := cs.dropWhile isLineChar
    if rest = [] ∨ (afterBreak? rest).isSome then some rest else none
  | cs => some cs

/-- What follows the end of a line: blanks, a comment, and the line break or the end. -/
def afterLine? (cs : List Char) : Option (List Char) := do
  let rest ← afterComment? (cs.dropWhile isSpace)
  if rest = [] then some [] else afterBreak? rest

/-- The text after blanks, comments and line breaks, as they may stand inside an array. -/
def afterLines? : Nat → List Char → Option (List Char)
  | 0, cs => some cs
  | fuel + 1, cs => do
    let rest ← afterComment? (cs.dropWhile isSpace)
    match afterBreak? rest with
    | some more => afterLines? fuel more
    | none => some rest

/-- Characters of keys without quotes. -/
def isKeyChar (c : Char) : Bool :=
  c.isAlphanum || c == '-' || c == '_'

/-- One part of a key. -/
def keyPart? (cs : List Char) : Option (String × List Char) :=
  match cs.takeWhile isKeyChar with
  | [] => quoted? cs
  | name => some (String.ofList name, cs.dropWhile isKeyChar)

/-- The parts of a dotted key, with blanks around each. -/
def keyParts? : Nat → List Char → Option (List String × List Char)
  | 0, _ => none
  | fuel + 1, cs => do
    let (part, rest) ← keyPart? (cs.dropWhile isSpace)
    match rest.dropWhile isSpace with
    | '.' :: more => do
      let (parts, tail) ← keyParts? fuel more
      return (part :: parts, tail)
    | tail => return ([part], tail)

/-- A dotted key as the path before its last part, and that part. -/
def key? (cs : List Char) : Option ((List String × String) × List Char) := do
  let (parts, rest) ← keyParts? depthLimit cs
  match parts.getLast? with
  | some last => if parts.length < depthLimit then some ((parts.dropLast, last), rest) else none
  | none => none

mutual

/-- A value. -/
def value? (depth : Nat) : Nat → List Char → Option (Json × List Char)
  | 0, _ => none
  | fuel + 1, cs =>
    match cs with
    | '"' :: _ => (string? cs).map fun (s, rest) => (.str s, rest)
    | '\'' :: _ => (string? cs).map fun (s, rest) => (.str s, rest)
    | '[' :: rest =>
      if depth + 1 < depthLimit then
        (items? (depth + 1) fuel rest).map fun (xs, rest) => (.arr xs, rest)
      else none
    | '{' :: rest =>
      if depth + 1 < depthLimit then
        match rest.dropWhile isSpace with
        | '}' :: tail => some (.obj [], tail)
        | body =>
          (entries? (depth + 1) fuel [] body).map fun (nodes, rest) =>
            (.obj (Nodes.entriesJson nodes), rest)
      else none
    | cs => scalar? cs

/-- The items of an array up to its end. -/
def items? (depth : Nat) : Nat → List Char → Option (List Json × List Char)
  | 0, _ => none
  | fuel + 1, cs => do
    let cs ← afterLines? cs.length cs
    match cs with
    | ']' :: rest => some ([], rest)
    | cs => do
      let (v, rest) ← value? depth fuel cs
      let rest ← afterLines? rest.length rest
      match rest with
      | ',' :: more => do
        let (vs, tail) ← items? depth fuel more
        return (v :: vs, tail)
      | ']' :: tail => return ([v], tail)
      | _ => none

/-- The entries of an inline table up to its end. -/
def entries? (depth : Nat) : Nat → Nodes → List Char → Option (Nodes × List Char)
  | 0, _, _ => none
  | fuel + 1, nodes, cs => do
    let ((path, key), rest) ← key? cs
    match rest with
    | '=' :: rest => do
      let (v, rest) ← value? depth fuel (rest.dropWhile isSpace)
      let nodes ← nodes.assign path key v
      match rest.dropWhile isSpace with
      | ',' :: more => entries? depth fuel nodes more
      | '}' :: tail => return (nodes, tail)
      | _ => none
    | _ => none

end

/-- A document while it is read: its table, and the path that the last header opened. -/
structure Document where
  nodes : Nodes
  header : List String

namespace Document

/-- The document before its first statement. -/
def empty : Document := ⟨[], []⟩

/-- A header after its opening brackets. -/
def header? (doc : Document) (repeated : Bool) (cs : List Char) :
    Option (Document × List Char) := do
  let ((path, key), rest) ← key? cs
  let rest ← match repeated, rest with
    | true, ']' :: ']' :: rest => some rest
    | false, ']' :: rest => some rest
    | _, _ => none
  let nodes ← doc.nodes.openTable repeated path key
  return (⟨nodes, path ++ [key]⟩, rest)

/-- A key with its value. -/
def assignment? (doc : Document) (cs : List Char) : Option (Document × List Char) := do
  let ((path, key), rest) ← key? cs
  match rest with
  | '=' :: rest => do
    let body := rest.dropWhile isSpace
    let (v, rest) ← value? 0 (body.length + 1) body
    let nodes ← doc.nodes.assignIn doc.header path key v
    return (⟨nodes, doc.header⟩, rest)
  | _ => none

/-- One statement, or none on an empty line. -/
def statement? (doc : Document) (cs : List Char) : Option (Document × List Char) :=
  match cs with
  | [] => some (doc, [])
  | '#' :: _ => some (doc, cs)
  | '\n' :: _ => some (doc, cs)
  | '\r' :: _ => some (doc, cs)
  | '[' :: '[' :: rest => doc.header? true rest
  | '[' :: rest => doc.header? false rest
  | cs => doc.assignment? cs

/-- The rest of a document, line by line. -/
def read? : Nat → Document → List Char → Option Document
  | _, doc, [] => some doc
  | 0, _, _ => none
  | fuel + 1, doc, cs => do
    let (doc, rest) ← doc.statement? (cs.dropWhile isSpace)
    let rest ← afterLine? rest
    read? fuel doc rest

end Document

/-- The text without a byte order mark in front. -/
def withoutMark : List Char → List Char
  | c :: cs => if c = '\ufeff' then cs else c :: cs
  | [] => []

/-- The object that a document writes, if the text is TOML. -/
def parse? (s : String) : Option Json :=
  let cs := withoutMark s.toList
  (Document.read? cs.length .empty cs).map fun doc => .obj (Nodes.entriesJson doc.nodes)

end QueryScript.Toml
