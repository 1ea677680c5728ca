import QueryScript.Json.Token

/-!
# Reading JSON

The tokens of a text are fed to a machine that keeps the containers still open.  `State.feed`
takes one token; `Json.parse?` accepts a text when the machine has exactly one complete value
at its end.  A key that comes twice keeps its first position and its last value.
-/

namespace QueryScript.Json

/-- A container whose next part is being read. -/
inductive Frame where
  /-- An array with its items so far, last first. -/
  | array (items : List Json)
  /-- An object with its entries so far and the key whose value comes next. -/
  | object (entries : Entries) (key : String)

/-- What the reader waits for; `stack` holds the open containers, innermost first. -/
inductive State where
  /-- A value. -/
  | value (stack : List Frame)
  /-- The first item of an array, or its end. -/
  | firstItem (stack : List Frame)
  /-- A comma or the end of an array. -/
  | afterItem (items : List Json) (stack : List Frame)
  /-- The first key of an object, or its end. -/
  | firstKey (stack : List Frame)
  /-- A key. -/
  | nextKey (entries : Entries) (stack : List Frame)
  /-- The colon after a key. -/
  | afterKey (entries : Entries) (key : String) (stack : List Frame)
  /-- A comma or the end of an object. -/
  | afterEntry (entries : Entries) (stack : List Frame)
  /-- Nothing: the text is complete. -/
  | complete (value : Json)

namespace State

/-- The deepest nesting that is read. -/
def maxDepth : Nat := 127

/-- The state after a complete value. -/
def deliver (v : Json) : List Frame → State
  | [] => .complete v
  | .array items :: stack => .afterItem (v :: items) stack
  | .object entries key :: stack => .afterEntry (Entries.insert entries key v) stack

/-- A token where a value is expected. -/
def beginValue (stack : List Frame) : Token → Option State
  | .scalar v => some (deliver v stack)
  | .openArray => if stack.length < maxDepth then some (.firstItem stack) else none
  | .openObject => if stack.length < maxDepth then some (.firstKey stack) else none
  | _ => none

/-- The next token. -/
def feed : State → Token → Option State
  | .value stack, t => beginValue stack t
  | .firstItem stack, .closeArray => some (deliver (.arr []) stack)
  | .firstItem stack, t => beginValue (.array [] :: stack) t
  | .afterItem items stack, .comma => some (.value (.array items :: stack))
  | .afterItem items stack, .closeArray => some (deliver (.arr items.reverse) stack)
  | .firstKey stack, .closeObject => some (deliver (.obj []) stack)
  | .firstKey stack, .scalar (.str key) => some (.afterKey [] key stack)
  | .nextKey entries stack, .scalar (.str key) => some (.afterKey entries key stack)
  | .afterKey entries key stack, .colon => some (.value (.object entries key :: stack))
  | .afterEntry entries stack, .comma => some (.nextKey entries stack)
  | .afterEntry entries stack, .closeObject => some (deliver (.obj entries) stack)
  | _, _ => none

/-- The value when all tokens have been fed. -/
def finish : State → List Token → Option Json
  | .complete v, [] => some v
  | _, [] => none
  | s, t :: rest =>
    match s.feed t with
    | some next => finish next rest
    | none => none

end State

/-- The value that a text writes, if the text is JSON. -/
def parse? (s : String) : Option Json :=
  (Scan.run .idle s.toList).bind (State.finish (.value []))

end QueryScript.Json
