import QueryScript.Error
import QueryScript.Json.Marker
import QueryScript.Json.Printer

/-!
# Arguments of builder calls

An argument is a plain value unless raw SQL occurs in it; then the lists and maps around the
raw SQL are kept as such.  `Argument.ofJson` turns a value with raw markers into an argument,
screening the SQL of every marker; `Argument.text` shows an argument the same way whichever
representation carries it.
-/

namespace QueryScript

/-- SQL text with the values bound in it. -/
structure RawSql where
  sql : String
  bindings : List Json
deriving Repr

/-- A resolved argument. -/
inductive Argument where
  | value (v : Json)
  | raw (r : RawSql)
  | list (items : List Argument)
  | map (entries : List (String × Argument))
deriving Repr

/-- Raw SQL as it is shown: the text, and the bindings if there are any. -/
def RawSql.text (r : RawSql) : String :=
  if r.bindings.isEmpty then "raw(" ++ Json.quote r.sql ++ ")"
  else "raw(" ++ Json.quote r.sql ++ "," ++ Json.compact (.arr r.bindings) ++ ")"

namespace Argument

mutual

/-- The argument as it is shown. -/
def text : Argument → String
  | .value v => v.compact
  | .raw r => r.text
  | .list items => "[" ++ textItems items ++ "]"
  | .map entries => "\x7b" ++ textEntries entries ++ "\x7d"

/-- The items as they are shown, with commas between them. -/
def textItems : List Argument → String
  | [] => ""
  | [a] => text a
  | a :: rest => text a ++ "," ++ textItems rest

/-- The entries as they are shown, with commas between them. -/
def textEntries : List (String × Argument) → String
  | [] => ""
  | [(k, a)] => Json.quote k ++ ":" ++ text a
  | (k, a) :: rest => Json.quote k ++ ":" ++ text a ++ "," ++ textEntries rest

end

/-- The plain value, if no raw SQL is involved. -/
def value? : Argument → Option Json
  | .value v => some v
  | _ => none

/-- The text of a plain string. -/
def string? (a : Argument) : Option String :=
  a.value?.bind Json.string?

/-- Whether the argument is raw SQL itself. -/
def isRaw : Argument → Bool
  | .raw _ => true
  | _ => false

/-- The SQL text of a raw marker's payload. -/
def payloadSql : Json → Except Error String
  | .str sql => .ok sql
  | .obj es =>
    match (Entries.get? es "sql").bind Json.string? with
    | some sql => .ok sql
    | none => .error (.rawMarker "object form requires a string 'sql' field")
  | v => .error (.rawMarker ("expected a string or an object, got " ++ v.kindName))

/-- The bindings of a raw marker's payload. -/
def payloadBindings (payload : Json) : Except Error (List Json) :=
  match payload.field? "bindings" with
  | none => .ok []
  | some .null => .ok []
  | some (.arr items) => .ok items
  | some _ => .error (.rawMarker "'bindings' must be an array")

/-- The raw SQL of a marker's payload, screened by `check`. -/
def ofPayload (check : String → Except Error Unit) (payload : Json) : Except Error Argument := do
  let sql ← payloadSql payload
  let bindings ← payloadBindings payload
  check sql
  return .raw ⟨sql, bindings⟩

mutual

/-- The argument for a value: raw markers become raw SQL, and values without markers stay
plain. -/
def ofJson (check : String → Except Error Unit) : Json → Except Error Argument
  | .arr xs =>
    if Json.containsRawItems xs then (ofItems check xs).map .list else .ok (.value (.arr xs))
  | .obj es =>
    match Entries.get? es Json.rawKey with
    | some payload => ofPayload check payload
    | none =>
      if Json.containsRawEntries es then (ofEntries check es).map .map
      else .ok (.value (.obj es))
  | v => .ok (.value v)

/-- The arguments for a list of values. -/
def ofItems (check : String → Except Error Unit) : List Json → Except Error (List Argument)
  | [] => .ok []
  | x :: rest =>
    match ofJson check x with
    | .error e => .error e
    | .ok a =>
      match ofItems check rest with
      | .error e => .error e
      | .ok as => .ok (a :: as)

/-- The arguments for the values of entries. -/
def ofEntries (check : String → Except Error Unit) :
    List (String × Json) → Except Error (List (String × Argument))
  | [] => .ok []
  | (k, v) :: rest =>
    match ofJson check v with
    | .error e => .error e
    | .ok a =>
      match ofEntries check rest with
      | .error e => .error e
      | .ok as => .ok ((k, a) :: as)

end

/-- A list of positional arguments; without any marker there is nothing to screen. -/
def resolveAll (check : String → Except Error Unit) (args : List Json) :
    Except Error (List Argument) :=
  if Json.containsRawItems args then ofItems check args else .ok (args.map .value)

end Argument

end QueryScript
