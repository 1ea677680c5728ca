import QueryScript.Error
import QueryScript.Json.Printer
import QueryScript.Json.Reader

/-!
# Result formats

The caller chooses the shape of a list of rows: as it is, as a table, or as an object keyed by
one column.  A format is written as its name, as a list that starts with the name, or as text,
where a list is written in JSON.
-/

namespace QueryScript

/-- The shape of a result. -/
inductive Format where
  | array
  | query
  | tabular
  /-- An object keyed by a column, whose values are rows or the cells of `values`. -/
  | struct (column : String) (values : List String)
deriving DecidableEq, Repr, Inhabited

namespace Format

/-- The format with a bare name. -/
def ofName (name : String) : Except Error Format :=
  match name with
  | "array" => .ok .array
  | "query" => .ok .query
  | "tabular" => .ok .tabular
  | "struct" =>
    .error (.format "struct requires a column key: [\"struct\", columnKey, valueKeys?]")
  | other => .error (.format ("unknown format '" ++ other ++ "'"))

/-- The value keys in a text, separated by commas. -/
def keysInText (s : String) : List String :=
  let pieces := Text.splitChars (· == ',') s.toList
  (pieces.map fun piece => String.ofList (Text.trimChars piece)).filter (· ≠ "")

/-- A value key in a list. -/
def keyInList (v : Json) : Except Error String :=
  match v with
  | .str s => .ok s
  | v => .error (.format ("value key must be a string, got " ++ v.compact))

/-- The value keys after the column key. -/
def valueKeys : List Json → Except Error (List String)
  | [] => .ok []
  | .null :: _ => .ok []
  | .str s :: _ => .ok (keysInText s)
  | .arr keys :: _ => keys.mapM keyInList
  | v :: _ => .error (.format ("unexpected value keys " ++ v.compact))

/-- The arguments of `struct`. -/
def structOf (rest : List Json) : Except Error Format :=
  match rest with
  | .str column :: more =>
    if column = "" then .error (.format "struct requires a string column key")
    else do
      let values ← valueKeys more
      return .struct column values
  | _ => .error (.format "struct requires a string column key")

/-- A format written as a list. -/
def ofList : List Json → Except Error Format
  | [] => .error (.format "empty format tuple")
  | .str name :: rest =>
    if name = "struct" then structOf rest
    else if rest.isEmpty then ofName name
    else .error (.format ("only struct takes arguments, got " ++ Json.quote name))
  | head :: _ => .error (.format ("only struct takes arguments, got " ++ head.compact))

/-- The format that a value writes. -/
def ofJson : Json → Except Error Format
  | .str name => ofName name
  | .arr parts => ofList parts
  | v => .error (.format ("unexpected format value " ++ v.compact))

/-- The format that a text writes: a list in JSON, or a bare name. -/
def ofText (s : String) : Except Error Format :=
  let text := Text.trim s
  if text.toList.head? = some '[' then
    match Json.parse? text with
    | some v => ofJson v
    | none => .error .json
  else ofName text

/-- The format as a value. -/
def toJson : Format → Json
  | .array => .str "array"
  | .query => .str "query"
  | .tabular => .str "tabular"
  | .struct column values =>
    .arr ([.str "struct", .str column] ++
      if values.isEmpty then [] else [.arr (values.map .str)])

/-- The format as text. -/
def text (f : Format) : String :=
  match f.toJson with
  | .str s => s
  | v => v.compact

/-- Whether the format wants the driver's own result. -/
def wantsNative : Format → Bool
  | .query | .tabular => true
  | _ => false

end Format

end QueryScript
