import QueryScript.Json.Marker
import QueryScript.Vocabulary.Action
import QueryScript.Vocabulary.Executor

/-!
# Arguments of actions and executors

The value of an action gives its positional arguments in one of three ways: an array is the
list of arguments, an object gives them by name, and any other value is the only argument,
where `true` and `null` mean that there is none.  `Layout.arrange` puts named arguments in
order: a missing optional argument is left out, a missing required one becomes `null` if any
argument after it is given.
-/

namespace QueryScript

/-- One named argument. -/
structure Parameter where
  key : String
  required : Bool
deriving DecidableEq, Repr

/-- A named argument that must be given. -/
def Parameter.must (key : String) : Parameter := ⟨key, true⟩

/-- A named argument that may be left out. -/
def Parameter.may (key : String) : Parameter := ⟨key, false⟩

/-- The named arguments of an action or executor, in positional order. -/
abbrev Layout := List Parameter

namespace Layout

/-- The layout up to the last argument that is given. -/
def given (layout : Layout) (es : Entries) : Layout :=
  (layout.reverse.dropWhile fun p => !Entries.has es p.key).reverse

/-- The positional arguments that one named argument contributes. -/
def contribution (es : Entries) (p : Parameter) : List Json :=
  match Entries.get? es p.key with
  | some v => [v]
  | none => if p.required then [.null] else []

/-- Named arguments in positional order. -/
def arrange (layout : Layout) (es : Entries) : List Json :=
  (layout.given es).flatMap (contribution es)

/-- The layout of an action's named arguments, by base name and, failing that, by route. -/
def ofAction? (base : String) (route : Route) : Option Layout :=
  match base with
  | "whereColumn" => some [.must "first", .may "operator", .must "second"]
  | "whereIn" => some [.must "column", .must "values"]
  | "whereBetween" => some [.must "column", .must "start", .must "end"]
  | "whereLike" => some [.must "column", .must "value"]
  | "whereNull" => some [.must "column"]
  | "orderBy" => some [.must "column", .may "direction"]
  | "orderByAsc" => some [.must "column"]
  | "orderByDesc" => some [.must "column"]
  | "forPage" => some [.must "page", .must "size"]
  | _ =>
    match route with
    | .whereClause | .having => some [.must "column", .may "operator", .must "value"]
    | .join | .joinRaw => some [.must "table", .may "first", .may "operator", .may "second"]
    | .fromRaw | .selectRaw | .whereRaw | .havingRaw | .orderByRaw =>
      some [.must "sql", .may "bindings"]
    | .fromTable => some [.must "table"]
    | .select | .groupBy => some [.must "columns"]
    | .limit | .offset => some [.must "value"]
    | .lock => some [.may "type"]
    | _ => none

/-- The layout of an executor's named arguments. -/
def ofExecutor : Executor → Layout
  | .find => [.must "id", .may "idColumn"]
  | .value | .values => [.must "column", .may "key"]
  | .count | .sum | .min | .max => [.may "column"]
  | .avg => [.must "column", .may "default"]
  | .paginate | .simplePaginate => [.must "page", .may "maxRows"]
  | .get | .first | .exists | .toSql | .dump => [.may "columns"]

end Layout

/-- The arguments given by a value without names. -/
def positionalArguments : Json → List Json
  | .arr xs => xs
  | .null => []
  | .bool true => []
  | v => [v]

/-- The positional arguments of an action.  A list of columns is one argument. -/
def actionArguments (base : String) (route : Route) (value : Json) : List Json :=
  match value with
  | .arr xs => if route.takesColumnList then [.arr xs] else xs
  | .obj es =>
    if value.isMarker then [value]
    else
      match Layout.ofAction? base route with
      | some layout => layout.arrange es
      | none => [value]
  | v => positionalArguments v

/-- The positional arguments of an executor. -/
def executorArguments (executor : Executor) (value : Json) : List Json :=
  match value with
  | .obj es => if value.isMarker then [value] else (Layout.ofExecutor executor).arrange es
  | v => positionalArguments v

end QueryScript
