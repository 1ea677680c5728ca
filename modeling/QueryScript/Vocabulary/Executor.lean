/-!
# Executors

An executor ends a definition: it says what to ask of the query that the actions built.
-/

namespace QueryScript

/-- What is asked of a query. -/
inductive Executor where
  | get
  | first
  | find
  | value
  | values
  | count
  | sum
  | avg
  | min
  | max
  | exists
  | paginate
  | simplePaginate
  | toSql
  | dump
deriving DecidableEq, Repr

namespace Executor

/-- The executors in the order they are listed. -/
def all : List Executor :=
  [.get, .first, .find, .value, .values, .count, .sum, .avg, .min, .max, .exists, .paginate,
    .simplePaginate, .toSql, .dump]

/-- The executor's name. -/
def name : Executor → String
  | .get => "get"
  | .first => "first"
  | .find => "find"
  | .value => "value"
  | .values => "values"
  | .count => "count"
  | .sum => "sum"
  | .avg => "avg"
  | .min => "min"
  | .max => "max"
  | .exists => "exists"
  | .paginate => "paginate"
  | .simplePaginate => "simplePaginate"
  | .toSql => "toSQL"
  | .dump => "dump"

/-- The executor with a name. -/
def ofName? (name : String) : Option Executor :=
  all.find? (·.name == name)

/-- Executors that answer with a list of rows or cells. -/
def returnsRows : Executor → Bool
  | .get | .values => true
  | _ => false

/-- Executors that answer with a page. -/
def isPaginated : Executor → Bool
  | .paginate | .simplePaginate => true
  | _ => false

theorem ofName?_name (e : Executor) : ofName? e.name = some e := by
  cases e <;> rfl

end Executor

end QueryScript
