import QueryScript.Text.Ascii

/-!
# Actions

An action name is a base name, possibly with a combinator in front (`and`, `or`) and a
negation inside (`whereNot…`).  `normalize` takes a name apart; it loses nothing but the case
of letters.  Every base name has one `Route`, the kind of call it makes on the query builder,
and `route?` finds the route of a registered name.
-/

namespace QueryScript

/-- The kind of call an action makes on the query builder. -/
inductive Route where
  | fromTable
  | fromRaw
  | fromSub
  | select
  | selectRaw
  | subSelect
  | join
  | joinRaw
  | joinSub
  | whereClause
  | whereRaw
  | whereExists
  | groupBy
  | having
  | havingRaw
  | orderBy
  | orderByRaw
  | clearOrders
  | limit
  | offset
  | forPage
  | lock
  | union
  | withQuery
deriving DecidableEq, Repr

namespace Route

/-- The route's name as it is shown. -/
def label : Route → String
  | .fromTable => "From"
  | .fromRaw => "FromRaw"
  | .fromSub => "FromSub"
  | .select => "Select"
  | .selectRaw => "SelectRaw"
  | .subSelect => "SubSelect"
  | .join => "Join"
  | .joinRaw => "JoinRaw"
  | .joinSub => "JoinSub"
  | .whereClause => "Where"
  | .whereRaw => "WhereRaw"
  | .whereExists => "WhereExists"
  | .groupBy => "GroupBy"
  | .having => "Having"
  | .havingRaw => "HavingRaw"
  | .orderBy => "OrderBy"
  | .orderByRaw => "OrderByRaw"
  | .clearOrders => "ClearOrders"
  | .limit => "Limit"
  | .offset => "Offset"
  | .forPage => "ForPage"
  | .lock => "Lock"
  | .union => "Union"
  | .withQuery => "With"

/-- Routes whose first argument is SQL text. -/
def isRaw : Route → Bool
  | .fromRaw | .selectRaw | .joinRaw | .whereRaw | .havingRaw | .orderByRaw => true
  | _ => false

/-- Routes whose first argument names a table. -/
def takesTable : Route → Bool
  | .fromTable | .join => true
  | _ => false

/-- Routes that take a list of columns as one argument. -/
def takesColumnList : Route → Bool
  | .select | .groupBy => true
  | _ => false

/-- Routes that are built from a nested query. -/
def needsSubquery : Route → Bool
  | .fromSub | .subSelect | .joinSub | .whereExists | .union | .withQuery => true
  | _ => false

/-- Routes that accept a group of clauses. -/
def acceptsClauses : Route → Bool
  | .whereClause | .having => true
  | _ => false

/-- Routes that set a cap on the number of rows. -/
def setsLimit : Route → Bool
  | .limit | .forPage => true
  | _ => false

end Route

namespace Action

/-- The base names with their routes. -/
def baseRoutes : List (String × Route) :=
  [("from", .fromTable), ("table", .fromTable), ("fromRaw", .fromRaw), ("fromSub", .fromSub),
    ("select", .select), ("addSelect", .select), ("distinct", .select),
    ("selectRaw", .selectRaw), ("addSelectRaw", .selectRaw), ("subSelect", .subSelect),
    ("join", .join), ("innerJoin", .join), ("leftJoin", .join), ("rightJoin", .join),
    ("leftOuterJoin", .join), ("rightOuterJoin", .join), ("fullJoin", .join),
    ("crossJoin", .join), ("joinRaw", .joinRaw), ("leftJoinRaw", .joinRaw),
    ("rightJoinRaw", .joinRaw), ("crossJoinRaw", .joinRaw), ("joinSub", .joinSub),
    ("leftJoinSub", .joinSub), ("rightJoinSub", .joinSub), ("crossJoinSub", .joinSub),
    ("where", .whereClause), ("whereColumn", .whereClause), ("whereIn", .whereClause),
    ("whereBetween", .whereClause), ("whereLike", .whereClause), ("whereNull", .whereClause),
    ("whereRaw", .whereRaw), ("whereExists", .whereExists), ("groupBy", .groupBy),
    ("having", .having), ("havingRaw", .havingRaw), ("orderBy", .orderBy),
    ("orderByAsc", .orderBy), ("orderByDesc", .orderBy), ("orderByRaw", .orderByRaw),
    ("reorder", .clearOrders), ("clearOrders", .clearOrders), ("limit", .limit),
    ("take", .limit), ("offset", .offset), ("skip", .offset), ("forPage", .forPage),
    ("lock", .lock), ("lockForUpdate", .lock), ("sharedLock", .lock), ("noLock", .lock),
    ("union", .union), ("unionAll", .union), ("with", .withQuery),
    ("withRecursive", .withQuery)]

/-- The base names that may follow `and` or `or`. -/
def combinable : List String :=
  ["where", "whereColumn", "whereIn", "whereBetween", "whereLike", "whereNull", "whereRaw",
    "whereExists", "having", "havingRaw"]

/-- The base names that have a negated form. -/
def negatable : List String :=
  ["where", "whereIn", "whereBetween", "whereLike", "whereNull", "whereExists"]

/-- The negated form of a base name: `whereIn` becomes `whereNotIn`. -/
def negate (base : String) : String :=
  String.ofList ("whereNot".toList ++ base.toList.drop 5)

/-- The two forms of a name with a combinator in front. -/
def combinedForms (name : String) : List String :=
  ["and" ++ Text.capitalize name, "or" ++ Text.capitalize name]

/-- The base names. -/
def baseNames : List String :=
  baseRoutes.map (·.1)

/-- The names with a combinator and without negation. -/
def combinedNames : List String :=
  combinable.flatMap combinedForms

/-- The negated names, with and without a combinator. -/
def negatedNames : List String :=
  negatable.flatMap fun base => negate base :: combinedForms (negate base)

/-- Every registered action name. -/
def names : List String :=
  baseNames ++ combinedNames ++ negatedNames

/-- The registered names in ascending order. -/
def sortedNames : List String :=
  names.mergeSort fun a b => decide (a ≤ b)

/-- The base names in ascending order. -/
def sortedBaseNames : List String :=
  baseNames.mergeSort fun a b => decide (a ≤ b)

/-- Whether a name is registered. -/
def isRegistered (name : String) : Bool :=
  names.contains name

/-- The route of a base name. -/
def baseRoute? (base : String) : Option Route :=
  baseRoutes.lookup base

/-- How a clause joins the clauses before it. -/
inductive Combinator where
  | plain
  | and
  | or
deriving DecidableEq, Repr

/-- The combinator as it is written. -/
def Combinator.text : Combinator → String
  | .plain => ""
  | .and => "and"
  | .or => "or"

/-- An action name taken apart. -/
structure NormalForm where
  base : String
  combinator : Combinator
  negated : Bool
deriving DecidableEq, Repr

/-- The combinator in front of a name and the rest.  `and` and `or` count only before a
capital, so `orderBy` has none. -/
def splitCombinator : List Char → Combinator × List Char
  | 'a' :: 'n' :: 'd' :: c :: rest =>
    if c.isUpper then (.and, c :: rest) else (.plain, 'a' :: 'n' :: 'd' :: c :: rest)
  | 'o' :: 'r' :: c :: rest =>
    if c.isUpper then (.or, c :: rest) else (.plain, 'o' :: 'r' :: c :: rest)
  | cs => (.plain, cs)

/-- Whether the characters begin with `whereNot`, in any case. -/
def isNegated (cs : List Char) : Bool :=
  "wherenot".toList.isPrefixOf (cs.map Char.toLower)

/-- The combinator, the negation and the base of a name. -/
def normalize (name : String) : NormalForm :=
  let (combinator, rest) := splitCombinator name.toList
  let body := Text.decapitalize rest
  if isNegated body then ⟨String.ofList (body.take 5 ++ body.drop 8), combinator, true⟩
  else ⟨String.ofList body, combinator, false⟩

/-- The route of a registered name. -/
def route? (name : String) : Option Route :=
  if isRegistered name then baseRoute? (normalize name).base else none

/-- The keys of an action object that never name an action. -/
def reservedKeys : List String :=
  ["when", "else", "query", "on", "clauses", "alias", "datasource", "timeout", "username",
    "password", "returnFormat"]

/-- Whether a key is reserved. -/
def isReserved (key : String) : Bool :=
  reservedKeys.contains key

end Action

end QueryScript
