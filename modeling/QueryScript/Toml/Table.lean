import QueryScript.Json.Basic

/-!
# TOML tables

A document is a table that grows statement by statement.  A table remembers how it came into
being, because that decides what may still be added: one that only lies on the way to another
may later get a header of its own, one made by dotted keys grows by dotted keys only, and a
value is closed.
-/

namespace QueryScript.Toml

/-- What stands under a key of a table. -/
inductive Node where
  /-- A closed value. -/
  | value (v : Json)
  /-- A table; whether it only lies on the way to another, and whether dotted keys made it. -/
  | table (isImplicit isDotted : Bool) (entries : List (String × Node))
  /-- Tables under one repeated header, last first. -/
  | tables (items : List (List (String × Node)))

/-- The entries of a table. -/
abbrev Nodes := List (String × Node)

namespace Nodes

/-- The entries with the node under a key set. -/
def set : Nodes → String → Node → Nodes
  | [], key, node => [(key, node)]
  | (k, n) :: rest, key, node =>
    if k = key then (k, node) :: rest else (k, n) :: set rest key node

/-- Changes the table at the end of a path, making the tables that are missing.  The change is
given whether dotted keys made the table.  Dotted keys do not enter tables that have a header. -/
def alter (byDots : Bool) (change : Bool → Nodes → Option Nodes) :
    List String → Bool → Nodes → Option Nodes
  | [], isDotted, nodes => change isDotted nodes
  | key :: path, _, nodes =>
    match nodes.lookup key with
    | none => do
      let inner ← alter byDots change path byDots []
      return nodes.set key (.table true byDots inner)
    | some (.value _) => none
    | some (.tables []) => none
    | some (.tables (current :: earlier)) => do
      let inner ← alter byDots change path false current
      return nodes.set key (.tables (inner :: earlier))
    | some (.table isImplicit isDotted entries) =>
      if byDots && !isImplicit then none
      else do
        let inner ← alter byDots change path isDotted entries
        return nodes.set key (.table isImplicit isDotted inner)

/-- Adds a value under a new key. -/
def addNew (key : String) (v : Json) (nodes : Nodes) : Option Nodes :=
  match nodes.lookup key with
  | some _ => none
  | none => some (nodes.set key (.value v))

/-- Adds a value under a dotted key; a path leads only through tables made by dotted keys. -/
def assign (path : List String) (key : String) (v : Json) (nodes : Nodes) : Option Nodes :=
  nodes.alter true
    (fun isDotted inner => if isDotted == path.isEmpty then none else addNew key v inner)
    path false

/-- Adds a value under a dotted key of the table that a header opened. -/
def assignIn (header path : List String) (key : String) (v : Json) (nodes : Nodes) :
    Option Nodes :=
  nodes.alter false (fun _ inner => inner.assign path key v) header false

/-- Opens the table under a key, which no header may have opened before. -/
def openKey (key : String) (nodes : Nodes) : Option Nodes :=
  match nodes.lookup key with
  | none => some (nodes.set key (.table false false []))
  | some (.table true false entries) => some (nodes.set key (.table false false entries))
  | some _ => none

/-- Opens one more table under a key whose earlier ones have the same kind of header. -/
def pushKey (key : String) (nodes : Nodes) : Option Nodes :=
  match nodes.lookup key with
  | none => some (nodes.set key (.tables [[]]))
  | some (.tables items) => some (nodes.set key (.tables ([] :: items)))
  | some _ => none

/-- Opens the table of a header. -/
def openTable (repeated : Bool) (path : List String) (key : String) (nodes : Nodes) :
    Option Nodes :=
  nodes.alter false (fun _ inner => if repeated then inner.pushKey key else inner.openKey key)
    path false

end Nodes

mutual

/-- The value that a node stands for. -/
def Node.toJson : Node → Json
  | .value v => v
  | .table _ _ entries => .obj (Nodes.entriesJson entries)
  | .tables items => .arr (Nodes.tablesJson items).reverse

/-- The entries with their values. -/
def Nodes.entriesJson : List (String × Node) → List (String × Json)
  | [] => []
  | (key, node) :: rest => (key, node.toJson) :: Nodes.entriesJson rest

/-- Each table as an object. -/
def Nodes.tablesJson : List (List (String × Node)) → List Json
  | [] => []
  | entries :: rest => .obj (Nodes.entriesJson entries) :: Nodes.tablesJson rest

end

end QueryScript.Toml
