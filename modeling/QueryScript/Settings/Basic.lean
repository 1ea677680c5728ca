import QueryScript.Catalog.Basic
import QueryScript.Options
import QueryScript.Policy.Basic
import QueryScript.Result.Format

/-!
# Settings

What a deployment configures: the security rules, and what holds when neither a definition nor
a caller says otherwise.
-/

namespace QueryScript

/-- The security rules. -/
structure SecuritySettings where
  tables : PolicySettings := {}
  actions : PolicySettings := {}
  executors : PolicySettings := {}
  /-- Friendly table names with the actual ones, ascending by friendly name. -/
  tableAliases : List (String × String) := []
  /-- Rules beside the built-in ones. -/
  rawPatterns : List RuleSettings := []
  /-- Whether the built-in rules are left out. -/
  replaceDefaultPatterns : Bool := false
deriving DecidableEq, Repr, Inhabited

/-- What holds unless something else is said. -/
structure DefaultSettings where
  returnFormat : Option Format := none
  /-- The cap on rows for executors that answer with rows. -/
  maxRows : Option Nat := none
  datasource : Option String := none
  timeout : Option Nat := none
  username : Option String := none
  password : Option String := none
deriving DecidableEq, Repr, Inhabited

/-- The connection options among the defaults. -/
def DefaultSettings.options (d : DefaultSettings) : Options where
  datasource := d.datasource
  timeout := d.timeout
  username := d.username
  password := d.password

/-- The settings of a deployment. -/
structure Settings where
  security : SecuritySettings := {}
  defaults : DefaultSettings := {}
deriving DecidableEq, Repr, Inhabited

/-- A map from texts to texts, ascending by key, with one entry set. -/
def insertSorted (entries : List (String × String)) (key value : String) :
    List (String × String) :=
  match entries with
  | [] => [(key, value)]
  | (k, v) :: rest =>
    if k = key then (key, value) :: rest
    else if key < k then (key, value) :: (k, v) :: rest
    else (k, v) :: insertSorted rest key value

namespace Settings

/-- The settings with one more friendly name. -/
def addTableAlias (s : Settings) (friendly actual : String) : Settings :=
  { s with security :=
      { s.security with tableAliases := insertSorted s.security.tableAliases friendly actual } }

/-- The settings with one more rule. -/
def addRawPattern (s : Settings) (rule : RuleSettings) : Settings :=
  { s with security := { s.security with rawPatterns := s.security.rawPatterns ++ [rule] } }

end Settings

end QueryScript
