import QueryScript.Text.Ascii

/-!
# Categories of catalog rules

A category is one of nine known ones, named in any case, or a name of the deployment's own.
-/

namespace QueryScript

/-- What kind of danger a catalog rule guards against. -/
inductive Category where
  | statement
  | comment
  | sqlServer
  | mysql
  | postgres
  | oracle
  | timing
  | injection
  | encoding
  | custom (name : String)
deriving DecidableEq, Repr

namespace Category

/-- The known categories. -/
def known : List Category :=
  [.statement, .comment, .sqlServer, .mysql, .postgres, .oracle, .timing, .injection, .encoding]

/-- The category's name. -/
def name : Category → String
  | .statement => "statement"
  | .comment => "comment"
  | .sqlServer => "sqlserver"
  | .mysql => "mysql"
  | .postgres => "postgres"
  | .oracle => "oracle"
  | .timing => "timing"
  | .injection => "injection"
  | .encoding => "encoding"
  | .custom name => name

/-- The category with a name. -/
def ofName (s : String) : Category :=
  match known.find? (·.name == Text.lower s) with
  | some c => c
  | none => .custom s

/-- Whether the category is the deployment's own. -/
def isCustom : Category → Bool
  | .custom _ => true
  | _ => false

end Category

end QueryScript
