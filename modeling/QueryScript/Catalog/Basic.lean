import QueryScript.Catalog.Category
import QueryScript.Catalog.Screen
import QueryScript.Error
import QueryScript.Pattern.Reader

/-!
# The catalog of dangerous SQL

A catalog is a list of rules, each a pattern with keywords.  `findMatch?` first screens a
fragment by the keywords of all rules, and only if one hits tries the patterns in order.
-/

namespace QueryScript

/-- A catalog rule as it is configured. -/
structure RuleSettings where
  category : Category
  name : String
  pattern : String
  keywords : List String
deriving DecidableEq, Repr

/-- A catalog rule with its pattern read. -/
structure Rule where
  category : Category
  name : String
  pattern : Pattern
deriving DecidableEq, Repr

/-- A rule that matched, and the text it matched. -/
structure Hit where
  category : Category
  name : String
  matched : String
deriving DecidableEq, Repr

/-- Rules and the screen before them. -/
structure Catalog where
  rules : List Rule
  screen : Screen
deriving DecidableEq, Repr

namespace Catalog

/-- The catalog without rules. -/
def empty : Catalog := ⟨[], .empty⟩

/-- The rule that settings describe.  A rule needs keywords, or it would never be tried. -/
def readRule (settings : RuleSettings) : Except Error Rule :=
  if settings.keywords = [] then
    .error (.config ("raw pattern '" ++ settings.name ++ "' has no screening keywords"))
  else
    match Pattern.parse? settings.pattern with
    | some pattern => .ok ⟨settings.category, settings.name, pattern⟩
    | none => .error (.config ("invalid raw pattern '" ++ settings.name ++ "': regex parse error"))

/-- The catalog of the rules that settings describe. -/
def ofSettings (settings : List RuleSettings) : Except Error Catalog := do
  let rules ← settings.mapM readRule
  return ⟨rules, (settings.flatMap (·.keywords)).foldl Screen.add .empty⟩

/-- Whether a fragment passes the screen to the patterns. -/
def screens (catalog : Catalog) (fragment : String) : Bool :=
  catalog.screen.hits fragment

/-- What a rule finds in a fragment. -/
def hit? (fragment : String) (rule : Rule) : Option Hit :=
  (rule.pattern.find? fragment).map fun matched => ⟨rule.category, rule.name, matched⟩

/-- The first rule that matches a fragment; a fragment without keywords is safe. -/
def findMatch? (catalog : Catalog) (fragment : String) : Option Hit :=
  if catalog.screens fragment then catalog.rules.findSome? (hit? fragment) else none

/-- Refuses a fragment that a rule matches. -/
def check (catalog : Catalog) (fragment : String) : Except Error Unit :=
  match catalog.findMatch? fragment with
  | none => .ok ()
  | some hit => .error (.dangerousSql hit.category.name hit.name)

end Catalog

end QueryScript
