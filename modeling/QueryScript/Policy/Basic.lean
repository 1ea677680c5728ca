import QueryScript.Policy.Wildcard

/-!
# Policies

A policy permits names.  Without a mode it permits all of them; an allow list permits the
names that an entry covers, a block list those that none covers.
-/

namespace QueryScript

/-- How the entries of a policy are applied. -/
inductive PolicyMode where
  | none
  | allow
  | block
deriving DecidableEq, Repr, Inhabited

/-- The mode's name as configuration writes it. -/
def PolicyMode.text : PolicyMode → String
  | .none => "none"
  | .allow => "allow"
  | .block => "block"

/-- The mode's name as a title. -/
def PolicyMode.label : PolicyMode → String
  | .none => "None"
  | .allow => "Allow"
  | .block => "Block"

/-- The mode with a name. -/
def PolicyMode.ofText? (s : String) : Option PolicyMode :=
  [PolicyMode.none, .allow, .block].find? (·.text == s)

/-- A policy as it is configured. -/
structure PolicySettings where
  mode : PolicyMode := .none
  list : List String := []
deriving DecidableEq, Repr, Inhabited

/-- A policy with its entries read. -/
structure Policy where
  mode : PolicyMode
  entries : List Wildcard
deriving DecidableEq, Repr

namespace Policy

/-- The policy that permits everything. -/
def permitAll : Policy := ⟨.none, []⟩

/-- The policy that settings describe. -/
def ofSettings (settings : PolicySettings) : Except Error Policy := do
  let entries ← settings.list.mapM Wildcard.ofText
  return ⟨settings.mode, entries⟩

/-- The first entry that covers a name. -/
def matching? (policy : Policy) (name : String) : Option Wildcard :=
  policy.entries.find? (·.covers name)

/-- Whether the policy permits a name. -/
def permits (policy : Policy) (name : String) : Bool :=
  match policy.mode with
  | .none => true
  | .allow => (policy.matching? name).isSome
  | .block => (policy.matching? name).isNone

/-- Why the policy refuses a name, if it does. -/
def refusal? (policy : Policy) (name : String) : Option String :=
  match policy.mode with
  | .none => none
  | .allow =>
    match policy.matching? name with
    | some _ => none
    | none => some "not in allow list"
  | .block => (policy.matching? name).map fun w => "matches blocked pattern '" ++ w.text ++ "'"

end Policy

end QueryScript
