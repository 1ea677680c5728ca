/-!
# Connection options

What an executor is told beside its arguments: where to run, for how long, as whom, and
whether the driver's own result is wanted.
-/

namespace QueryScript

/-- The options of one execution; an absent field leaves the choice to others. -/
structure Options where
  datasource : Option String := none
  /-- The time limit in seconds. -/
  timeout : Option Nat := none
  username : Option String := none
  password : Option String := none
  /-- Whether the driver's own result set is wanted. -/
  native : Bool := false
deriving DecidableEq, Repr, Inhabited

namespace Options

/-- No options. -/
def default : Options := {}

/-- The options with those of `higher` laid over them: what `higher` sets wins. -/
def overlay (lower higher : Options) : Options where
  datasource := higher.datasource <|> lower.datasource
  timeout := higher.timeout <|> lower.timeout
  username := higher.username <|> lower.username
  password := higher.password <|> lower.password
  native := lower.native || higher.native

end Options

end QueryScript
