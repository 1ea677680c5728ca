/-!
# Errors

Every failure is a cause: which rule was broken and by what.  `code` is the stable name of the
kind of failure, `message` its wording, and `isSecurity` tells the refusals of the security
rules from other failures.
-/

namespace QueryScript

/-- The actions that need a nested query. -/
inductive SubqueryFamily where
  | fromSub
  | subSelect
  | joinSub
  | whereExists
  | union
  | cte
deriving DecidableEq, Repr

/-- The family's name in messages. -/
def SubqueryFamily.label : SubqueryFamily → String
  | .fromSub => "fromSub"
  | .subSelect => "subSelect"
  | .joinSub => "joinSub"
  | .whereExists => "whereExists"
  | .union => "union"
  | .cte => "CTE"

/-- The family's name in codes. -/
def SubqueryFamily.code : SubqueryFamily → String
  | .fromSub => "FROM_SUB"
  | .subSelect => "SUB_SELECT"
  | .joinSub => "JOIN_SUB"
  | .whereExists => "WHERE_EXISTS"
  | .union => "UNION"
  | .cte => "CTE"

/-- Why something was refused. -/
inductive Error where
  /-- The check of a whole definition failed. -/
  | violation (cause : Error)
  /-- The action policy refuses the action. -/
  | actionDenied (name : String)
  /-- The executor policy refuses the executor. -/
  | executorDenied (name : String)
  /-- A table reference is malformed or refused by the table policy. -/
  | table (reference reason : String)
  /-- Raw SQL text matches a rule of the catalog. -/
  | dangerousSql (category rule : String)
  /-- A raw marker is malformed. -/
  | rawMarker (detail : String)
  /-- An action lacks the name or the query it needs. -/
  | subquery (family : SubqueryFamily) (detail : String)
  /-- The column that should give the keys of a result is missing. -/
  | columnKey (key : String)
  /-- A column that should give the values of a result is missing. -/
  | valueKey (key : String)
  /-- The definition has the wrong shape. -/
  | definition (detail : String)
  /-- The result format is unknown or malformed. -/
  | format (detail : String)
  /-- An argument is refused before the query builder sees it. -/
  | argument (detail : String)
  /-- The query builder refuses a call. -/
  | builder (detail : String)
  /-- The configuration is wrong. -/
  | config (detail : String)
  /-- A text is not JSON. -/
  | json
  /-- A file cannot be read. -/
  | io (detail : String)
deriving DecidableEq, Repr

namespace Error

/-- The failure as a violation found before anything was built; a violation stays as it is. -/
def asViolation : Error → Error
  | .violation cause => .violation cause
  | e => .violation e

/-- The stable name of the kind of failure. -/
def code : Error → String
  | .violation _ => "SECURITY_VIOLATION"
  | .actionDenied _ => "ACTION_NOT_ALLOWED"
  | .executorDenied _ => "EXECUTOR_NOT_ALLOWED"
  | .table _ _ => "INVALID_TABLE"
  | .dangerousSql _ _ => "INVALID_RAW_EXPRESSION"
  | .rawMarker _ => "INVALID_RAW"
  | .subquery family _ => "INVALID_" ++ family.code
  | .columnKey _ => "INVALID_COLUMN_KEY"
  | .valueKey _ => "INVALID_VALUE_KEY"
  | .definition _ => "INVALID_QUERY"
  | .format _ => "INVALID_FORMAT"
  | .argument _ => "INVALID_ARGUMENT"
  | .builder _ => "BUILDER_ERROR"
  | .config _ => "CONFIG_ERROR"
  | .json => "JSON_ERROR"
  | .io _ => "IO_ERROR"

/-- The wording of the failure. -/
def message : Error → String
  | .violation cause => "Security violation: " ++ cause.message
  | .actionDenied name => "Action not allowed: '" ++ name ++ "'"
  | .executorDenied name => "Executor not allowed: '" ++ name ++ "'"
  | .table reference reason => "Invalid table '" ++ reference ++ "': " ++ reason
  | .dangerousSql category rule =>
    "Invalid raw expression: matched " ++ category ++ " pattern '" ++ rule ++ "'"
  | .rawMarker detail => "Invalid $raw reference: " ++ detail
  | .subquery family detail => "Invalid " ++ family.label ++ ": " ++ detail
  | .columnKey key => "Invalid column key: '" ++ key ++ "' is not a column of the result"
  | .valueKey key => "Invalid value key: '" ++ key ++ "' is not a column of the result"
  | .definition detail => "Invalid query definition: " ++ detail
  | .format detail => "Invalid return format: " ++ detail
  | .argument detail => "Invalid argument: " ++ detail
  | .builder detail => "Builder error: " ++ detail
  | .config detail => "Configuration error: " ++ detail
  | .json => "JSON error: not a JSON text"
  | .io detail => "IO error: " ++ detail

/-- Whether the failure is a refusal by the security rules. -/
def isSecurity : Error → Bool
  | .violation _ => true
  | .actionDenied _ => true
  | .executorDenied _ => true
  | .table _ _ => true
  | .dangerousSql _ _ => true
  | _ => false

/-- The failure inside a violation. -/
def cause? : Error → Option Error
  | .violation cause => some cause
  | _ => none

/-- The wording of the failure, followed by that of the failure inside it. -/
def chain : Error → String
  | .violation cause => (violation cause).message ++ ": " ++ cause.chain
  | e => e.message

end Error

end QueryScript
