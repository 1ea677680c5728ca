import QueryScript.Assembly.Basic
import QueryScript.Execution.Average
import QueryScript.Execution.Caller
import QueryScript.Execution.Request
import QueryScript.Guard.Preflight
import QueryScript.Result.Shape

/-!
# The engine

An engine interprets definitions under the settings of one deployment.  It checks a whole
definition before it makes the first call, builds the query step by step, and then asks what
the definition or, failing that, the defaults say.  Options and formats have three sources;
the caller's win over the definition's, and those over the defaults.
-/

namespace QueryScript

/-- An interpreter of definitions. -/
structure Engine where
  guard : Guard
  defaults : DefaultSettings

namespace Engine

/-- The key of a page's rows. -/
def pageRowsKey : String := "results"

/-- The engine for some settings. -/
def ofSettings (settings : Settings) : Except Error Engine := do
  let guard ← Guard.ofSettings settings.security
  return ⟨guard, settings.defaults⟩

/-- Judges the definition that a value writes. -/
def validate (engine : Engine) (value : Json) : Except Error Unit :=
  engine.guard.validate value

/-- Checks a definition, builds it, and tells whether it capped the rows. -/
def buildDefinition (engine : Engine) (definition : Definition) (params : Params) :
    Build Bool := do
  Build.lift (engine.guard.checkDefinition definition)
  Scope.assemble ⟨engine.guard, params, CteNames.collect definition⟩ definition

/-- Builds the definition that a value writes. -/
def build (engine : Engine) (value : Json) (params : Params) : Build Unit := do
  let definition ← Build.lift (Definition.ofJson value)
  let _ ← engine.buildDefinition definition params

/-- The format of a result. -/
def formatFor (engine : Engine) (request : Request) (caller : CallerOptions) : Format :=
  (caller.returnFormat <|> request.returnFormat <|> engine.defaults.returnFormat).getD .array

/-- The options of an execution.  Only the format decides whether the driver's own result is
asked for. -/
def optionsFor (engine : Engine) (request : Request) (caller : CallerOptions) : Options :=
  { (engine.defaults.options.overlay request.options).overlay caller.options with
    native := request.executor = .get && (engine.formatFor request caller).wantsNative }

/-- Caps the rows of an executor that answers with rows, unless the query is capped. -/
def capRows (engine : Engine) (request : Request) (isCapped : Bool) : Build Unit :=
  match engine.defaults.maxRows with
  | some n =>
    if request.executor.returnsRows && !isCapped then Build.limit "limit" [.value (.nat n)]
    else pure ()
  | none => pure ()

/-- The request under the cap on the number of rows, if there is one. -/
def capPage (engine : Engine) (request : Request) : Request :=
  match engine.defaults.maxRows with
  | some n => request.capped n
  | none => request

/-- Asks the query. -/
def ask (engine : Engine) (request : Request) (options : Options) : Build Answer := do
  match request.executor with
  | .avg => Average.run request.args options
  | executor =>
    let args ← Build.lift (Argument.resolveAll engine.guard.checkSql request.args)
    Build.execute executor args options

/-- The result that an answer gives: rows and pages are shaped, all else stays as it is. -/
def result (executor : Executor) (format : Format) (answer : Answer) : Except Error Json :=
  match executor with
  | .get => format.shapeAnswer answer
  | .paginate | .simplePaginate => format.shapePage pageRowsKey answer.toJson
  | _ => .ok answer.toJson

/-- Builds and asks the definition that a value writes. -/
def execute (engine : Engine) (value : Json) (caller : CallerOptions) : Build Json := do
  let definition ← Build.lift (Definition.ofJson value)
  let request ← Build.lift (Request.ofDefinition definition caller.params)
  Build.lift (engine.guard.checkExecutor request.executor.name)
  let isCapped ← engine.buildDefinition definition caller.params
  engine.capRows request isCapped
  let answer ← engine.ask (engine.capPage request) (engine.optionsFor request caller)
  Build.lift (result request.executor (engine.formatFor request caller) answer)

end Engine

end QueryScript
