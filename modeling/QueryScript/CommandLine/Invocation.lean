import QueryScript.CommandLine.Arguments
import QueryScript.Result.Format

/-!
# Invocations

Five commands, and two options that may stand before or after the name of any of them.  The
configuration file is named by the option after the command, by the one before it, or by the
environment, in this order.
-/

namespace QueryScript.CommandLine

/-- What is to be done. -/
inductive Command where
  /-- Run a definition on a recorder and show its calls and its result. -/
  | run (definition : String) (params : Option String) (format : Option Format)
      (rows : Option String) (asJson : Bool)
  /-- Check a definition. -/
  | validate (definition : String)
  /-- Screen SQL text. -/
  | checkRaw (sql : String)
  /-- List the names of actions and executors. -/
  | actions
  /-- Show how a name is routed. -/
  | explain (name : String)

/-- A command with the configuration file to use. -/
structure Invocation where
  config : Option String
  command : Command

/-- Paths must not be empty. -/
def isPath (s : String) : Bool :=
  s != ""

/-- Options of every command. -/
def commonOptions : List OptionSpec :=
  [⟨"config", some 'c', .value isPath⟩, ⟨"verbose", some 'v', .switch⟩,
    ⟨"help", some 'h', .stop .help⟩]

/-- Options before the name of the command. -/
def leadingOptions : List OptionSpec :=
  commonOptions ++ [⟨"version", some 'V', .stop .version⟩]

/-- Options of `run`. -/
def runOptions : List OptionSpec :=
  commonOptions ++
    [⟨"params", some 'p', .value fun _ => true⟩,
      ⟨"format", some 'f', .value fun s => (Format.ofText s).toOption.isSome⟩,
      ⟨"rows", none, .value isPath⟩, ⟨"json", none, .switch⟩]

/-- The command with a name, from its options and words. -/
def Command.ofReading? (name : String) (r : Reading) : Option Command :=
  match name, r.words with
  | "run", [definition] =>
    if isPath definition then
      some (.run definition (r.value? "params")
        ((r.value? "format").bind fun s => (Format.ofText s).toOption) (r.value? "rows")
        (r.has "json"))
    else none
  | "validate", [definition] => if isPath definition then some (.validate definition) else none
  | "check-raw", [sql] => some (.checkRaw sql)
  | "actions", [] => some .actions
  | "explain", [name] => some (.explain name)
  | _, _ => none

/-- The options of the command with a name. -/
def optionsOf? (name : String) : Except Stop (List OptionSpec) :=
  match name with
  | "run" => .ok runOptions
  | "validate" | "check-raw" | "actions" | "explain" => .ok commonOptions
  | "help" => .error .help
  | _ => .error .usage

/-- Whether the environment's configuration file is acceptable where no option names one. -/
def acceptsEnvironment (environment : Option String) (r : Reading) : Bool :=
  r.has "config" || (environment.map isPath).getD true

/-- The invocation that arguments write, under an environment that may name a configuration
file. -/
def Invocation.ofArguments (environment : Option String) (arguments : List String) :
    Except Stop Invocation := do
  let (leading, rest) ← readArguments leadingOptions true (.done .empty) arguments
  match rest with
  | [] => .error .usage
  | name :: rest =>
    let specs ← optionsOf? name
    let (reading, _) ← readArguments specs false (.done .empty) rest
    match Command.ofReading? name reading with
    | none => .error .usage
    | some command =>
      if acceptsEnvironment environment leading && acceptsEnvironment environment reading then
        .ok ⟨reading.value? "config" <|> leading.value? "config" <|> environment, command⟩
      else .error .usage

end QueryScript.CommandLine
