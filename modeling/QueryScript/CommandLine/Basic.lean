import QueryScript.CommandLine.Invocation
import QueryScript.Engine
import QueryScript.Settings.Notation

/-!
# The command line

What a command prints, as a function of the files it may read.  A command that fails prints
its error, and what led to it, on one line.
-/

namespace QueryScript.CommandLine

/-- The files that a command may read: the text of each, or why it cannot be read. -/
structure Files where
  read : String → Except String String
  isFile : String → Bool

/-- What a command leaves behind. -/
structure Outcome where
  exitCode : Nat
  output : String
  errors : String

/-- A command's output, or an error after what was printed before it. -/
structure Report where
  lines : List String
  failure : Option String

/-- The configuration file of the working directory. -/
def localConfig : String := "qdef.toml"

/-- The program's name and version. -/
def versionLine : String := "qdef 0.3.0"

/-- A report without failure. -/
def Report.success (lines : List String) : Report := ⟨lines, none⟩

/-- The report of a computation that fails before it prints anything. -/
def Report.ofExcept : Except String Report → Report
  | .ok r => r
  | .error e => ⟨[], some e⟩

/-- The report as output, errors and exit code. -/
def Report.outcome (r : Report) : Outcome :=
  let output := String.join (r.lines.map (· ++ "\n"))
  match r.failure with
  | none => ⟨0, output, ""⟩
  | some e => ⟨1, output, "Error: " ++ e ++ "\n"⟩

/-- The outcome without a command to run. -/
def Stop.outcome : Stop → Outcome
  | .usage => ⟨2, "", ""⟩
  | .version => ⟨0, versionLine ++ "\n", ""⟩
  | .help => ⟨0, "", ""⟩

/-- The settings in a configuration file. -/
def loadSettings (files : Files) (path : String) : Except Error Settings :=
  match files.read path with
  | .error reason =>
    .error (.config ("Failed to read config file '" ++ path ++ "': " ++ reason))
  | .ok text => Settings.ofToml text

/-- The settings in the file that is named, else in the first file that exists of the working
directory's and the user's, else the settings without a file. -/
def findSettings (files : Files) (userConfig : Option String) (explicit : Option String) :
    Except Error Settings :=
  match explicit with
  | some path => loadSettings files path
  | none =>
    match (localConfig :: userConfig.toList).find? files.isFile with
    | some path => loadSettings files path
    | none => .ok {}

/-- The engine for the settings that are found. -/
def findEngine (files : Files) (userConfig explicit : Option String) : Except String Engine := do
  let settings ← (findSettings files userConfig explicit).mapError fun e =>
    "loading configuration: " ++ e.chain
  (Engine.ofSettings settings).mapError Error.chain

/-- The value in a JSON file. -/
def readJson (files : Files) (path : String) : Except String Json := do
  let text ← (files.read path).mapError fun reason => "reading " ++ path ++ ": " ++ reason
  match Json.parse? text with
  | some v => return v
  | none => throw ("parsing " ++ path ++ ": not a JSON text")

/-- Parameters from a file, if there is one of that name, or else written in place. -/
def readParams (files : Files) (argument : String) : Except String Params := do
  let v ←
    if files.isFile argument then readJson files argument
    else
      match Json.parse? argument with
      | some v => pure v
      | none => throw "parsing --params as JSON: not a JSON text"
  match v with
  | .obj es => return ⟨es⟩
  | _ => throw "--params must be a JSON object"

/-- The rows in a JSON file. -/
def readRows (files : Files) (path : String) : Except String (List Json) := do
  match ← readJson files path with
  | .arr rows => return rows
  | v => throw ("--rows must be a JSON array: got " ++ v.kindName)

/-- The calls and the result of a run. -/
def showRun (asJson : Bool) (calls : List String) (result : Json) : List String :=
  if asJson then [Json.pretty (.obj [("calls", .arr (calls.map .str)), ("result", result)])]
  else
    ["Builder calls:"] ++ calls.map (fun call => "  → " ++ call) ++
      ["", "Result:", result.pretty]

/-- Runs a definition on a recorder. -/
def runDefinition (files : Files) (engine : Engine) (definition : String)
    (params : Option String) (format : Option Format) (rows : Option String) (asJson : Bool) :
    Except String Report := do
  let definition ← readJson files definition
  let params ← match params with
    | some argument => readParams files argument
    | none => pure .empty
  let recorder ← match rows with
    | some path => (readRows files path).map Recorder.ofRows
    | none => pure .fresh
  match (engine.execute definition { params, returnFormat := format }).runOn recorder with
  | (.ok result, after) =>
    return .success (showRun asJson (after.calls.map Call.text) result)
  | (.error e, _) => throw e.chain

/-- Checks a definition. -/
def validateDefinition (files : Files) (engine : Engine) (definition : String) :
    Except String Report := do
  let definition ← readJson files definition
  match engine.validate definition with
  | .ok _ => return .success ["✓ Definition passed validation"]
  | .error e =>
    return ⟨["✗ [" ++ e.code ++ "] " ++ e.message], some "validation failed"⟩

/-- Screens SQL text. -/
def screenSql (engine : Engine) (sql : String) : Report :=
  match engine.guard.catalog.findMatch? sql with
  | none => .success ["✓ No dangerous pattern found"]
  | some hit =>
    ⟨["✗ Dangerous pattern found", "  Category: " ++ hit.category.name,
        "  Pattern: " ++ hit.name, "  Matched: " ++ hit.matched],
      some "raw expression rejected"⟩

/-- A line between sections. -/
def rule : String :=
  String.ofList (List.replicate 60 '─')

/-- A name in a column of 24 characters. -/
def padded (name : String) : String :=
  name ++ String.ofList (List.replicate (24 - name.length) ' ')

/-- Names side by side, three a line. -/
def threeAbreast : List String → List String
  | a :: b :: c :: rest => ("  " ++ padded a ++ padded b ++ padded c) :: threeAbreast rest
  | [a, b] => ["  " ++ padded a ++ padded b]
  | [a] => ["  " ++ padded a]
  | [] => []

/-- The names of actions and executors. -/
def listActions : List String :=
  let variants := Action.sortedNames.filter fun name => !Action.baseNames.contains name
  ["Base actions", rule] ++ Action.sortedBaseNames.map ("  " ++ ·) ++
    ["", "Generated variants (" ++ toString variants.length ++ ")", rule] ++
    threeAbreast variants ++
    ["", "Executors", rule] ++ Executor.all.map fun e => "  " ++ e.name

/-- How a name is routed. -/
def explainName (name : String) : List String :=
  ("Name: " ++ name) ::
    match Executor.ofName? name with
    | some e => ["  Executor: " ++ e.name]
    | none =>
      let form := Action.normalize name
      ["  Base action: " ++ form.base, "  Combinator: " ++ form.combinator.text,
        "  Negated: " ++ (if form.negated then "true" else "false"),
        "  Builder method: " ++ name,
        match Action.route? name with
        | some route => "  Routed as: " ++ route.label
        | none => "  Not a registered action"]

/-- What a command reports. -/
def report (files : Files) (userConfig : Option String) (invocation : Invocation) : Report :=
  let engine := findEngine files userConfig invocation.config
  match invocation.command with
  | .run definition params format rows asJson =>
    .ofExcept (do runDefinition files (← engine) definition params format rows asJson)
  | .validate definition => .ofExcept (do validateDefinition files (← engine) definition)
  | .checkRaw sql => .ofExcept (do return screenSql (← engine) sql)
  | .actions => .success listActions
  | .explain name => .success (explainName name)

/-- What is left behind by a command line, under an environment that may name a configuration
file. -/
def outcome (files : Files) (userConfig environment : Option String)
    (arguments : List String) : Outcome :=
  match Invocation.ofArguments environment arguments with
  | .ok invocation => (report files userConfig invocation).outcome
  | .error stop => stop.outcome

/-- The files that a command may read. -/
def pathsOf (command : Command) : List String :=
  match command with
  | .run definition params _ rows _ => definition :: (params.toList ++ rows.toList)
  | .validate definition => [definition]
  | .checkRaw _ | .actions | .explain _ => []

/-- The files that a command line may read. -/
def paths (userConfig environment : Option String) (arguments : List String) : List String :=
  match Invocation.ofArguments environment arguments with
  | .ok invocation =>
    localConfig :: (userConfig.toList ++ invocation.config.toList ++ pathsOf invocation.command)
  | .error _ => []

end QueryScript.CommandLine
