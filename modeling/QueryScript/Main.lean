import QueryScript.CommandLine.Basic

/-!
# The program

The outer layer of the command line: it reads the environment and the files that a command may
need, and prints what the command leaves behind.
-/

namespace QueryScript.Main

/-- The reason why a file cannot be read. -/
def reason : IO.Error → String
  | .noFileOrDirectory .. => "No such file or directory (os error 2)"
  | .permissionDenied .. => "Permission denied (os error 13)"
  | .inappropriateType .. => "Is a directory (os error 21)"
  | e => toString e

/-- A file's text, or why it cannot be read. -/
def readFile (path : String) : IO (Except String String) := do
  try
    return .ok (← IO.FS.readFile path)
  catch e =>
    return .error (reason e)

/-- The user's configuration file. -/
def userConfig : IO (Option String) := do
  match ← IO.getEnv "XDG_CONFIG_HOME", ← IO.getEnv "HOME" with
  | some dir, _ => return some (dir ++ "/qdef/config.toml")
  | none, some home => return some (home ++ "/.config/qdef/config.toml")
  | none, none => return none

/-- The files among some paths. -/
def readFiles (paths : List String) : IO CommandLine.Files := do
  let texts ← paths.mapM fun path => return (path, ← readFile path)
  let find (path : String) : Except String String :=
    (texts.lookup path).getD (.error "No such file or directory (os error 2)")
  return { read := find, isFile := fun path => (find path).toOption.isSome }

end QueryScript.Main

/-- Runs a command line. -/
def main (arguments : List String) : IO UInt32 := do
  let environment ← IO.getEnv "QDEF_CONFIG"
  let userConfig ← QueryScript.Main.userConfig
  let paths := QueryScript.CommandLine.paths userConfig environment arguments
  let files ← QueryScript.Main.readFiles paths
  let outcome := QueryScript.CommandLine.outcome files userConfig environment arguments
  IO.print outcome.output
  IO.eprint outcome.errors
  return outcome.exitCode.toUInt32
