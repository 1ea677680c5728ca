/-!
# Command line arguments

A command takes options and words.  An option has a long name and perhaps a short one; its
value follows in the same argument or is the next one.  Short options without values may share
one argument, and after `--` everything is a word.  Reading stops at the first mistake.
-/

namespace QueryScript.CommandLine

/-- Why reading stops without a command to run. -/
inductive Stop where
  | usage
  | version
  | help
deriving DecidableEq, Repr

/-- What an option is for. -/
inductive OptionKind where
  /-- It is there or not. -/
  | switch
  /-- It has a value, which must be acceptable. -/
  | value (accepts : String → Bool)
  /-- It stops reading. -/
  | stop (reason : Stop)

/-- An option of a command. -/
structure OptionSpec where
  name : String
  short : Option Char
  kind : OptionKind

/-- The options and words read so far. -/
structure Reading where
  /-- Options with their values; a switch has an empty one. -/
  options : List (String × String)
  words : List String

namespace Reading

/-- Nothing read. -/
def empty : Reading := ⟨[], []⟩

/-- The value of an option. -/
def value? (r : Reading) (name : String) : Option String :=
  r.options.lookup name

/-- Whether an option is given. -/
def has (r : Reading) (name : String) : Bool :=
  (r.value? name).isSome

/-- The reading with one more option, which must be new. -/
def give (r : Reading) (name value : String) : Except Stop Reading :=
  if r.has name then .error .usage else .ok { r with options := (name, value) :: r.options }

/-- The reading with one more word. -/
def addWord (r : Reading) (word : String) : Reading :=
  { r with words := r.words ++ [word] }

end Reading

/-- What was read of one argument: all of it, or an option whose value is still to come. -/
inductive Progress where
  | done (r : Reading)
  | pending (r : Reading) (option : OptionSpec)

/-- An option with the value attached to it, if there is one. -/
def giveOption (r : Reading) (option : OptionSpec) (attached : Option String) :
    Except Stop Progress :=
  match option.kind, attached with
  | .stop reason, none => .error reason
  | .switch, none => (r.give option.name "").map .done
  | .value accepts, some v =>
    if accepts v then (r.give option.name v).map .done else .error .usage
  | .value _, none => .ok (.pending r option)
  | _, some _ => .error .usage

/-- The text before the first `=` and, if there is one, the text after it. -/
def splitValue (cs : List Char) : String × Option String :=
  let name := String.ofList (cs.takeWhile (· ≠ '='))
  match cs.dropWhile (· ≠ '=') with
  | _ :: v => (name, some (String.ofList v))
  | [] => (name, none)

/-- An argument after its two hyphens. -/
def readLong (specs : List OptionSpec) (r : Reading) (cs : List Char) : Except Stop Progress :=
  let (name, attached) := splitValue cs
  match specs.find? (·.name == name) with
  | some option => giveOption r option attached
  | none => .error .usage

/-- An argument after its hyphen. -/
def readShort (specs : List OptionSpec) (r : Reading) : List Char → Except Stop Progress
  | [] => .ok (.done r)
  | c :: cs =>
    match specs.find? (·.short == some c) with
    | none => .error .usage
    | some option =>
      match option.kind with
      | .value _ =>
        match cs with
        | [] => giveOption r option none
        | '=' :: v => giveOption r option (some (String.ofList v))
        | v => giveOption r option (some (String.ofList v))
      | _ =>
        match giveOption r option none with
        | .ok (.done r) => readShort specs r cs
        | stopped => stopped

/-- What an argument is by its form. -/
inductive Form where
  | separator
  | long (cs : List Char)
  | short (cs : List Char)
  | word

/-- The form of an argument; a single hyphen is a word. -/
def Form.of (argument : String) : Form :=
  match argument.toList with
  | ['-', '-'] => .separator
  | '-' :: '-' :: cs => .long cs
  | '-' :: c :: cs => .short (c :: cs)
  | _ => .word

/-- Reads arguments up to the first word if `stopsAtWord`, and otherwise all of them.  The
arguments that are left start with the word at which reading stopped. -/
def readArguments (specs : List OptionSpec) (stopsAtWord : Bool) :
    Progress → List String → Except Stop (Reading × List String)
  | .done r, [] => .ok (r, [])
  | .pending _ _, [] => .error .usage
  | .pending r option, a :: rest =>
    match Form.of a with
    | .word =>
      match giveOption r option (some a) with
      | .ok next => readArguments specs stopsAtWord next rest
      | .error e => .error e
    | _ => .error .usage
  | .done r, a :: rest =>
    match Form.of a with
    | .separator =>
      if stopsAtWord then .error .usage else .ok (rest.foldl Reading.addWord r, [])
    | .long cs =>
      match readLong specs r cs with
      | .ok next => readArguments specs stopsAtWord next rest
      | .error e => .error e
    | .short cs =>
      match readShort specs r cs with
      | .ok next => readArguments specs stopsAtWord next rest
      | .error e => .error e
    | .word =>
      if stopsAtWord then .ok (r, a :: rest)
      else readArguments specs stopsAtWord (.done (r.addWord a)) rest

end QueryScript.CommandLine
