import QueryScript.Recorder.Executors

/-!
# Averages

An average is asked for as a projection with a fallback, read back by name:

    selectRaw(raw("COALESCE(AVG(total), 0) AS aggregate")).value("aggregate")

The column becomes part of SQL text, so it must be a plain identifier, and the fallback a
number.
-/

namespace QueryScript.Average

/-- The name of the projected average. -/
def projection : String := "aggregate"

/-- One segment of an identifier: a letter or underscore, then letters, digits and
underscores. -/
def isSegment : List Char → Bool
  | [] => false
  | c :: cs => (c.isAlpha || c == '_') && cs.all Text.isAsciiWord

/-- Segments with dots between them. -/
def isIdentifier (s : String) : Bool :=
  (Text.splitChars (· == '.') s.toList).all isSegment

/-- The column to take the average of. -/
def column (args : List Json) : Except Error String :=
  match args.head?.bind Json.string? with
  | none => .error (.argument "avg requires a column name")
  | some name =>
    if isIdentifier name then .ok name
    else .error (.argument ("avg column '" ++ name ++ "' is not a plain identifier"))

/-- The number that a text writes: an integer of 64 bits, or else a finite double. -/
def number? (s : String) : Option Number :=
  match Numeral.integer? s with
  | some i => some (.int i)
  | none => ((Numeral.double? s).filter Binary64.isFinite).map .double

/-- The fallback for a query without values: zero unless a number is given. -/
def fallback : Option Json → Except Error Number
  | none => .ok (.int 0)
  | some .null => .ok (.int 0)
  | some (.num n) => .ok n
  | some v =>
    match v.string?.bind fun s => number? (Text.trim s) with
    | some n => .ok n
    | none => .error (.argument ("avg default must be numeric, got " ++ v.compact))

/-- The projection as SQL text. -/
def sql (column : String) (default : Number) : String :=
  "COALESCE(AVG(" ++ column ++ "), " ++ Json.renderNumber default ++ ") AS " ++ projection

/-- Asks for an average. -/
def run (args : List Json) (options : Options) : Build Answer := do
  let column ← Build.lift (column args)
  let default ← Build.lift (fallback args[1]?)
  Build.call "selectRaw" [.raw ⟨sql column default, []⟩]
  Build.execute .value [.value (.str projection)] options

end QueryScript.Average
