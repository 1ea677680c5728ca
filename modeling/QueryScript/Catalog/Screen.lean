import QueryScript.Text.Split

/-!
# The keyword screen

Before any pattern is tried, a fragment is screened by keywords.  A keyword is one of three
things, told apart by its form alone: text before a final `*` is a stem, which must begin a
token; word characters only are a word, which must be a token; anything else is a marker,
which must occur somewhere.  Tokens are the longest runs of ASCII word characters of the
fragment in small letters.
-/

namespace QueryScript

/-- Keywords by kind, each kept once in order of first mention. -/
structure Screen where
  words : List String
  stems : List String
  markers : List String
deriving DecidableEq, Repr

namespace Screen

/-- The screen without keywords. -/
def empty : Screen := ⟨[], [], []⟩

/-- The list with an element at its end, unless it is there already. -/
def addOnce (xs : List String) (x : String) : List String :=
  if xs.contains x then xs else xs ++ [x]

/-- What a keyword is by its form. -/
inductive Keyword where
  | blank
  | word (text : String)
  | stem (text : String)
  | marker (text : String)
deriving DecidableEq, Repr

/-- The keyword that a text writes. -/
def Keyword.ofText (s : String) : Keyword :=
  let cs := (Text.trimChars s.toList).map Char.toLower
  if cs = [] then .blank
  else if cs.getLast? = some '*' then .stem (String.ofList cs.dropLast)
  else if cs.all Text.isAsciiWord then .word (String.ofList cs)
  else .marker (String.ofList cs)

/-- The screen with one more keyword. -/
def add (screen : Screen) (keyword : String) : Screen :=
  match Keyword.ofText keyword with
  | .blank => screen
  | .word w => { screen with words := addOnce screen.words w }
  | .stem s => { screen with stems := addOnce screen.stems s }
  | .marker m => { screen with markers := addOnce screen.markers m }

/-- The tokens of a fragment. -/
def tokens (cs : List Char) : List (List Char) :=
  Text.tokens (fun c => !Text.isAsciiWord c) cs

/-- Whether a token is one of the words or begins with one of the stems. -/
def hitsToken (screen : Screen) (token : List Char) : Bool :=
  screen.words.any (·.toList == token) || screen.stems.any (·.toList.isPrefixOf token)

/-- Whether some keyword hits a fragment. -/
def hits (screen : Screen) (fragment : String) : Bool :=
  let cs := fragment.toList.map Char.toLower
  screen.markers.any (fun m => Text.occursIn m.toList cs) || (tokens cs).any screen.hitsToken

/-- The number of keywords. -/
def size (screen : Screen) : Nat :=
  screen.words.length + screen.stems.length + screen.markers.length

end Screen

end QueryScript
