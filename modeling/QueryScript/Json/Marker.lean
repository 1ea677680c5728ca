import QueryScript.Json.Basic

/-!
# Markers

Two shapes of object stand for something else inside a definition: one names a parameter, the
other carries raw SQL text.  Everything else is data.
-/

namespace QueryScript.Json

/-- The key of a parameter marker. -/
def paramKey : String := "$param"

/-- The key of a raw SQL marker. -/
def rawKey : String := "$raw"

/-- The parameter named by a parameter marker. -/
def paramName? : Json → Option String
  | .obj es => (Entries.get? es paramKey).bind string?
  | _ => none

/-- The payload of a raw marker, whatever its shape. -/
def rawPayload? : Json → Option Json
  | .obj es => Entries.get? es rawKey
  | _ => none

/-- Whether the value is a marker of either kind. -/
def isMarker (v : Json) : Bool :=
  v.paramName?.isSome || v.rawPayload?.isSome

mutual

/-- Whether a raw marker occurs anywhere in the value. -/
def containsRaw : Json → Bool
  | .arr xs => containsRawItems xs
  | .obj es => Entries.has es rawKey || containsRawEntries es
  | _ => false

/-- Whether a raw marker occurs in one of the items. -/
def containsRawItems : List Json → Bool
  | [] => false
  | x :: rest => containsRaw x || containsRawItems rest

/-- Whether a raw marker occurs in one of the values. -/
def containsRawEntries : List (String × Json) → Bool
  | [] => false
  | (_, v) :: rest => containsRaw v || containsRawEntries rest

end

end QueryScript.Json
