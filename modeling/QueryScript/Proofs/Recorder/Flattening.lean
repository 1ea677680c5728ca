import QueryScript.Proofs.Json.Keys
import QueryScript.Proofs.Recorder.Arguments

/-!
# Arguments as values

An argument is flattened by turning its lists into arrays and its maps into objects; a raw
expression stands for its marker in object form.  Flattening forgets nothing but how much of a
value was kept plain.
-/

namespace QueryScript.Argument

mutual

/-- The argument as one value. -/
def toJson : Argument → Json
  | .value v => v
  | .raw r =>
    .obj [(Json.rawKey, .obj [("sql", .str r.sql), ("bindings", .arr r.bindings)])]
  | .list items => .arr (toJsonItems items)
  | .map entries => .obj (Entries.ofPairs (toJsonEntries entries))

/-- The items as values. -/
def toJsonItems : List Argument → List Json
  | [] => []
  | a :: rest => toJson a :: toJsonItems rest

/-- The entries with values. -/
def toJsonEntries : List (String × Argument) → List (String × Json)
  | [] => []
  | (key, a) :: rest => (key, toJson a) :: toJsonEntries rest

end

/-- The items of a list are flattened one by one. -/
theorem toJsonItems_eq_map (items : List Argument) : toJsonItems items = items.map toJson := by
  induction items with
  | nil => rfl
  | cons a items ih => rw [toJsonItems, ih, List.map_cons]

theorem toJsonEntries_eq_map (entries : List (String × Argument)) :
    toJsonEntries entries = entries.map fun entry => (entry.1, toJson entry.2) := by
  induction entries with
  | nil => rfl
  | cons entry entries ih =>
    obtain ⟨key, a⟩ := entry
    rw [toJsonEntries, ih, List.map_cons]

/-- A map with distinct keys is an object with the same keys in the same order. -/
theorem toJson_map {entries : List (String × Argument)} (h : (entries.map Prod.fst).Nodup) :
    toJson (.map entries) = .obj (entries.map fun entry => (entry.1, toJson entry.2)) := by
  rw [toJson, toJsonEntries_eq_map, Entries.ofPairs_of_nodup]
  rw [Entries.keys, List.map_map]
  exact h

end QueryScript.Argument
