import QueryScript.Json.Basic
import QueryScript.Proofs.Grouping

/-!
# Entries from pairs

Pairs are written one after the other, and a later value takes the place of an earlier one under
the same key.  This is grouping in one pass, where a group keeps only its last value
(`Entries.put_insert`).  So the keys stand in the order in which they first occur, and each has
the value that no later pair replaces (`Entries.lastWins_ofPairs`).
-/

namespace QueryScript.Entries

/-- The value of the last of some pairs. -/
def lastValue (pairs : List (String × Json)) : Json :=
  (pairs.getLast?.map Prod.snd).getD .null

theorem lastValue_snoc (pairs : List (String × Json)) (pair : String × Json) :
    lastValue (pairs ++ [pair]) = pair.2 := by
  rw [lastValue, List.getLast?_append]
  rfl

/-- Setting a key's value puts it into the group of the key, where it takes the place of what was
there. -/
theorem put_insert (es : Entries) (key : String) (v : Json) :
    Put key (lastValue []) (fun _ => v) es (insert es key v) := by
  induction es with
  | nil => exact .opened List.not_mem_nil
  | cons entry es ih =>
    obtain ⟨k, w⟩ := entry
    rw [insert]
    by_cases hk : k = key
    · rw [if_pos hk, hk]
      exact .head es
    · rw [if_neg hk]
      exact ih.cons hk

theorem groups_ofPairs (pairs : List (String × Json)) :
    Groups Prod.fst lastValue (ofPairs pairs) pairs := by
  have hnil : Groups Prod.fst lastValue ([] : Entries) [] := .nil
  exact hnil.foldl (fun pair xs => lastValue_snoc xs pair) (fun es pair => put_insert es pair.1 pair.2)
    pairs

/-- The keys of some pairs, each once and in the order in which they first occur, with the value
of the last pair that has the key. -/
structure LastWins (pairs : List (String × Json)) (es : Entries) : Prop where
  keys : FirstSeen (Entries.keys es) (pairs.map Prod.fst)
  value : ∀ key v, (key, v) ∈ es →
    ∃ before after, pairs = before ++ (key, v) :: after ∧ key ∉ after.map Prod.fst

/-- The last of the pairs with a key stands before pairs with other keys only. -/
theorem exists_split_of_filter {pairs : List (String × Json)} {key : String} {v : Json}
    (h : (pairs.filter (·.1 = key)).getLast? = some (key, v)) :
    ∃ before after, pairs = before ++ (key, v) :: after ∧ key ∉ after.map Prod.fst := by
  obtain ⟨front, hfront⟩ := List.getLast?_eq_some_iff.mp h
  obtain ⟨before, rest, rfl, -, hrest⟩ := List.filter_eq_append_iff.mp hfront
  obtain ⟨skipped, after, rfl, -, -, hafter⟩ := List.filter_eq_cons_iff.mp hrest
  refine ⟨before ++ skipped, after, by rw [List.append_assoc], fun hmem => ?_⟩
  obtain ⟨pair, hpair, heq⟩ := List.mem_map.mp hmem
  exact List.filter_eq_nil_iff.mp hafter pair hpair (by simpa using heq)

/-- **Of the pairs with one key the last counts, in the place of the first.** -/
theorem lastWins_ofPairs (pairs : List (String × Json)) : LastWins pairs (ofPairs pairs) where
  keys := (groups_ofPairs pairs).seen
  value key v hmem := by
    have hseen := ((groups_ofPairs pairs).seen.mem_iff key).mp (List.mem_map.mpr ⟨_, hmem, rfl⟩)
    obtain ⟨pair, hpair, hkey⟩ := List.mem_map.mp hseen
    have hlast := (groups_ofPairs pairs).summed key v hmem
    -- some pair has the key, so there is a last one, and it has the value
    cases hfound : (pairs.filter (·.1 = key)).getLast? with
    | none =>
      rw [List.getLast?_eq_none_iff, List.filter_eq_nil_iff] at hfound
      exact absurd (by simpa using hkey) (hfound pair hpair)
    | some last =>
      have hmember := List.mem_filter.mp (List.mem_of_getLast? hfound)
      have hlastkey : last.1 = key := by simpa using hmember.2
      have hlastvalue : v = last.2 := by rw [hlast, lastValue, hfound]; rfl
      refine exists_split_of_filter ?_
      rw [hfound, ← hlastkey, hlastvalue]

end QueryScript.Entries
