import QueryScript.Proofs.Definition.Editing
import QueryScript.Proofs.Guard.Reordering

/-!
# The verdict on an edited definition

The check of a definition reads a list of items in three ways: it collects the names that are
declared in it, it judges the markers in it if it stands in the value of an action, and it judges
its items if it hangs on a step.  Lists that are read alike in all three (`JudgesAlike`) can be
put in each other's place at any depth, and the verdict stays the same, with its failure
(`judgesAlike_of_edited`).  Nothing has to be assumed of a list that is carried in the value of an
action, since the check reads the value for its markers only.
-/

namespace QueryScript.Guard

/-- Two lists of items are judged alike wherever they stand. -/
structure JudgesAlike (guard : Guard) (xs ys : List Json) : Prop where
  names : CteNames.inItems (Item.ofItems xs) = CteNames.inItems (Item.ofItems ys)
  markers : guard.checkMarkersItems xs = guard.checkMarkersItems ys
  items : ∀ ctes, guard.checkItems ctes (Item.ofItems xs) = guard.checkItems ctes (Item.ofItems ys)

variable {guard : Guard} {ctes : CteNames} {before after : Entries} {key : String} {v w : Json}
  {xs ys : List Json}

/-! ## One step -/

/-- An action that builds a nested query has no table, no SQL text and no conditions to judge. -/
theorem checkEntry_of_swaps (h : Json.Swaps xs ys key v w) :
    guard.checkEntry ctes key v = guard.checkEntry ctes key w := by
  rw [checkEntry, checkEntry]
  cases hkey : isNestedKey key with
  | true => rw [if_pos (isReserved_of_isNestedKey hkey), if_pos (isReserved_of_isNestedKey hkey)]
  | false =>
    obtain ⟨-, route, hroute, hbuilds⟩ := (h.carries hkey).exists_route
    obtain ⟨htable, hraw, hjoin⟩ :
        route.takesTable = false ∧ route.isRaw = false ∧ route ≠ .join := by
      revert hbuilds
      cases route <;> decide
    simp only [hroute, htable, hraw, hjoin, Bool.false_eq_true, ↓reduceIte]

/-- The markers in the value of an action are those of the list that it carries, or are left out
with the definition that they stand in. -/
theorem checkMarkers_of_carries (h : Json.Carries xs ys key v w)
    (hsame : guard.checkMarkersItems xs = guard.checkMarkersItems ys) :
    guard.checkMarkers v = guard.checkMarkers w := by
  cases h with
  | list => rw [checkMarkers, checkMarkers, hsame]
  | query _ _ _ before after =>
    rw [checkMarkers, checkMarkers, Entries.get?_replace (by decide),
      checkMarkersEntries_congr before after fun hkey => absurd hkey (by decide)]
  | clauses _ _ _ before after =>
    rw [checkMarkers, checkMarkers, Entries.get?_replace (by decide),
      checkMarkersEntries_congr before after fun hkey => absurd hkey (by decide)]

theorem checkMarkersEntries_of_swaps (h : Json.Swaps xs ys key v w)
    (hsame : guard.checkMarkersItems xs = guard.checkMarkersItems ys) :
    guard.checkMarkersEntries (before ++ (key, v) :: after) =
      guard.checkMarkersEntries (before ++ (key, w) :: after) :=
  checkMarkersEntries_congr before after fun hkey =>
    checkMarkers_of_carries (h.carries hkey) hsame

theorem checkMarkers_obj_of_swaps (h : Json.Swaps xs ys key v w)
    (hsame : guard.checkMarkersItems xs = guard.checkMarkersItems ys) :
    guard.checkMarkers (.obj (before ++ (key, v) :: after)) =
      guard.checkMarkers (.obj (before ++ (key, w) :: after)) := by
  rw [checkMarkers, checkMarkers, checkMarkersEntries_of_swaps h hsame,
    Entries.get?_replace (h.ne (by decide) (by decide))]

theorem checkNested_congr {nested nested' : List (Slot × Definition)}
    (h : List.Forall₂ (fun e f => e.1 = f.1 ∧ ∀ ctes, guard.checkItems ctes e.2 =
      guard.checkItems ctes f.2) nested nested') :
    guard.checkNested ctes nested = guard.checkNested ctes nested' := by
  induction h with
  | nil => rfl
  | @cons e f _ _ hentry _ ih =>
    obtain ⟨slot, d⟩ := e
    obtain ⟨slot', d'⟩ := f
    rw [checkNested, checkNested, hentry.2 ctes, ih]

/-- A step is judged as before if the list that is edited on it is. -/
theorem checkItem_of_swaps (h : Json.Swaps xs ys key v w) (hsame : guard.JudgesAlike xs ys) :
    guard.checkItem ctes (Item.ofJson (.obj (before ++ (key, v) :: after))) =
      guard.checkItem ctes (Item.ofJson (.obj (before ++ (key, w) :: after))) := by
  have hrest : ∀ es : Entries, List.Forall₂ (fun e f : String × Json =>
      guard.checkEntry ctes e.1 e.2 = guard.checkEntry ctes f.1 f.2) es es := fun es =>
    List.forall₂_same.mpr fun _ _ => rfl
  have hentries : List.Forall₂ (fun e f : String × Json =>
      guard.checkEntry ctes e.1 e.2 = guard.checkEntry ctes f.1 f.2)
      (before ++ (key, v) :: after) (before ++ (key, w) :: after) :=
    List.rel_append (hrest before) (.cons (checkEntry_of_swaps h) (hrest after))
  have hnested := Item.forall₂_nested before after
    (Q := fun d d' => ∀ ctes, guard.checkItems ctes d = guard.checkItems ctes d')
    (fun _ _ => rfl) h hsame.items
  rw [Item.ofJson, Item.ofJson, checkItem, checkItem, Checks.forM_congr hentries,
    checkMarkersEntries_of_swaps h hsame.markers, checkNested_congr hnested]

/-! ## A list of items -/

theorem checkItems_congr (front back : Definition) {item item' : Item}
    (h : guard.checkItem ctes item = guard.checkItem ctes item') :
    guard.checkItems ctes (front ++ item :: back) =
      guard.checkItems ctes (front ++ item' :: back) := by
  induction front with
  | nil => rw [List.nil_append, List.nil_append, checkItems, checkItems, h]
  | cons x front ih => rw [List.cons_append, List.cons_append, checkItems, checkItems, ih]

/-- A list of items is judged as before if the list that is edited on one of its steps is. -/
theorem JudgesAlike.inside (hsame : guard.JudgesAlike xs ys) (h : Json.Swaps xs ys key v w)
    (front back : List Json) (before after : Entries) :
    guard.JudgesAlike (front ++ .obj (before ++ (key, v) :: after) :: back)
      (front ++ .obj (before ++ (key, w) :: after) :: back) where
  names := by
    simp only [Item.ofItems_eq_map, CteNames.inItems_eq_flatMap, List.map_append, List.map_cons,
      List.flatMap_append, List.flatMap_cons, CteNames.inItem_of_swaps h hsame.names]
  markers := checkMarkersItems_congr front back (checkMarkers_obj_of_swaps h hsame.markers)
  items ctes := by
    simp only [Item.ofItems_eq_map, List.map_append, List.map_cons]
    exact checkItems_congr _ _ (checkItem_of_swaps h hsame)

/-- The verdict on a definition is that on its items under the names that they declare. -/
theorem checkDefinition_congr {definition definition' : Definition}
    (hnames : CteNames.collect definition = CteNames.collect definition')
    (hitems : ∀ ctes, guard.checkItems ctes definition = guard.checkItems ctes definition') :
    guard.checkDefinition definition = guard.checkDefinition definition' := by
  rw [checkDefinition, checkDefinition, hnames, hitems]

/-- Definitions that are judged alike introduce the same names. -/
theorem JudgesAlike.collect_eq (h : guard.JudgesAlike xs ys) :
    CteNames.collect (Item.ofItems xs) = CteNames.collect (Item.ofItems ys) := by
  rw [CteNames.collect, CteNames.collect, h.names]

end QueryScript.Guard
