import QueryScript.Definition.Basic
import QueryScript.Proofs.Definition.Tree
import QueryScript.Proofs.Json.Keys

/-!
# Definitions as they are written

A definition is read into a tree once.  Here its nested definitions are followed in the
value itself: `Entries.hanging` lists what hangs on a step, each list under its slot, and
`Json.Writes` takes this step any number of times.  The tree holds these lists and no
others (`part_iff_writes`), each slot what hangs in it (`lookup_nested`); and if the keys of
a step are distinct, as those of an object are, what hangs in a slot is written under the
slot's key (`lookup_hanging`).
-/

namespace QueryScript

/-- The key that a slot belongs to. -/
def Slot.key : Slot → String
  | .query => "query"
  | .otherwise => "else"
  | .clauses => "clauses"
  | .valueQuery action => action
  | .valueClauses action => action
  | .valueItems action => action

namespace Entries

/-- The list of items that hangs in the value of an action. -/
def hangingIn? (key : String) (route : Route) : Json → Option (Slot × List Json)
  | .arr xs =>
    if route.needsSubquery && xs.all Json.isObject then some (.valueItems key, xs) else none
  | .obj vs =>
    if route.needsSubquery then
      ((get? vs "query").bind Json.array?).map fun xs => (.valueQuery key, xs)
    else if route.acceptsClauses then
      ((get? vs "clauses").bind Json.items?).map fun xs => (.valueClauses key, xs)
    else none
  | _ => none

/-- The list of items that hangs under a key. -/
def hangingAt? (key : String) (v : Json) : Option (Slot × List Json) :=
  match Slot.ofKey? key with
  | some slot => v.items?.map fun xs => (slot, xs)
  | none =>
    if Action.isReserved key then none
    else (Action.route? key).bind fun route => hangingIn? key route v

/-- The lists of items that hang on a step, with their slots. -/
def hanging (es : Entries) : List (Slot × List Json) :=
  es.filterMap fun entry => hangingAt? entry.1 entry.2

end Entries

/-- A list of items is written in a value: the value is the list, or it hangs on a step in a
list that is written. -/
inductive Json.Writes (value : Json) : List Json → Prop where
  | top {xs : List Json} (h : value = .arr xs) : Writes value xs
  | nested {xs ys : List Json} {es : Entries} {slot : Slot} (h : Writes value xs)
      (hitem : .obj es ∈ xs) (hhangs : (slot, ys) ∈ Entries.hanging es) : Writes value ys

/-- No route both needs a nested query and accepts a group of clauses. -/
theorem Route.not_needsSubquery_of_acceptsClauses {route : Route}
    (h : route.acceptsClauses = true) : ¬ route.needsSubquery = true := by
  revert h
  cases route <;> decide

/-! ## Reading what hangs on a step -/

theorem Slot.key_of_ofKey? {key : String} {slot : Slot} (h : Slot.ofKey? key = some slot) :
    slot.key = key := by
  unfold Slot.ofKey? at h
  split at h
  · cases h
    rfl
  · cases h
    rfl
  · cases h
    rfl
  · cases h

/-- Only `query`, `else` and `clauses` have a slot of their own. -/
theorem Slot.ofKey?_eq_none {key : String} (hquery : key ≠ "query") (helse : key ≠ "else")
    (hclauses : key ≠ "clauses") : Slot.ofKey? key = none := by
  unfold Slot.ofKey?
  split
  · contradiction
  · contradiction
  · contradiction
  · rfl

namespace Entries

variable {es : Entries} {key : String} {v : Json} {slot : Slot} {xs : List Json}

/-- What hangs in an action's value hangs in a slot of the action. -/
theorem key_of_hangingIn? {route : Route} (h : hangingIn? key route v = some (slot, xs)) :
    slot.key = key := by
  unfold hangingIn? at h
  split at h
  · split at h
    · cases h
      rfl
    · cases h
  · split at h
    · obtain ⟨_, -, heq⟩ := Option.map_eq_some_iff.mp h
      cases heq
      rfl
    · split at h
      · obtain ⟨_, -, heq⟩ := Option.map_eq_some_iff.mp h
        cases heq
        rfl
      · cases h
  · cases h

theorem key_of_hangingAt? (h : hangingAt? key v = some (slot, xs)) : slot.key = key := by
  unfold hangingAt? at h
  split at h
  next slot' hslot =>
    obtain ⟨_, -, heq⟩ := Option.map_eq_some_iff.mp h
    cases heq
    exact Slot.key_of_ofKey? hslot
  next =>
    split at h
    next => cases h
    next =>
      obtain ⟨route, -, h⟩ := Option.bind_eq_some_iff.mp h
      exact key_of_hangingIn? h

/-- What hangs in the value of an action is read by the action's route. -/
theorem hangingAt?_of_route {route : Route} (hkey : Action.isReserved key = false)
    (hroute : Action.route? key = some route) :
    hangingAt? key v = hangingIn? key route v := by
  have hslot : Slot.ofKey? key = none := by
    refine Slot.ofKey?_eq_none ?_ ?_ ?_ <;>
      · rintro rfl
        cases hkey
  rw [hangingAt?, hslot, hkey, hroute]
  rfl

/-- The definitions that hang off the entries, read entry by entry. -/
theorem hanging_cons :
    hanging ((key, v) :: es) = (hangingAt? key v).toList ++ hanging es := by
  rw [hanging, List.filterMap_cons]
  dsimp only
  cases hangingAt? key v <;> rfl

/-- If keys are distinct, what hangs in a slot is what is written under the slot's key. -/
theorem lookup_hanging (hkeys : (keys es).Nodup) (slot : Slot) :
    (hanging es).lookup slot =
      ((get? es slot.key).bind (hangingAt? slot.key)).bind fun found =>
        if found.1 = slot then some found.2 else none := by
  induction es with
  | nil => rfl
  | cons entry es ih =>
    obtain ⟨key, v⟩ := entry
    obtain ⟨hfresh, hrest⟩ := List.nodup_cons.mp hkeys
    rw [hanging_cons, get?]
    by_cases hkey : key = slot.key
    · -- the entries after it have other keys, so nothing else hangs in the slot
      have hnone : (hanging es).lookup slot = none := by
        rw [ih hrest]
        rw [get?_eq_none_iff.mpr (hkey ▸ hfresh)]
        rfl
      rw [if_pos hkey, Option.bind_some, ← hkey]
      cases hat : hangingAt? key v with
      | none => exact hnone
      | some found =>
        obtain ⟨slot', xs⟩ := found
        rw [Option.toList_some, List.singleton_append, List.lookup_cons, Option.bind_some, hnone]
        by_cases hslot : slot' = slot
        · rw [if_pos hslot, hslot, beq_self_eq_true]
        · rw [if_neg hslot, beq_false_of_ne fun h => hslot h.symm]
    · rw [if_neg hkey, ← ih hrest]
      cases hat : hangingAt? key v with
      | none => rfl
      | some found =>
        obtain ⟨slot', xs⟩ := found
        have hslot : slot ≠ slot' := by
          rintro rfl
          exact hkey (key_of_hangingAt? hat).symm
        rw [Option.toList_some, List.singleton_append, List.lookup_cons, beq_false_of_ne hslot]

end Entries

namespace Item

/-- A list of items with its slot, read into a definition. -/
def readSlot (found : Slot × List Json) : Slot × Definition :=
  (found.1, ofItems found.2)

/-- Items are read one by one. -/
theorem ofItems_eq_map (xs : List Json) : ofItems xs = xs.map ofJson := by
  induction xs with
  | nil => rfl
  | cons x xs ih => rw [ofItems, ih, List.map_cons]

theorem ofItems_obj (es : Entries) : ofItems [.obj es] = [.step es (arrange (nestedIn es))] := by
  rw [ofItems, ofItems, ofJson]

theorem arrayUnder_eq (key : String) (es : Entries) :
    arrayUnder key es = ((Entries.get? es key).bind Json.array?).map ofItems := by
  induction es with
  | nil => rfl
  | cons entry es ih =>
    obtain ⟨k, v⟩ := entry
    rw [Entries.get?]
    cases v with
    | arr xs =>
      rw [arrayUnder]
      split
      · rfl
      · exact ih
    | _ =>
      rw [arrayUnder]
      split
      · rfl
      · exact ih
      · exact fun _ h => by cases h

theorem definitionUnder_eq (key : String) (es : Entries) :
    definitionUnder key es = ((Entries.get? es key).bind Json.items?).map ofItems := by
  induction es with
  | nil => rfl
  | cons entry es ih =>
    obtain ⟨k, v⟩ := entry
    rw [Entries.get?]
    cases v with
    | arr xs =>
      rw [definitionUnder]
      split
      · rfl
      · exact ih
    | obj vs =>
      rw [definitionUnder]
      split
      · rw [Option.bind_some, Json.items?, Option.map_some, ofItems_obj]
      · exact ih
    | _ =>
      rw [definitionUnder]
      split
      · rfl
      · exact ih
      · exact fun _ h => by cases h
      · exact fun _ h => by cases h

/-- The definitions nested in a step are those that hang on it. -/
theorem nestedIn_eq (es : Entries) : nestedIn es = (Entries.hanging es).map readSlot := by
  induction es with
  | nil => rfl
  | cons entry es ih =>
    obtain ⟨key, v⟩ := entry
    have hcons : (Entries.hanging ((key, v) :: es)).map readSlot =
        ((Entries.hangingAt? key v).map readSlot).toList ++ nestedIn es := by
      rw [ih, Entries.hanging_cons, List.map_append]
      cases Entries.hangingAt? key v <;> rfl
    rw [hcons, Entries.hangingAt?]
    cases v with
    | arr xs =>
      rw [nestedIn]
      cases Slot.ofKey? key with
      | some slot => rfl
      | none =>
        dsimp only
        split
        · rfl
        · cases Action.route? key with
          | none => rfl
          | some route =>
            dsimp only [Option.bind_some]
            rw [Entries.hangingIn?]
            split <;> rfl
    | obj vs =>
      rw [nestedIn]
      cases Slot.ofKey? key with
      | some slot =>
        dsimp only
        rw [Json.items?, Option.map_some, Option.map_some, readSlot, ofItems_obj]
        rfl
      | none =>
        dsimp only
        split
        · rfl
        · cases Action.route? key with
          | none => rfl
          | some route =>
            dsimp only [Option.bind_some]
            rw [Entries.hangingIn?, arrayUnder_eq, definitionUnder_eq]
            split
            · cases (Entries.get? vs "query").bind Json.array? <;> rfl
            · split
              · cases (Entries.get? vs "clauses").bind Json.items? <;> rfl
              · rfl
    | _ =>
      rw [nestedIn]
      · cases Slot.ofKey? key with
        | some slot => rfl
        | none =>
          dsimp only
          split
          · rfl
          · cases Action.route? key <;> rfl
      · exact fun _ _ h => by cases h
      · exact fun _ _ h => by cases h

/-! ## Slots of a step -/

/-- Arranging the definitions of a step neither adds nor loses one. -/
theorem mem_arrange {found : List (Slot × Definition)} {entry : Slot × Definition} :
    entry ∈ arrange found ↔ entry ∈ found := by
  rw [arrange, List.mem_append, List.mem_flatMap, List.mem_filter]
  constructor
  · intro h
    rcases h with ⟨slot, -, h⟩ | ⟨h, -⟩
    · exact (List.mem_filter.mp h).1
    · exact h
  · intro h
    by_cases hown : entry.1 ∈ [Slot.query, .otherwise, .clauses]
    · exact .inl ⟨entry.1, hown, List.mem_filter.mpr ⟨h, decide_eq_true rfl⟩⟩
    · refine .inr ⟨h, ?_⟩
      rw [Bool.not_eq_true', Bool.eq_false_iff]
      exact fun hcontains => hown (List.contains_iff_mem.mp hcontains)

theorem lookup_filter (found : List (Slot × Definition)) (p : Slot → Bool) (slot : Slot) :
    (found.filter fun entry => p entry.1).lookup slot =
      if p slot then found.lookup slot else none := by
  induction found with
  | nil => rw [List.filter_nil, List.lookup_nil, ite_self]
  | cons entry found ih =>
    obtain ⟨slot', d⟩ := entry
    rw [List.filter_cons, List.lookup_cons]
    dsimp only
    by_cases hslot : slot = slot'
    · subst hslot
      cases hp : p slot with
      | true => simp only [if_true, List.lookup_cons, beq_self_eq_true]
      | false => rw [if_neg Bool.false_ne_true, ih, hp]; rfl
    · rw [beq_false_of_ne hslot]
      cases p slot' with
      | true => rw [if_pos rfl, List.lookup_cons, beq_false_of_ne hslot, ih]
      | false => rw [if_neg Bool.false_ne_true, ih]

/-- The order in which nested definitions are checked does not change what a slot holds. -/
theorem lookup_arrange (found : List (Slot × Definition)) (slot : Slot) :
    (arrange found).lookup slot = found.lookup slot := by
  have hown : ∀ s : Slot, (found.filter fun entry => decide (entry.1 = s)).lookup slot =
      if slot = s then found.lookup slot else none := by
    intro s
    rw [lookup_filter found fun s' => decide (s' = s)]
    by_cases hs : slot = s
    · rw [if_pos hs, if_pos (decide_eq_true hs)]
    · rw [if_neg hs, if_neg (by rw [decide_eq_false hs]; exact Bool.false_ne_true)]
  have hrest := lookup_filter found
    (fun s => !([Slot.query, .otherwise, .clauses].contains s)) slot
  rw [arrange, List.lookup_append, hrest]
  simp only [List.flatMap_cons, List.flatMap_nil, List.lookup_append, List.lookup_nil, hown]
  cases slot <;> cases found.lookup _ <;> rfl

/-- Each slot of a step holds what hangs in it. -/
theorem lookup_nested (es : Entries) (slot : Slot) :
    (ofJson (.obj es)).nested.lookup slot = ((Entries.hanging es).lookup slot).map ofItems := by
  rw [ofJson, nested, lookup_arrange, nestedIn_eq]
  induction Entries.hanging es with
  | nil => rfl
  | cons found l ih =>
    obtain ⟨slot', xs⟩ := found
    rw [List.map_cons, readSlot, List.lookup_cons, List.lookup_cons, ih]
    cases slot == slot' <;> rfl

end Item

/-! ## The lists in a tree are written -/

/-- A definition that is nested in items is read from a list that hangs on one of them. -/
theorem Item.exists_hanging_of_mem_nested {x : Json} {slot : Slot} {d : Definition}
    (h : (slot, d) ∈ (Item.ofJson x).nested) :
    ∃ es ys, x = .obj es ∧ (slot, ys) ∈ Entries.hanging es ∧ d = Item.ofItems ys := by
  cases x with
  | obj es =>
    rw [ofJson, nested, mem_arrange, nestedIn_eq] at h
    obtain ⟨⟨slot', ys⟩, hmem, heq⟩ := List.mem_map.mp h
    cases heq
    exact ⟨es, ys, rfl, hmem, rfl⟩
  | _ => cases h

/-- The items of an array are those that it writes where a definition is expected. -/
theorem Json.items?_of_array? {v : Json} {xs : List Json} (h : v.array? = some xs) :
    v.items? = some xs := by
  cases v with
  | arr ys => exact h
  | _ => cases h

/-- The items that a value writes occur in it. -/
theorem Json.part_of_items? {v x : Json} {xs : List Json} (h : v.items? = some xs) (hx : x ∈ xs) :
    Json.Part x v := by
  cases v with
  | arr ys =>
    cases h
    exact .item hx .self
  | obj es =>
    cases h
    rw [List.mem_singleton.mp hx]
    exact .self
  | _ => cases h

/-- So do those that are written under a key. -/
theorem Json.part_of_bind_get? {es : Entries} {key : String} {x : Json} {xs : List Json}
    {read : Json → Option (List Json)} (h : (Entries.get? es key).bind read = some xs)
    (hread : ∀ v, read v = some xs → v.items? = some xs) (hx : x ∈ xs) : Json.Part x (.obj es) := by
  obtain ⟨v, hv, hfound⟩ := Option.bind_eq_some_iff.mp h
  exact .entry (Entries.mem_of_get? hv) (part_of_items? (hread v hfound) hx)

/-- What hangs in a value occurs in it. -/
theorem Entries.part_of_hangingAt? {key : String} {v x : Json} {slot : Slot} {xs : List Json}
    (h : hangingAt? key v = some (slot, xs)) (hx : x ∈ xs) : Json.Part x v := by
  unfold hangingAt? at h
  split at h
  next =>
    obtain ⟨ys, hys, heq⟩ := Option.map_eq_some_iff.mp h
    cases heq
    exact Json.part_of_items? hys hx
  next =>
    split at h
    next => cases h
    next =>
      obtain ⟨route, -, h⟩ := Option.bind_eq_some_iff.mp h
      unfold hangingIn? at h
      split at h
      next ys =>
        split at h
        next =>
          cases h
          exact .item hx .self
        next => cases h
      next vs =>
        split at h
        next =>
          obtain ⟨ys, hys, heq⟩ := Option.map_eq_some_iff.mp h
          cases heq
          exact Json.part_of_bind_get? hys (fun _ => Json.items?_of_array?) hx
        next =>
          split at h
          next =>
            obtain ⟨ys, hys, heq⟩ := Option.map_eq_some_iff.mp h
            cases heq
            exact Json.part_of_bind_get? hys (fun _ => id) hx
          next => cases h
      next => cases h

/-- The items of a list that is written in a value occur in it. -/
theorem Json.Writes.part {value x : Json} {xs : List Json} (h : value.Writes xs) (hx : x ∈ xs) :
    Json.Part x value := by
  induction h generalizing x with
  | top h =>
    rw [h]
    exact .item hx .self
  | nested _ hitem hhangs ih =>
    obtain ⟨⟨key, v⟩, hv, hat⟩ := List.mem_filterMap.mp hhangs
    exact (Entries.part_of_hangingAt? hat hx).trans ((Json.Part.entry hv .self).trans (ih hitem))

/-- What hangs on a step is nested in the step that is read. -/
theorem Item.mem_nested_of_hanging {es : Entries} {slot : Slot} {ys : List Json}
    (h : (slot, ys) ∈ Entries.hanging es) :
    (slot, Item.ofItems ys) ∈ (Item.ofJson (.obj es)).nested := by
  rw [ofJson, nested, mem_arrange, nestedIn_eq]
  exact List.mem_map.mpr ⟨(slot, ys), h, rfl⟩

/-- Every definition of a tree is read from a list that is written. -/
theorem Json.exists_writes_of_part {value : Json} {xs : List Json} {d : Definition}
    (h : value.Writes xs) (hpart : Definition.Part d (Item.ofItems xs)) :
    ∃ ys, value.Writes ys ∧ d = Item.ofItems ys := by
  generalize hitems : Item.ofItems xs = items at hpart
  induction hpart generalizing xs with
  | self => exact ⟨xs, h, hitems.symm⟩
  | nested houter hslot _ ih =>
    subst hitems
    rw [Item.ofItems_eq_map] at houter
    obtain ⟨x, hx, rfl⟩ := List.mem_map.mp houter
    obtain ⟨es, ys, rfl, hhangs, rfl⟩ := Item.exists_hanging_of_mem_nested hslot
    exact ih (h.nested hx hhangs) rfl

/-- **The definitions of a tree are those that are written** in the value that the tree is read
from. -/
theorem Definition.part_iff_writes {value : Json} {definition d : Definition}
    (h : Definition.ofJson value = .ok definition) :
    Definition.Part d definition ↔ ∃ xs, value.Writes xs ∧ d = Item.ofItems xs := by
  unfold Definition.ofJson at h
  split at h
  next xs =>
    cases h
    constructor
    · exact Json.exists_writes_of_part (.top rfl)
    · intro h
      obtain ⟨ys, hys, rfl⟩ := h
      induction hys with
      | top h =>
        cases h
        exact .self
      | nested _ hitem hhangs ih =>
        have hread := List.mem_map_of_mem (f := Item.ofJson) hitem
        rw [← Item.ofItems_eq_map] at hread
        exact Definition.Part.trans (.nested hread (Item.mem_nested_of_hanging hhangs) .self) ih
  next => cases h

/-- The entries of a step are written as an item. -/
theorem Definition.exists_writes_of_hasItem {value : Json} {definition : Definition}
    (h : Definition.ofJson value = .ok definition) {es : Entries}
    {nested : List (Slot × Definition)} (hitem : definition.HasItem (.step es nested)) :
    ∃ xs, value.Writes xs ∧ .obj es ∈ xs := by
  obtain ⟨d, hpart, hmem⟩ := hasItem_iff.mp hitem
  obtain ⟨xs, hwrites, rfl⟩ := (part_iff_writes h).mp hpart
  rw [Item.ofItems_eq_map] at hmem
  obtain ⟨x, hx, hstep⟩ := List.mem_map.mp hmem
  refine ⟨xs, hwrites, ?_⟩
  cases x with
  | obj es' =>
    rw [Item.ofJson, Item.step.injEq] at hstep
    rw [← hstep.1]
    exact hx
  | _ => cases hstep

end QueryScript
