import QueryScript.Proofs.Assembly.Induction
import QueryScript.Proofs.Definition.Written

/-!
# What is taken up, as it is written

An action finds its nested query in the step as it is written: in the step's own `query` or
`clauses`, or in the value of the action before any parameter is filled in.  `taken?` reads
the list of items there that a step takes up, and `Takes` follows these steps through a
value, without a look at the tree that the value is read into.

The tree agrees with it: a definition is assembled exactly if it is read from a list that is
taken up (`assembles_iff_takes`).  What the two need for it is that the keys of every object
are distinct, for the tree keeps everything that is written and a key finds the first.
-/

namespace QueryScript

/-- The list of items from which an action builds its nested query: for an action that needs
one the query of its target, and for a filter the group of clauses or else the query that the
step itself carries. -/
def Application.listed? (a : Application) : Option (List Json) :=
  if a.route.needsSubquery then a.target.query.map (·.2)
  else if a.route.acceptsClauses then
    match (Entries.get? a.entries "clauses" <|> a.written.field? "clauses").bind Json.items? with
    | some xs => some xs
    | none =>
      if a.route = .whereClause then (Entries.get? a.entries "query").bind Json.array? else none
  else none

namespace Scope

/-- The list of items that a step takes up: its `else` definition if the condition of its
action does not hold, and otherwise the one that the action builds from. -/
def taken? (scope : Scope) (es : Entries) : Option (List Json) :=
  (scope.application? (Item.ofJson (.obj es))).bind fun a =>
    if scope.admits a then a.listed? else (Entries.get? es "else").bind Json.items?

/-- A list of items is taken up when a value is assembled: the value is the list, or a step of a
list that is taken up takes it up. -/
inductive Takes (scope : Scope) (value : Json) : List Json → Prop where
  | top {xs : List Json} (h : value = .arr xs) : Takes scope value xs
  | nested {xs ys : List Json} {es : Entries} (h : Takes scope value xs) (hitem : .obj es ∈ xs)
      (htaken : scope.taken? es = some ys) : Takes scope value ys

end Scope

/-! ## What hangs in the slots of a step -/

namespace Entries

variable {es : Entries} {key : String} {route : Route} {written : Json}

theorem lookup_hanging_query (hkeys : (keys es).Nodup) :
    (hanging es).lookup .query = (get? es "query").bind Json.items? := by
  rw [lookup_hanging hkeys]
  show ((get? es "query").bind (hangingAt? "query")).bind _ = _
  cases get? es "query" with
  | none => rfl
  | some v => cases v <;> rfl

theorem lookup_hanging_otherwise (hkeys : (keys es).Nodup) :
    (hanging es).lookup .otherwise = (get? es "else").bind Json.items? := by
  rw [lookup_hanging hkeys]
  show ((get? es "else").bind (hangingAt? "else")).bind _ = _
  cases get? es "else" with
  | none => rfl
  | some v => cases v <;> rfl

theorem lookup_hanging_clauses (hkeys : (keys es).Nodup) :
    (hanging es).lookup .clauses = (get? es "clauses").bind Json.items? := by
  rw [lookup_hanging hkeys]
  show ((get? es "clauses").bind (hangingAt? "clauses")).bind _ = _
  cases get? es "clauses" with
  | none => rfl
  | some v => cases v <;> rfl

end Entries

namespace Scope

variable {scope : Scope} {es : Entries} {a : Application}

/-- What an action tells of the object that it is read from: its method is a key that has a route
and is not reserved, and its argument stands under it. -/
theorem application?_ofJson_spec (happ : scope.application? (Item.ofJson (.obj es)) = some a) :
    a.entries = es ∧ Action.isReserved a.method = false ∧
      Action.route? a.method = some a.route ∧ Entries.get? es a.method = some a.written := by
  obtain ⟨hroute, -, nested, hitem, hhead, hwritten, -⟩ := application?_spec happ
  rw [Item.ofJson, Item.step.injEq] at hitem
  obtain ⟨rfl, -⟩ := hitem
  exact ⟨rfl, (Head.spec_of_ofEntries? hhead).1, hroute, hwritten⟩

/-- What hangs in a slot of an action's value. -/
theorem lookup_hanging_value (hkeys : (Entries.keys es).Nodup)
    (happ : scope.application? (Item.ofJson (.obj es)) = some a) {slot : Slot}
    (hslot : slot.key = a.method) :
    (Entries.hanging es).lookup slot =
      (Entries.hangingIn? a.method a.route a.written).bind fun found =>
        if found.1 = slot then some found.2 else none := by
  obtain ⟨-, hreserved, hroute, hwritten⟩ := application?_ofJson_spec happ
  rw [Entries.lookup_hanging hkeys, hslot, hwritten, Option.bind_some,
    Entries.hangingAt?_of_route hreserved hroute]

/-- The query of a step's target hangs in the slot that the target names. -/
theorem lookup_target (hkeys : (Entries.keys es).Nodup)
    (happ : scope.application? (Item.ofJson (.obj es)) = some a)
    (hneeds : a.route.needsSubquery = true) {slot : Slot} {xs : List Json}
    (htarget : a.target.query = some (slot, xs)) :
    (Entries.hanging es).lookup slot = some xs := by
  obtain ⟨rfl, -⟩ := application?_ofJson_spec happ
  rw [Application.target, SubqueryTarget.of] at htarget
  dsimp only at htarget
  split at htarget
  -- the query is the step's own, or else it stands in the value of the action
  next ys hquery =>
    cases htarget
    rw [Entries.lookup_hanging_query hkeys]
    obtain ⟨v, hv, harray⟩ := Option.bind_eq_some_iff.mp hquery
    rw [hv, Option.bind_some]
    cases v with
    | arr zs => exact harray
    | _ => cases harray
  next =>
    rw [SubqueryTarget.queryIn?.eq_def] at htarget
    split at htarget
    next vs hwritten =>
      obtain ⟨ys, hys, heq⟩ := Option.map_eq_some_iff.mp htarget
      cases heq
      rw [lookup_hanging_value hkeys happ rfl, hwritten, Entries.hangingIn?, if_pos hneeds, hys,
        Option.map_some, Option.bind_some, if_pos rfl]
    next ys hwritten =>
      split at htarget
      next hall =>
        cases htarget
        rw [Bool.and_eq_true] at hall
        rw [lookup_hanging_value hkeys happ rfl, hwritten, Entries.hangingIn?,
          if_pos (by rw [hneeds, hall.1]; rfl), Option.bind_some, if_pos rfl]
      next => cases htarget
    next => cases htarget

/-- The group of clauses of a filter hangs in the slot of its group. -/
theorem lookup_groupSlot (hkeys : (Entries.keys es).Nodup)
    (happ : scope.application? (Item.ofJson (.obj es)) = some a)
    (haccepts : a.route.acceptsClauses = true) :
    (Entries.hanging es).lookup a.groupSlot =
      (Entries.get? a.entries "clauses" <|> a.written.field? "clauses").bind Json.items? := by
  have hneeds := Route.not_needsSubquery_of_acceptsClauses haccepts
  obtain ⟨rfl, -⟩ := application?_ofJson_spec happ
  rw [Application.groupSlot]
  cases hclauses : Entries.get? a.entries "clauses" with
  | some v =>
    rw [Option.isSome_some, if_pos rfl, Entries.lookup_hanging_clauses hkeys, hclauses]
    rfl
  | none =>
    rw [Option.isSome_none, if_neg Bool.false_ne_true, lookup_hanging_value hkeys happ rfl]
    cases a.written with
    | obj vs =>
      rw [Entries.hangingIn?, if_neg hneeds, if_pos haccepts]
      show _ = (Entries.get? vs "clauses").bind Json.items?
      cases (Entries.get? vs "clauses").bind Json.items? with
      | none => rfl
      | some xs =>
        rw [Option.map_some, Option.bind_some, if_pos rfl]
    | arr xs =>
      rw [Entries.hangingIn?, Bool.eq_false_iff.mpr hneeds, Bool.false_and,
        if_neg Bool.false_ne_true]
      rfl
    | _ => rfl

/-- What a step takes up hangs in the slot that the tree opens. -/
theorem taken?_eq (hkeys : (Entries.keys es).Nodup)
    (happ : scope.application? (Item.ofJson (.obj es)) = some a) :
    scope.taken? es = (if scope.admits a then a.slot? else some .otherwise).bind fun slot =>
      (Entries.hanging es).lookup slot := by
  rw [taken?, happ, Option.bind_some]
  split
  next =>
    rw [Application.listed?, Application.slot?]
    by_cases hneeds : a.route.needsSubquery = true
    · rw [if_pos hneeds, if_pos hneeds]
      cases htarget : a.target.query with
      | none => rfl
      | some found => exact (lookup_target hkeys happ hneeds htarget).symm
    · rw [if_neg hneeds, if_neg hneeds]
      by_cases haccepts : a.route.acceptsClauses = true
      · rw [if_pos haccepts, if_pos haccepts, inSlot_eq happ, Item.lookup_nested,
          Option.isSome_map, Option.isSome_map]
        have hgroup := lookup_groupSlot hkeys happ haccepts
        rw [← hgroup]
        cases hfound : (Entries.hanging es).lookup a.groupSlot with
        | some xs => exact hfound.symm
        | none =>
          -- without a group, a `where` may still compare with the query of its step
          rw [Option.isSome_none, if_neg Bool.false_ne_true]
          dsimp only
          split
          next =>
            obtain ⟨rfl, -⟩ := application?_ofJson_spec happ
            rw [Application.operandSlot?]
            cases hquery : Entries.get? a.entries "query" with
            | none => rfl
            | some v =>
              cases v with
              | arr xs =>
                dsimp only [Option.bind_some]
                rw [Entries.lookup_hanging_query hkeys, hquery]
                rfl
              | _ => rfl
          next => rfl
      · rw [if_neg haccepts, if_neg haccepts]
        rfl
  next =>
    rw [Option.bind_some, Entries.lookup_hanging_otherwise hkeys]

/-- The definition that the tree opens for a step is the list that the step takes up. -/
theorem opened?_ofJson (hkeys : (Entries.keys es).Nodup) :
    scope.opened? (Item.ofJson (.obj es)) = (scope.taken? es).map Item.ofItems := by
  cases happ : scope.application? (Item.ofJson (.obj es)) with
  | none => rw [opened?, taken?, happ]; rfl
  | some a =>
    rw [taken?_eq hkeys happ, opened?, happ, Option.bind_some, Option.map_bind]
    exact congrArg _ (funext fun slot => Item.lookup_nested es slot)

/-- What a step takes up hangs on it. -/
theorem exists_hanging_of_taken? (hkeys : (Entries.keys es).Nodup) {ys : List Json}
    (h : scope.taken? es = some ys) : ∃ slot, (slot, ys) ∈ Entries.hanging es := by
  cases happ : scope.application? (Item.ofJson (.obj es)) with
  | none =>
    rw [taken?, happ] at h
    cases h
  | some a =>
    rw [taken?_eq hkeys happ] at h
    obtain ⟨slot, -, h⟩ := Option.bind_eq_some_iff.mp h
    exact ⟨slot, mem_of_lookup h⟩

/-! ## What is taken up in a whole value -/

variable {value : Json} {definition d : Definition} {xs : List Json}

theorem keys_nodup (hkeys : value.KeysDistinct) (h : value.Writes xs) {es : Entries}
    (hitem : .obj es ∈ xs) : (Entries.keys es).Nodup :=
  hkeys es (h.part hitem)

/-- What is taken up is written. -/
theorem Takes.writes (hkeys : value.KeysDistinct) (h : scope.Takes value xs) :
    value.Writes xs := by
  induction h with
  | top h => exact .top h
  | nested _ hitem htaken ih =>
    obtain ⟨slot, hhangs⟩ := exists_hanging_of_taken? (keys_nodup hkeys ih hitem) htaken
    exact ih.nested hitem hhangs

/-- What is assembled is taken up. -/
theorem Assembles.exists_takes (hkeys : value.KeysDistinct) (h : scope.Assembles definition d)
    (htakes : scope.Takes value xs) (hread : definition = Item.ofItems xs) :
    ∃ ys, scope.Takes value ys ∧ d = Item.ofItems ys := by
  -- along the way from the root, each list of items that is taken up is the one opened
  induction h generalizing xs with
  | self items => exact ⟨xs, htakes, hread⟩
  | opened hitem hopened _ ih =>
    rw [hread, Item.ofItems_eq_map] at hitem
    obtain ⟨x, hx, rfl⟩ := List.mem_map.mp hitem
    cases x with
    | obj es =>
      rw [opened?_ofJson (keys_nodup hkeys (htakes.writes hkeys) hx)] at hopened
      obtain ⟨ys, htaken, rfl⟩ := Option.map_eq_some_iff.mp hopened
      exact ih (htakes.nested hx htaken) rfl
    | _ => cases hopened

/-- What is taken up is assembled. -/
theorem Takes.assembles (hkeys : value.KeysDistinct) (h : scope.Takes value xs)
    (hread : Definition.ofJson value = .ok definition) :
    scope.Assembles definition (Item.ofItems xs) := by
  induction h with
  | top h =>
    rw [h] at hread
    cases hread
    exact .self _
  | @nested xs ys es h hitem htaken ih =>
    have hmem : Item.ofJson (.obj es) ∈ Item.ofItems xs := by
      rw [Item.ofItems_eq_map]
      exact List.mem_map_of_mem hitem
    refine ih.snoc hmem ?_
    rw [opened?_ofJson (keys_nodup hkeys (h.writes hkeys) hitem), htaken, Option.map_some]

/-- **What is assembled is what is taken up**, as it is written. -/
theorem assembles_iff_takes (hkeys : value.KeysDistinct)
    (hread : Definition.ofJson value = .ok definition) :
    scope.Assembles definition d ↔ ∃ xs, scope.Takes value xs ∧ d = Item.ofItems xs := by
  constructor
  · intro h
    cases value with
    | arr xs =>
      cases hread
      exact h.exists_takes hkeys (.top rfl) rfl
    | _ => cases hread
  · intro h
    obtain ⟨xs, htakes, rfl⟩ := h
    exact htakes.assembles hkeys hread

end Scope

end QueryScript
