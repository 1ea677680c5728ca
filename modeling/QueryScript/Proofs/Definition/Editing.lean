import Mathlib.Data.List.Forall2
import QueryScript.Proofs.Definition.CteNames
import QueryScript.Proofs.Definition.Written
import QueryScript.Proofs.Guard.Markers

/-!
# Editing one list of items

A definition is edited in one place: in its own list of items, or in a list that hangs on one of
its steps, at whatever depth.  `Json.Swaps` puts another list in the place of the one that hangs
under a key, and `Json.Edited` follows steps down to the list that is edited.

A list hangs under a key of nested definitions, or it is carried in the value of an action
(`Json.Carries`).  The two are not alike: an action is also given its value as arguments.  So a
relation between the entries of the step has to be assumed where a list is carried, and only there.

An edit below a key leaves everything else on the step alone: the values under other keys
(`Entries.get?_replace`), what the step is told by, and the lists that hang in other slots
(`Item.forall₂_nested`).
-/

namespace QueryScript

/-- The second value of an action is the first with the list `ys` in the place of `xs`, which the
action builds its nested query from. -/
inductive Json.Carries (xs ys : List Json) : String → Json → Json → Prop where
  /-- The value of an action that needs a nested query. -/
  | list {key : String} {route : Route} (hkey : Action.isReserved key = false)
      (hroute : Action.route? key = some route) (hneeds : route.needsSubquery = true)
      (hxs : xs.all Json.isObject = true) (hys : ys.all Json.isObject = true)
      (hempty : xs.isEmpty = ys.isEmpty) : Carries xs ys key (.arr xs) (.arr ys)
  /-- A list under `query` in the value of such an action. -/
  | query {key : String} {route : Route} (hkey : Action.isReserved key = false)
      (hroute : Action.route? key = some route) (hneeds : route.needsSubquery = true)
      (before after : Entries) (hfresh : "query" ∉ Entries.keys before) :
      Carries xs ys key (.obj (before ++ ("query", .arr xs) :: after))
        (.obj (before ++ ("query", .arr ys) :: after))
  /-- A list under `clauses` in the value of an action that accepts a group of clauses. -/
  | clauses {key : String} {route : Route} {v w : Json} (hkey : Action.isReserved key = false)
      (hroute : Action.route? key = some route) (haccepts : route.acceptsClauses = true)
      (before after : Entries) (hfresh : "clauses" ∉ Entries.keys before)
      (hv : v.items? = some xs) (hw : w.items? = some ys) :
      Carries xs ys key (.obj (before ++ ("clauses", v) :: after))
        (.obj (before ++ ("clauses", w) :: after))

/-- Under a key, the second value is the first with the list `ys` in the place of `xs`, which hangs
there. -/
inductive Json.Swaps (xs ys : List Json) : String → Json → Json → Prop where
  /-- A list under a key of nested definitions, or an object that stands for one. -/
  | own {key : String} {v w : Json} (hkey : Guard.isNestedKey key = true)
      (hv : v.items? = some xs) (hw : w.items? = some ys) (hkind : v.isArray = w.isArray) :
      Swaps xs ys key v w
  /-- A list that an action carries in its value. -/
  | carried {key : String} {v w : Json} (h : Carries xs ys key v w) : Swaps xs ys key v w

theorem Entries.hanging_append (es fs : Entries) : hanging (es ++ fs) = hanging es ++ hanging fs :=
  List.filterMap_append

/-! ## The lists that hang on a step -/

namespace Json.Carries

variable {xs ys : List Json} {key : String} {v w : Json}

/-- A list is carried by an action that builds a nested query. -/
theorem exists_route (h : Carries xs ys key v w) :
    Action.isReserved key = false ∧ ∃ route, Action.route? key = some route ∧
      (route.needsSubquery = true ∨ route.acceptsClauses = true) := by
  cases h with
  | list hreserved hroute hneeds => exact ⟨hreserved, _, hroute, .inl hneeds⟩
  | query hreserved hroute hneeds => exact ⟨hreserved, _, hroute, .inl hneeds⟩
  | clauses hreserved hroute haccepts => exact ⟨hreserved, _, hroute, .inr haccepts⟩

/-- The two lists hang in one slot of the action. -/
theorem exists_hangingAt? (h : Carries xs ys key v w) :
    ∃ slot, Entries.hangingAt? key v = some (slot, xs) ∧
      Entries.hangingAt? key w = some (slot, ys) := by
  cases h with
  | list hreserved hroute hneeds hxs hys =>
    rw [Entries.hangingAt?_of_route hreserved hroute, Entries.hangingAt?_of_route hreserved hroute,
      Entries.hangingIn?, Entries.hangingIn?, hneeds, hxs, hys]
    exact ⟨.valueItems key, rfl, rfl⟩
  | query hreserved hroute hneeds before after hfresh =>
    rw [Entries.hangingAt?_of_route hreserved hroute, Entries.hangingAt?_of_route hreserved hroute,
      Entries.hangingIn?, Entries.hangingIn?, if_pos hneeds, if_pos hneeds,
      Entries.get?_replace_fresh hfresh, Entries.get?_replace_fresh hfresh]
    exact ⟨.valueQuery key, rfl, rfl⟩
  | clauses hreserved hroute haccepts before after hfresh hv hw =>
    have hneeds : ¬ _ = true := Route.not_needsSubquery_of_acceptsClauses haccepts
    rw [Entries.hangingAt?_of_route hreserved hroute, Entries.hangingAt?_of_route hreserved hroute,
      Entries.hangingIn?, Entries.hangingIn?, if_neg hneeds, if_neg hneeds, if_pos haccepts,
      if_pos haccepts, Entries.get?_replace_fresh hfresh, Entries.get?_replace_fresh hfresh,
      Option.bind_some, Option.bind_some, hv, hw]
    exact ⟨.valueClauses key, rfl, rfl⟩

/-- The action is given the same name in its value. -/
theorem nameIn?_eq (h : Carries xs ys key v w) :
    SubqueryTarget.nameIn? v = SubqueryTarget.nameIn? w := by
  cases h with
  | list => rfl
  | query _ _ _ before after =>
    rw [SubqueryTarget.nameIn?, SubqueryTarget.nameIn?, Entries.get?_replace (by decide),
      Entries.get?_replace (k := "name") (by decide)]
  | clauses _ _ _ before after =>
    rw [SubqueryTarget.nameIn?, SubqueryTarget.nameIn?, Entries.get?_replace (by decide),
      Entries.get?_replace (k := "name") (by decide)]

end Json.Carries

namespace Json.Swaps

variable {xs ys : List Json} {key k : String} {v w : Json}

/-- What hangs elsewhere than under a key of nested definitions is carried. -/
theorem carries (h : Swaps xs ys key v w) (hkey : Guard.isNestedKey key = false) :
    Carries xs ys key v w := by
  cases h with
  | own hown =>
    rw [hkey] at hown
    cases hown
  | carried h => exact h

/-- Keys that neither name an action nor hold a definition are others. -/
theorem ne (h : Swaps xs ys key v w) (hregistered : Action.isRegistered k = false)
    (hnested : Guard.isNestedKey k = false) : k ≠ key := by
  rintro rfl
  obtain ⟨-, route, hroute, -⟩ := (h.carries hnested).exists_route
  rw [Action.route?, hregistered] at hroute
  cases hroute

/-- The two lists hang in one slot. -/
theorem exists_hangingAt? (h : Swaps xs ys key v w) :
    ∃ slot, Entries.hangingAt? key v = some (slot, xs) ∧
      Entries.hangingAt? key w = some (slot, ys) := by
  cases h with
  | own hkey hv hw =>
    obtain ⟨slot, hslot⟩ : ∃ slot, Slot.ofKey? key = some slot := by
      rcases Guard.eq_of_isNestedKey hkey with rfl | rfl | rfl <;> exact ⟨_, rfl⟩
    rw [Entries.hangingAt?, Entries.hangingAt?, hslot, hv, hw]
    exact ⟨slot, rfl, rfl⟩
  | carried h => exact h.exists_hangingAt?

end Json.Swaps

namespace Item

variable {before after : Entries} {key : String} {v w : Json} {xs ys : List Json}

theorem forall₂_arrange {R : Slot × Definition → Slot × Definition → Prop}
    (hslot : ∀ {e f}, R e f → e.1 = f.1) {found found' : List (Slot × Definition)}
    (h : List.Forall₂ R found found') : List.Forall₂ R (arrange found) (arrange found') := by
  have hfilter : ∀ p : Slot → Bool, List.Forall₂ R (found.filter fun e => p e.1)
      (found'.filter fun e => p e.1) := fun p =>
    List.rel_filter (fun e f hef => by dsimp only; rw [hslot hef]) h
  simp only [arrange, List.flatMap_cons, List.flatMap_nil]
  refine List.rel_append (List.rel_append (hfilter fun s => decide (s = .query))
    (List.rel_append (hfilter fun s => decide (s = .otherwise))
      (List.rel_append (hfilter fun s => decide (s = .clauses)) .nil))) ?_
  exact hfilter fun s => !([Slot.query, .otherwise, .clauses].contains s)

/-- The definitions nested in an edited step are in the same slots, and the same as before but for
the one that is edited. -/
theorem forall₂_nested (before after : Entries) {Q : Definition → Definition → Prop}
    (hrefl : ∀ d, Q d d) (hswaps : Json.Swaps xs ys key v w) (hQ : Q (ofItems xs) (ofItems ys)) :
    List.Forall₂ (fun e f => e.1 = f.1 ∧ Q e.2 f.2)
      (arrange (nestedIn (before ++ (key, v) :: after)))
      (arrange (nestedIn (before ++ (key, w) :: after))) := by
  refine forall₂_arrange (fun h => h.1) ?_
  have hsame : ∀ found : List (Slot × List Json),
      List.Forall₂ (fun e f : Slot × Definition => e.1 = f.1 ∧ Q e.2 f.2) (found.map readSlot)
        (found.map readSlot) := fun found =>
    List.forall₂_same.mpr fun e _ => ⟨rfl, hrefl e.2⟩
  obtain ⟨slot, hv, hw⟩ := hswaps.exists_hangingAt?
  have hedited : List.Forall₂ (fun e f : Slot × Definition => e.1 = f.1 ∧ Q e.2 f.2)
      [readSlot (slot, xs)] [readSlot (slot, ys)] := .cons ⟨rfl, hQ⟩ .nil
  simp only [nestedIn_eq, Entries.hanging_append, Entries.hanging_cons, hv, hw, List.map_append]
  exact List.rel_append (hsame _) (List.rel_append hedited (hsame _))

end Item

/-! ## What a step is told by -/

section

variable {before after : Entries} {key : String} {v w : Json} {xs ys : List Json}

/-- What a step is told by depends on its keys, not on its values. -/
theorem Head.ofEntries?_replace :
    ofEntries? (before ++ (key, v) :: after) = ofEntries? (before ++ (key, w) :: after) := by
  rw [ofEntries?_eq, ofEntries?_eq, Entries.keys_replace]

theorem Head.not_isNestedKey_of_ofEntries? {es : Entries} (h : ofEntries? es = some (.action key)) :
    Guard.isNestedKey key = false := by
  rw [Bool.eq_false_iff]
  intro hnested
  have hreserved := (spec_of_ofEntries? h).1
  rw [Guard.isReserved_of_isNestedKey hnested] at hreserved
  cases hreserved

/-- The value of an action is what it was, or it carries the list that is edited. -/
theorem Entries.get?_action {k : String}
    (hhead : Head.ofEntries? (before ++ (key, v) :: after) = some (.action k)) :
    Entries.get? (before ++ (key, v) :: after) k = Entries.get? (before ++ (key, w) :: after) k ∨
      k = key ∧ Guard.isNestedKey key = false ∧
        Entries.get? (before ++ (key, v) :: after) k = some v ∧
        Entries.get? (before ++ (key, w) :: after) k = some w := by
  rcases Entries.get?_replace_or before after key v w k with hsame | ⟨rfl, hvalues⟩
  · exact .inl hsame
  · exact .inr ⟨rfl, Head.not_isNestedKey_of_ofEntries? hhead, hvalues⟩

/-- An action has the same name for its query, if its value gives the same. -/
theorem SubqueryTarget.name_of_swaps (h : Json.Swaps xs ys key v w) {k : String} {v' w' : Json}
    (hname : nameIn? v' = nameIn? w') :
    (SubqueryTarget.of (before ++ (key, v) :: after) k v').name =
      (SubqueryTarget.of (before ++ (key, w) :: after) k w').name := by
  have halias : Entries.get? (before ++ (key, v) :: after) "alias" =
      Entries.get? (before ++ (key, w) :: after) "alias" :=
    Entries.get?_replace (h.ne (by decide) (by decide))
  rw [SubqueryTarget.of, SubqueryTarget.of, hname, halias]

/-- A step declares the same name. -/
theorem CteNames.declared?_of_swaps (h : Json.Swaps xs ys key v w) :
    declared? (before ++ (key, v) :: after) = declared? (before ++ (key, w) :: after) := by
  unfold declared?
  rw [← Head.ofEntries?_replace (v := v) (w := w)]
  split
  next k hhead =>
    have hname :
        SubqueryTarget.nameIn? ((Entries.get? (before ++ (key, v) :: after) k).getD .null) =
          SubqueryTarget.nameIn? ((Entries.get? (before ++ (key, w) :: after) k).getD .null) := by
      rcases Entries.get?_action (w := w) hhead with hsame | ⟨rfl, hkey, hv, hw⟩
      · rw [hsame]
      · rw [hv, hw]
        exact (h.carries hkey).nameIn?_eq
    rw [SubqueryTarget.name_of_swaps h hname]
  next => rfl

theorem CteNames.inNested_congr {nested nested' : List (Slot × Definition)}
    (h : List.Forall₂ (fun e f => e.1 = f.1 ∧ inItems e.2 = inItems f.2) nested nested') :
    inNested nested = inNested nested' := by
  induction h with
  | nil => rfl
  | @cons e f _ _ hentry _ ih =>
    obtain ⟨slot, d⟩ := e
    obtain ⟨slot', d'⟩ := f
    rw [inNested, inNested, hentry.2, ih]

/-- The same names are declared by the step and in the definitions nested in it. -/
theorem CteNames.inItem_of_swaps (h : Json.Swaps xs ys key v w)
    (hsame : inItems (Item.ofItems xs) = inItems (Item.ofItems ys)) :
    inItem (Item.ofJson (.obj (before ++ (key, v) :: after))) =
      inItem (Item.ofJson (.obj (before ++ (key, w) :: after))) := by
  rw [Item.ofJson, Item.ofJson, inItem, inItem, declared?_of_swaps h,
    inNested_congr (Item.forall₂_nested before after (Q := fun d d' => inItems d = inItems d')
      (fun _ => rfl) h
      hsame)]

end

end QueryScript
