import QueryScript.Guard.Preflight
import QueryScript.Proofs.Json.Part
import QueryScript.Vocabulary.Arguments
import Mathlib.Data.List.DropRight

/-!
# Where positional arguments come from

Every positional argument of an action stands in the action's value: it is the value
itself, an item of it, or the value of a named argument, except for the `null` that holds
the place of a missing one (`mem_actionArguments`).  No argument is named like a key of
nested definitions, so a check that leaves out those keys sees all of them.

An action whose first argument is SQL text finds it where the check of the definition looks
for it (`literalText?_of_head`), unless it joins: the named arguments of a raw join are
those of a join, and the first of them is called `table`.
-/

namespace QueryScript

/-- The route of an action is that of its base name. -/
theorem Action.baseRoute?_of_route? {key : String} {route : Route} (h : route? key = some route) :
    baseRoute? (normalize key).base = some route := by
  rw [route?] at h
  split at h
  · exact h
  · cases h

namespace Layout

variable {layout : Layout} {p : Parameter} {es : Entries} {v : Json}

theorem given_initial (layout : Layout) (es : Entries) : layout.given es <+: layout :=
  List.rdropWhile_prefix _ layout

/-- An argument in its position is given under its name, or holds the place of one. -/
theorem mem_arrange (h : v ∈ layout.arrange es) :
    v = .null ∨ ∃ p ∈ layout, Entries.get? es p.key = some v := by
  obtain ⟨p, hp, hv⟩ := List.mem_flatMap.mp h
  rw [contribution] at hv
  split at hv
  next w hw =>
    rw [List.mem_singleton.mp hv]
    exact .inr ⟨p, (given_initial layout es).subset hp, hw⟩
  next =>
    split at hv
    · exact .inl (List.mem_singleton.mp hv)
    · cases hv

/-- A text in the first position is given under the first name. -/
theorem get?_of_arrange_head {s : String} {tail : List Json} (hp : p.required = true)
    (h : arrange (p :: layout) es = .str s :: tail) : Entries.get? es p.key = some (.str s) := by
  rcases List.prefix_cons_iff.mp (given_initial (p :: layout) es) with hnil | ⟨t, hgiven, -⟩
  · rw [arrange, hnil] at h
    cases h
  · rw [arrange, hgiven, List.flatMap_cons, contribution] at h
    split at h
    next w hw =>
      cases h
      exact hw
    next =>
      rw [if_pos hp] at h
      cases h

/-- What is given under the first name stands in the first position. -/
theorem arrange_of_get? (h : Entries.get? es p.key = some v) :
    ∃ tail, arrange (p :: layout) es = v :: tail := by
  rcases List.prefix_cons_iff.mp (given_initial (p :: layout) es) with hnil | ⟨t, hgiven, -⟩
  · have hnone := List.rdropWhile_eq_nil_iff.mp hnil p (List.mem_cons_self ..)
    rw [Entries.has, h] at hnone
    cases hnone
  · refine ⟨t.flatMap (contribution es), ?_⟩
    rw [arrange, hgiven, List.flatMap_cons, contribution, h]
    rfl

/-- No argument of an action is named like a key of nested definitions. -/
theorem isNestedKey_of_ofAction? {base : String} {route : Route}
    (h : ofAction? base route = some layout) : ∀ p ∈ layout, Guard.isNestedKey p.key = false := by
  unfold ofAction? at h
  split at h
  case h_10 => cases route <;> cases h <;> decide
  all_goals
    cases h
    decide

/-- The named arguments of an action whose first argument is SQL text. -/
theorem ofAction?_of_isRaw {base : String} {route : Route}
    (hroute : Action.baseRoute? base = some route) (hraw : route.isRaw = true) :
    ofAction? base route =
      some (if route = .joinRaw then [.must "table", .may "first", .may "operator", .may "second"]
        else [.must "sql", .may "bindings"]) := by
  unfold ofAction?
  split
  case h_10 =>
    revert hraw
    cases route <;> decide
  all_goals
    cases hroute
    cases hraw

/-- The named arguments of an action whose first argument names a table. -/
theorem ofAction?_of_takesTable {base : String} {route : Route}
    (hroute : Action.baseRoute? base = some route) (htakes : route.takesTable = true) :
    ∃ rest, ofAction? base route = some (.must "table" :: rest) := by
  unfold ofAction?
  split
  case h_10 =>
    cases route with
    | fromTable => exact ⟨_, rfl⟩
    | join => exact ⟨_, rfl⟩
    | _ => cases htakes
  all_goals
    cases hroute
    cases htakes

end Layout

variable {base : String} {route : Route} {value v : Json}

/-- An argument stands in the value of its action. -/
theorem mem_actionArguments (h : v ∈ actionArguments base route value) :
    v = .null ∨ v = value ∨ (∃ xs, value = .arr xs ∧ v ∈ xs) ∨
      ∃ es key, value = .obj es ∧ value.isMarker = false ∧ Guard.isNestedKey key = false ∧
        Entries.get? es key = some v := by
  have hpositional : ∀ w, v ∈ positionalArguments w → w.array? = none → v = w := by
    intro w hv harray
    unfold positionalArguments at hv
    split at hv
    · cases harray
    · cases hv
    · cases hv
    · exact List.mem_singleton.mp hv
  rw [actionArguments.eq_def] at h
  split at h
  next xs =>
    split at h
    · exact .inr (.inl (List.mem_singleton.mp h))
    · exact .inr (.inr (.inl ⟨xs, rfl, h⟩))
  next es =>
    split at h
    next => exact .inr (.inl (List.mem_singleton.mp h))
    next hmarker =>
      split at h
      next layout hlayout =>
        rcases Layout.mem_arrange h with hnull | ⟨p, hp, hv⟩
        · exact .inl hnull
        · refine .inr (.inr (.inr ⟨es, p.key, rfl, Bool.not_eq_true _ ▸ hmarker, ?_, hv⟩))
          exact Layout.isNestedKey_of_ofAction? hlayout p hp
      next => exact .inr (.inl (List.mem_singleton.mp h))
  next harr _ =>
    refine .inr (.inl (hpositional value h ?_))
    cases value with
    | arr xs => exact absurd rfl (harr xs)
    | _ => rfl

/-- The text that leads the arguments of an action whose first argument is SQL text stands where
the check looks for it, or in the place of a table. -/
theorem literalText?_of_head (hroute : Action.baseRoute? base = some route)
    (hraw : route.isRaw = true) {sql : String} {tail : List Json}
    (h : actionArguments base route value = .str sql :: tail) :
    Guard.literalText? "sql" value = some sql ∨
      (route = .joinRaw ∧ ∃ es, value = .obj es ∧ value.isMarker = false ∧
        Entries.get? es "table" = some (.str sql)) := by
  have hcolumns : route.takesColumnList = false := by
    revert hraw
    cases route <;> decide
  cases value with
  | arr xs =>
    rw [actionArguments, hcolumns] at h
    rw [show xs = .str sql :: tail from h]
    exact .inl rfl
  | obj es =>
    rw [actionArguments] at h
    split at h
    next => cases h
    next hmarker =>
      rw [Layout.ofAction?_of_isRaw hroute hraw] at h
      dsimp only at h
      by_cases hjoin : route = .joinRaw
      · rw [if_pos hjoin] at h
        exact .inr ⟨hjoin, es, rfl, Bool.not_eq_true _ ▸ hmarker,
          Layout.get?_of_arrange_head rfl h⟩
      · rw [if_neg hjoin] at h
        have hsql := Layout.get?_of_arrange_head rfl h
        left
        rw [Guard.literalText?, show Entries.get? es "sql" = some (.str sql) from hsql]
        rfl
  | str s =>
    cases h
    exact .inl rfl
  | bool b =>
    cases b with
    | true => cases h
    | false => cases h
  | null => cases h
  | num n => cases h

/-- The text that a raw join is given in the place of a table leads its arguments. -/
theorem actionArguments_of_table (hroute : Action.baseRoute? base = some .joinRaw)
    {es : Entries} (hmarker : (Json.obj es).isMarker = false)
    (h : Entries.get? es "table" = some v) :
    ∃ tail, actionArguments base .joinRaw (.obj es) = v :: tail := by
  rw [actionArguments, hmarker, Layout.ofAction?_of_isRaw hroute rfl]
  exact Layout.arrange_of_get? h

end QueryScript
