import QueryScript.Proofs.Assembly.Induction

/-!
# Entering definitions

While a definition is assembled, others are entered that hang in its items.  `assembleVia`
assembles with a hook on every entry, which is given the definition that is entered and its
build, and answers with the build to run instead: it may let the build pass, refuse it, or
run something else.

A hook that lets all builds pass that are taken up is never noticed (`assembleVia_eq`).  So
the definitions that are taken up are the only ones that are ever entered: whatever becomes
of the others, the run and its outcome stay the same.
-/

namespace QueryScript

/-- What is done instead of the build of a definition when the definition is entered. -/
abbrev EntryHook := Definition → Build Bool → Build Bool

namespace Scope

mutual

/-- The step of an item, with a hook on the definitions that it enters. -/
def assembleItemVia (scope : Scope) (enter : EntryHook) : Item → Step
  | .stray _ => .inert
  | .step es nested => scope.step es (assembleNestedVia scope enter nested)

/-- The steps of a definition, with a hook on the definitions that they enter. -/
def assembleItemsVia (scope : Scope) (enter : EntryHook) : List Item → List Step
  | [] => []
  | i :: rest => assembleItemVia scope enter i :: assembleItemsVia scope enter rest

/-- Nested definitions, each ready to be entered in its slot. -/
def assembleNestedVia (scope : Scope) (enter : EntryHook) :
    List (Slot × List Item) → List (Slot × Build Bool)
  | [] => []
  | (slot, items) :: rest =>
    (slot, enter items (Step.runAll (assembleItemsVia scope enter items))) ::
      assembleNestedVia scope enter rest

end

/-- Builds a definition with a hook on every entry, its own included. -/
def assembleVia (scope : Scope) (enter : EntryHook) (definition : Definition) : Build Bool :=
  enter definition (Step.runAll (scope.assembleItemsVia enter definition))

end Scope

namespace Application

/-- The action with other builds of its nested definitions. -/
def withNested (a : Application) (nested : List (Slot × Build Bool)) : Application :=
  { a with nested }

variable {a : Application} {nested : List (Slot × Build Bool)}

/-! ## An action runs at most the build in its slot -/

/-- Where the same slots are filled, an action builds something in the same ones. -/
theorem isSome_inSlot_withNested
    (hsome : ∀ slot, (nested.lookup slot).isSome = (a.nested.lookup slot).isSome) (slot : Slot) :
    ((a.withNested nested).inSlot slot).isSome = (a.inSlot slot).isSome := by
  rw [inSlot, inSlot, Option.isSome_map, Option.isSome_map]
  exact hsome slot

section

variable (hsome : ∀ slot, (nested.lookup slot).isSome = (a.nested.lookup slot).isSome)
  (hslot : ∀ slot, a.slot? = some slot → nested.lookup slot = a.nested.lookup slot)

include hslot in
theorem inSlot_withNested {slot : Slot} (h : a.slot? = some slot) :
    (a.withNested nested).inSlot slot = a.inSlot slot := by
  rw [inSlot, inSlot]
  exact congrArg _ (hslot slot h)

include hslot in
theorem query?_withNested (h : a.route.needsSubquery = true) :
    (a.withNested nested).query? = a.query? := by
  rw [query?, query?]
  show a.target.query.bind _ = _
  cases hquery : a.target.query with
  | none => rfl
  | some found =>
    refine inSlot_withNested hslot ?_
    rw [slot?, if_pos h, hquery, Option.map_some]

include hsome hslot in
theorem group?_withNested (h : a.route.acceptsClauses = true) :
    (a.withNested nested).group? = a.group? := by
  have hneeds := Route.not_needsSubquery_of_acceptsClauses h
  rw [group?_eq, group?_eq]
  show (a.withNested nested).inSlot a.groupSlot = a.inSlot a.groupSlot
  cases hgroup : a.inSlot a.groupSlot with
  | none =>
    -- an action that has no group in this slot does not build the slot, so only its being
    -- empty is known of it
    rw [← Option.not_isSome_iff_eq_none, isSome_inSlot_withNested hsome, hgroup]
    exact Bool.false_ne_true
  | some group =>
    rw [← hgroup]
    refine inSlot_withNested hslot ?_
    rw [slot?, if_neg hneeds, if_pos h, hgroup, Option.isSome_some, if_pos rfl]

include hslot in
theorem operandQuery?_withNested (h : a.route = .whereClause) (hgroup : a.group? = none) :
    (a.withNested nested).operandQuery? = a.operandQuery? := by
  rw [operandQuery?_eq, operandQuery?_eq]
  show a.operandSlot?.bind (a.withNested nested).inSlot = _
  cases hoperand : a.operandSlot? with
  | none => rfl
  | some slot =>
    refine inSlot_withNested hslot ?_
    rw [group?_eq] at hgroup
    have hnone : ¬ (a.inSlot a.groupSlot).isSome = true := by
      rw [hgroup]
      exact Bool.false_ne_true
    rw [slot?, if_neg (by rw [h]; decide), if_pos (by rw [h]; rfl), if_neg hnone, if_pos h,
      hoperand]

include hsome hslot in
/-- **An action runs at most the build in its slot**: it does not notice what fills the
others. -/
theorem apply_withNested (scope : Scope) : (a.withNested nested).apply scope = a.apply scope := by
  have hnamed : a.route.needsSubquery = true → ∀ family what,
      (a.withNested nested).requireNamed family what = a.requireNamed family what := by
    intro h family what
    rw [requireNamed, requireNamed, query?_withNested hslot h]
    rfl
  have hquery : a.route.needsSubquery = true → ∀ family,
      (a.withNested nested).requireQuery family = a.requireQuery family := by
    intro h family
    rw [requireQuery, requireQuery, query?_withNested hslot h]
  have hjoin : a.route.needsSubquery = true →
      (a.withNested nested).applyJoinQuery scope = a.applyJoinQuery scope := by
    intro h
    rw [applyJoinQuery, applyJoinQuery, query?_withNested hslot h]
    rfl
  have hfilter : a.route.acceptsClauses = true →
      (a.withNested nested).applyFilter scope = a.applyFilter scope := by
    intro h
    rw [applyFilter, applyFilter, group?_withNested hsome hslot h]
    cases hgroup : a.group? with
    | some group => rfl
    | none =>
      have hroute : (a.withNested nested).route = a.route := rfl
      rw [hroute]
      cases hwhere : a.route with
      | whereClause => rw [operandQuery?_withNested hslot hwhere hgroup]; rfl
      | _ => rfl
  have hroute : (a.withNested nested).route = a.route := rfl
  unfold apply
  rw [hroute]
  cases h : a.route with
  | fromSub | subSelect | withQuery =>
    dsimp only
    rw [hnamed (by rw [h]; rfl)]
    rfl
  | whereExists | union =>
    dsimp only
    rw [hquery (by rw [h]; rfl)]
    rfl
  | joinSub => exact hjoin (by rw [h]; rfl)
  | whereClause | having => exact hfilter (by rw [h]; rfl)
  | _ => rfl

end

end Application

namespace Scope

variable {scope : Scope} {enter : EntryHook} {items : Definition} {item : Item} {a : Application}

/-! ## Assembling with a hook -/

/-- With a hook too, items are assembled one by one. -/
theorem assembleItemsVia_eq_map (scope : Scope) (enter : EntryHook) (items : Definition) :
    scope.assembleItemsVia enter items = items.map (scope.assembleItemVia enter) := by
  induction items with
  | nil => rfl
  | cons item items ih => rw [assembleItemsVia, ih, List.map_cons]

/-- With a hook too, what stands assembled in a slot is the definition that is written there. -/
theorem lookup_assembleNestedVia (nested : List (Slot × Definition)) (slot : Slot) :
    (scope.assembleNestedVia enter nested).lookup slot =
      (nested.lookup slot).map (scope.assembleVia enter) := by
  induction nested with
  | nil => rfl
  | cons entry nested ih =>
    obtain ⟨slot', d⟩ := entry
    rw [assembleNestedVia, List.lookup_cons, List.lookup_cons]
    split
    · rfl
    · exact ih

/-- The step of an item performs the item's action, with the builds that the hook gives. -/
theorem assembleItemVia_eq (scope : Scope) (enter : EntryHook) (item : Item) :
    scope.assembleItemVia enter item =
      match scope.application? item with
      | some a =>
        ⟨a.route = .withQuery,
          scope.perform (a.withNested (scope.assembleNestedVia enter item.nested))⟩
      | none => .inert := by
  cases item with
  | stray v => rfl
  | step es nested =>
    rw [assembleItemVia, scope.step_eq es nested]
    rfl

/-- The step of an item does not notice a hook that lets the definition pass which the item
opens. -/
theorem perform_withNested (happ : scope.application? item = some a)
    (hopens : ∀ d, scope.opened? item = some d → scope.assembleVia enter d = scope.assemble d) :
    scope.perform (a.withNested (scope.assembleNestedVia enter item.nested)) = scope.perform a := by
  have hlookup : ∀ slot, a.nested.lookup slot = (item.nested.lookup slot).map scope.assemble := by
    intro slot
    rw [(application?_spec happ).2.1, lookup_assembleNested]
  have hsome : ∀ slot, ((scope.assembleNestedVia enter item.nested).lookup slot).isSome =
      (a.nested.lookup slot).isSome := by
    intro slot
    rw [lookup_assembleNestedVia, hlookup, Option.isSome_map, Option.isSome_map]
  -- a slot in which nothing but the opened definition can hang is filled as it was
  have hsame : ∀ slot, (∀ d, item.nested.lookup slot = some d → scope.opened? item = some d) →
      (scope.assembleNestedVia enter item.nested).lookup slot = a.nested.lookup slot := by
    intro slot hopened
    rw [lookup_assembleNestedVia, hlookup]
    cases hd : item.nested.lookup slot with
    | none => rfl
    | some d => exact congrArg some (hopens d (hopened d hd))
  rw [perform, perform]
  show (if scope.admits a = true then _ else _) = _
  cases hadmits : scope.admits a with
  | true =>
    rw [if_pos rfl, if_pos rfl, Application.apply_withNested hsome]
    · rfl
    · intro slot hslot
      refine hsame slot fun d hd => ?_
      rw [opened?, happ, Option.bind_some, if_pos hadmits, hslot]
      exact hd
  | false =>
    rw [if_neg Bool.false_ne_true, if_neg Bool.false_ne_true]
    refine congrArg (Option.getD · (pure false)) (hsame .otherwise fun d hd => ?_)
    rw [opened?, happ, Option.bind_some, hadmits]
    exact hd

/-- **Only what is taken up is entered.**  A hook that lets every definition pass that is taken
up is not noticed, whatever it does with all others. -/
theorem assembleVia_eq (h : ∀ d, scope.Assembles items d → enter d = id) :
    scope.assembleVia enter items = scope.assemble items := by
  induction items using scope.opened_induction with
  | h items ih =>
    -- items enter no definition but the one that they open, and that one is assembled
    have hitem : ∀ item ∈ items, scope.assembleItemVia enter item = scope.assembleItem item := by
      intro item hitem
      rw [assembleItemVia_eq, assembleItem_eq]
      cases happ : scope.application? item with
      | none => rfl
      | some a =>
        dsimp only
        rw [perform_withNested happ]
        intro d hopened
        exact ih item hitem d hopened fun d' hd' => h d' (.opened hitem hopened hd')
    rw [assembleVia, h items (.self items), assemble, assembleItemsVia_eq_map,
      assembleItems_eq_map, List.map_congr_left hitem]
    rfl

end Scope

end QueryScript
