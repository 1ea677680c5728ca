import QueryScript.Assembly.Basic
import QueryScript.Proofs.Assembly.Calls
import QueryScript.Proofs.Definition.Tree

/-!
# The calls of a whole query

Assembling a definition takes up the actions of its items, and through them definitions
nested in the items: the `else` definition of an action whose condition does not hold,
and otherwise the one in the action's slot (`opened?`).  `Assembles` follows these steps
any number of times, and `Applies` names the actions of one definition whose conditions
hold.

The calls of a query are then exactly those of the actions so reached.  Every call, at
whatever depth and whether the run succeeds or not, is made by such an action
(`assemble_adds`); and when the run succeeds, every such action has made its call
(`exists_made_of_applies`).
-/

namespace QueryScript

/-- What is found under a key is listed under it. -/
theorem mem_of_lookup {α β : Type} [BEq α] [LawfulBEq α] {key : α} {found : β}
    {entries : List (α × β)} (h : entries.lookup key = some found) : (key, found) ∈ entries := by
  obtain ⟨before, after, hsplit, -⟩ := List.lookup_eq_some_iff.mp h
  rw [hsplit]
  exact List.mem_append_right _ (List.mem_cons_self ..)

namespace Scope

/-- The action of an item, with what it needs to be applied. -/
def application? (scope : Scope) : Item → Option Application
  | .stray _ => none
  | .step es nested =>
    match Head.ofEntries? es with
    | some (.action key) =>
      match Action.route? key, Entries.get? es key with
      | some route, some written =>
        let resolved := Json.resolve scope.params written
        some ⟨key, route, es, written, resolved,
          actionArguments (Action.normalize key).base route resolved, scope.assembleNested nested⟩
      | _, _ => none
    | _ => none

/-- Whether the condition of an action holds. -/
def admits (scope : Scope) (a : Application) : Bool :=
  scope.isEnabled a.entries a.args

/-- The nested definition that an item's step builds, if it builds one. -/
def opened? (scope : Scope) (item : Item) : Option Definition :=
  (scope.application? item).bind fun a =>
    (if scope.admits a then a.slot? else some .otherwise).bind fun slot =>
      item.nested.lookup slot

/-- `d` is one of the definitions that are assembled when `items` are. -/
inductive Assembles (scope : Scope) : Definition → Definition → Prop where
  | self (items : Definition) : Assembles scope items items
  | opened {items d d' : Definition} {item : Item} (hitem : item ∈ items)
      (hopened : scope.opened? item = some d) (h : Assembles scope d d') :
      Assembles scope items d'

/-- The action is that of an item of the definition, and its condition holds. -/
def Applies (scope : Scope) (d : Definition) (a : Application) : Prop :=
  ∃ item ∈ d, scope.application? item = some a ∧ scope.admits a = true

/-- The call is made by an action that is reached from the items. -/
def MadeFrom (scope : Scope) (items : Definition) (c : Call) : Prop :=
  ∃ d a, scope.Assembles items d ∧ scope.Applies d a ∧
    scope.guard.checkAction a.method = .ok () ∧ a.Makes scope c

variable {scope : Scope} {item : Item} {items : Definition} {a : Application}

/-! ## The step of an item -/

/-- Runs an action, or its `else` definition if its condition does not hold. -/
def perform (scope : Scope) (a : Application) : Build Bool :=
  if scope.admits a then do
    Build.lift (scope.guard.checkAction a.method)
    a.apply scope
    return a.route.setsLimit
  else (a.nested.lookup .otherwise).getD (pure false)

/-- What an item's action knows of the item. -/
theorem application?_spec (h : scope.application? item = some a) :
    Action.route? a.method = some a.route ∧ a.nested = scope.assembleNested item.nested ∧
      ∃ nested, item = .step a.entries nested ∧
        Head.ofEntries? a.entries = some (.action a.method) ∧
        Entries.get? a.entries a.method = some a.written ∧
        a.resolved = Json.resolve scope.params a.written ∧
        a.args = actionArguments (Action.normalize a.method).base a.route a.resolved := by
  cases item with
  | stray v => cases h
  | step es nested =>
    rw [application?] at h
    split at h
    next key hkey =>
      split at h
      next route written hroute hwritten =>
        cases h
        exact ⟨hroute, rfl, nested, rfl, hkey, hwritten, rfl, rfl⟩
      next => cases h
    next => cases h

/-- Where the same value is filled in, an item has the same action in another scope, with its
nested definitions assembled there. -/
theorem application?_of_resolve {scope scope' : Scope}
    (h : ∀ es nested key written, item = .step es nested → Entries.get? es key = some written →
      written.resolve scope'.params = written.resolve scope.params) :
    scope'.application? item =
      (scope.application? item).map ({ · with nested := scope'.assembleNested item.nested }) := by
  cases item with
  | stray v => rfl
  | step es nested =>
    rw [application?, application?]
    cases Head.ofEntries? es with
    | none => rfl
    | some head =>
      cases head with
      | executor key => rfl
      | action key =>
        dsimp only
        cases Action.route? key with
        | none => rfl
        | some route =>
          cases hwritten : Entries.get? es key with
          | none => rfl
          | some written =>
            dsimp only
            rw [h es nested key written rfl hwritten]
            rfl

/-- A step does what its action does, with the builds that it is given for what is nested in it. -/
theorem step_eq (scope : Scope) (es : Entries) (nested : List (Slot × Definition))
    (builds : List (Slot × Build Bool)) :
    scope.step es builds =
      match scope.application? (.step es nested) with
      | some a => ⟨a.route = .withQuery, scope.perform { a with nested := builds }⟩
      | none => .inert := by
  rw [step, application?]
  cases Head.ofEntries? es with
  | none => rfl
  | some head =>
    cases head with
    | executor key => rfl
    | action key =>
      dsimp only
      cases Action.route? key with
      | none => rfl
      | some route => cases Entries.get? es key <;> rfl

/-- The step of an item performs the item's action. -/
theorem assembleItem_eq (scope : Scope) (item : Item) :
    scope.assembleItem item =
      match scope.application? item with
      | some a => ⟨a.route = .withQuery, scope.perform a⟩
      | none => .inert := by
  cases item with
  | stray v => rfl
  | step es nested =>
    rw [assembleItem, scope.step_eq es nested]
    cases happ : scope.application? (.step es nested) with
    | none => rfl
    | some a =>
      have hnested : a.nested = scope.assembleNested nested := (application?_spec happ).2.1
      dsimp only
      rw [← hnested]

/-- Items are assembled one by one. -/
theorem assembleItems_eq_map (scope : Scope) (items : Definition) :
    scope.assembleItems items = items.map scope.assembleItem := by
  induction items with
  | nil => rfl
  | cons item items ih => rw [assembleItems, ih, List.map_cons]

/-- The definitions in the slots of an item are assembled one by one. -/
theorem assembleNested_eq_map (scope : Scope) (nested : List (Slot × Definition)) :
    scope.assembleNested nested = nested.map fun (slot, d) => (slot, scope.assemble d) := by
  induction nested with
  | nil => rfl
  | cons entry nested ih =>
    obtain ⟨slot, d⟩ := entry
    rw [assembleNested, ih, List.map_cons]
    rfl

/-- What stands assembled in a slot is the definition that is written there. -/
theorem lookup_assembleNested (scope : Scope) (nested : List (Slot × Definition)) (slot : Slot) :
    (scope.assembleNested nested).lookup slot = (nested.lookup slot).map scope.assemble := by
  rw [assembleNested_eq_map]
  induction nested with
  | nil => rfl
  | cons entry nested ih =>
    obtain ⟨slot', d⟩ := entry
    rw [List.map_cons, List.lookup_cons, List.lookup_cons]
    split
    · rfl
    · exact ih

/-- What an action builds in a slot is the definition that is written there, assembled. -/
theorem inSlot_eq (h : scope.application? item = some a) (slot : Slot) :
    a.inSlot slot = (item.nested.lookup slot).map fun d => discard (scope.assemble d) := by
  rw [Application.inSlot, (application?_spec h).2.1, lookup_assembleNested, Option.map_map]
  rfl

/-- The nested query that an admitted action builds is the definition that its item opens. -/
theorem sub?_eq (h : scope.application? item = some a) (hadmits : scope.admits a = true) :
    a.sub? = (scope.opened? item).map fun d => discard (scope.assemble d) := by
  rw [opened?, h, Option.bind_some, if_pos hadmits, Application.sub?]
  cases a.slot? with
  | none => rfl
  | some slot => exact inSlot_eq h slot

/-- The `else` definition of an action is the one that its item opens when its condition does
not hold. -/
theorem otherwise_eq (h : scope.application? item = some a) (hadmits : scope.admits a = false) :
    a.nested.lookup .otherwise = (scope.opened? item).map scope.assemble := by
  rw [opened?, h, Option.bind_some, hadmits, (application?_spec h).2.1, lookup_assembleNested]
  rfl

/-- The definition that an item opens is nested in it. -/
theorem mem_nested_of_opened? {d : Definition} (h : scope.opened? item = some d) :
    ∃ slot, (slot, d) ∈ item.nested := by
  obtain ⟨a, -, h⟩ := Option.bind_eq_some_iff.mp h
  obtain ⟨slot, -, h⟩ := Option.bind_eq_some_iff.mp h
  exact ⟨slot, mem_of_lookup h⟩

/-- Induction on a definition, where the property may be assumed of what its items open. -/
theorem opened_induction (scope : Scope) {P : Definition → Prop}
    (h : ∀ items : Definition,
      (∀ item ∈ items, ∀ d, scope.opened? item = some d → P d) → P items)
    (items : Definition) : P items := by
  induction items using Definition.induction with
  | h items ih =>
    refine h items fun item hitem d hopened => ?_
    obtain ⟨slot, hslot⟩ := mem_nested_of_opened? hopened
    exact ih item hitem slot d hslot

/-! ## Every call is made by an action that is reached -/

variable {P : Call → Prop} {steps : List Step}

theorem runInOrder_adds (h : ∀ s ∈ steps, s.run.Adds P) : (Step.runInOrder steps).Adds P := by
  induction steps with
  | nil => exact Build.adds_pure false
  | cons s rest ih =>
    refine (h s (List.mem_cons_self ..)).bind fun _ => ?_
    refine (ih fun s' hs' => h s' (List.mem_cons_of_mem _ hs')).bind fun _ => ?_
    exact Build.adds_pure _

theorem runAll_adds (h : ∀ s ∈ steps, s.run.Adds P) : (Step.runAll steps).Adds P := by
  refine (runInOrder_adds fun s hs => h s ((List.mem_filter.mp hs).1)).bind fun _ => ?_
  refine (runInOrder_adds fun s hs => h s ((List.mem_filter.mp hs).1)).bind fun _ => ?_
  exact Build.adds_pure _

theorem MadeFrom.of_opened {d : Definition} {c : Call} (hitem : item ∈ items)
    (hopened : scope.opened? item = some d) (h : scope.MadeFrom d c) : scope.MadeFrom items c := by
  obtain ⟨d', a, hassembles, hrest⟩ := h
  exact ⟨d', a, .opened hitem hopened hassembles, hrest⟩

/-- The step of an item makes only calls of actions that are reached from the items, if the
definition that it opens does. -/
theorem perform_adds (hitem : item ∈ items) (happ : scope.application? item = some a)
    (ih : ∀ d, scope.opened? item = some d → (scope.assemble d).Adds (scope.MadeFrom d)) :
    (scope.perform a).Adds (scope.MadeFrom items) := by
  rw [perform]
  split
  next hadmits =>
    -- the action may be refused before it is applied, and then nothing is called
    intro r
    cases hcheck : scope.guard.checkAction a.method with
    | error e => exact Build.adds_of_unchanged (fun _ => rfl) r
    | ok _ =>
      have hone : (a.apply scope).Adds (scope.MadeFrom items) := by
        refine (a.apply_makesOne scope).adds ?_ ?_
        · intro c hc
          exact ⟨items, a, .self items, ⟨item, hitem, happ, hadmits⟩, hcheck, hc⟩
        · intro c hc inner hinner c' hc'
          obtain ⟨sub, r, hsub, hrun, rfl⟩ := hc.nested hinner
          rw [sub?_eq happ hadmits] at hsub
          obtain ⟨d, hd, rfl⟩ := Option.map_eq_some_iff.mp hsub
          obtain ⟨added, hcalls, hall⟩ := (ih d hd).discard .fresh
          rw [hrun] at hcalls
          have hadded : r.calls = added := hcalls
          rw [hadded] at hc'
          exact .of_opened hitem hd (hall c' hc')
      exact (hone.bind fun _ => Build.adds_pure _) r
  next hadmits =>
    rw [otherwise_eq happ (Bool.not_eq_true _ ▸ hadmits)]
    cases hopened : scope.opened? item with
    | none => exact Build.adds_pure false
    | some d => exact (ih d hopened).mono fun c hc => .of_opened hitem hopened hc

/-- **Every call is made by an action that is reached**, at whatever depth the call is made and
whether the run succeeds or not. -/
theorem assemble_adds (scope : Scope) (items : Definition) :
    (scope.assemble items).Adds (scope.MadeFrom items) := by
  induction items using scope.opened_induction with
  | h items ih =>
    refine runAll_adds fun s hs => ?_
    rw [assembleItems_eq_map] at hs
    obtain ⟨item, hitem, rfl⟩ := List.mem_map.mp hs
    rw [assembleItem_eq]
    split
    next a happ => exact perform_adds hitem happ (ih item hitem)
    next => exact Build.adds_pure false

/-! ## A run that succeeds has made the call of every action that is reached -/

/-- In a run of several steps each of them was run, and what it added is among the calls. -/
theorem runs_of_runInOrder (hgrows : ∀ s ∈ steps, s.run.Adds P) {capped : Bool}
    {added : List Call} (h : (Step.runInOrder steps).Runs capped added) :
    ∀ s ∈ steps, ∃ x part, s.run.Runs x part ∧ part ⊆ added := by
  induction steps generalizing capped added with
  | nil => intro s hs; cases hs
  | cons s rest ih =>
    have hrest : ∀ s' ∈ rest, s'.run.Adds P := fun s' hs' => hgrows s' (List.mem_cons_of_mem _ hs')
    obtain ⟨x, y, first, second, hfirst, hsecond, -, rfl⟩ :=
      Build.runs_or (hgrows s (List.mem_cons_self ..)) (runInOrder_adds hrest) h
    intro s' hs'
    rcases List.mem_cons.mp hs' with rfl | hs'
    · exact ⟨x, first, hfirst, List.subset_append_left _ _⟩
    · obtain ⟨z, part, hpart, hsub⟩ := ih hrest hsecond s' hs'
      exact ⟨z, part, hpart, fun c hc => List.mem_append_right _ (hsub hc)⟩

theorem runs_of_runAll (hgrows : ∀ s ∈ steps, s.run.Adds P) {capped : Bool}
    {added : List Call} (h : (Step.runAll steps).Runs capped added) :
    ∀ s ∈ steps, ∃ x part, s.run.Runs x part ∧ part ⊆ added := by
  have hfilter : ∀ p : Step → Bool, ∀ s ∈ steps.filter p, s.run.Adds P :=
    fun p s hs => hgrows s ((List.mem_filter.mp hs).1)
  obtain ⟨x, y, first, second, hfirst, hsecond, -, rfl⟩ :=
    Build.runs_or (runInOrder_adds (hfilter _)) (runInOrder_adds (hfilter _)) h
  intro s hs
  -- a step stands in one of the two groups, and both were run
  cases hdeclares : s.declares with
  | true =>
    obtain ⟨z, part, hpart, hsub⟩ := runs_of_runInOrder (hfilter _) hfirst s
      (List.mem_filter.mpr ⟨hs, hdeclares⟩)
    refine ⟨z, part, hpart, fun c hc => ?_⟩
    exact List.mem_append_left _ (hsub hc)
  | false =>
    obtain ⟨z, part, hpart, hsub⟩ := runs_of_runInOrder (hfilter _) hsecond s
      (List.mem_filter.mpr ⟨hs, by rw [hdeclares]; rfl⟩)
    refine ⟨z, part, hpart, fun c hc => ?_⟩
    exact List.mem_append_right _ (hsub hc)

/-- The step of an item only adds calls. -/
theorem assembleItem_grows (scope : Scope) (item : Item) :
    (scope.assembleItem item).run.Adds fun _ => True := by
  rw [assembleItem_eq]
  split
  next a happ =>
    have hadds := perform_adds (List.mem_singleton_self item) happ fun d _ => scope.assemble_adds d
    exact hadds.mono fun _ _ => trivial
  next => exact Build.adds_pure false

/-- In a run that succeeds, the action of every item was performed. -/
theorem runs_of_item {capped : Bool} {added : List Call}
    (h : (scope.assemble items).Runs capped added) (hitem : item ∈ items)
    (happ : scope.application? item = some a) :
    ∃ x part, (scope.perform a).Runs x part ∧ part ⊆ added := by
  have hgrows : ∀ s ∈ scope.assembleItems items, s.run.Adds fun _ => True := by
    intro s hs
    rw [assembleItems_eq_map] at hs
    obtain ⟨item, -, rfl⟩ := List.mem_map.mp hs
    exact assembleItem_grows scope item
  have hmem : (⟨a.route = .withQuery, scope.perform a⟩ : Step) ∈ scope.assembleItems items := by
    rw [assembleItems_eq_map]
    refine List.mem_map.mpr ⟨item, hitem, ?_⟩
    rw [assembleItem_eq, happ]
  exact runs_of_runAll hgrows h _ hmem

/-- Performing an action whose condition holds makes the action's call. -/
theorem runs_of_admitted (hone : (a.apply scope).MakesOne P) (hadmits : scope.admits a = true)
    {x : Bool} {part : List Call} (h : (scope.perform a).Runs x part) :
    ∃ c, P c ∧ part = [c] := by
  have hgrows : (a.apply scope).Adds fun _ => True :=
    hone.adds (fun _ _ => trivial) fun _ _ _ _ _ _ => trivial
  rw [perform, if_pos hadmits] at h
  obtain ⟨_, first, tail, hcheck, htail, rfl⟩ := Build.runs_bind
    (Build.adds_lift (P := fun _ => True) _)
    (fun _ => hgrows.bind fun _ => Build.adds_pure _) h
  obtain ⟨_, second, last, hsecond, hlast, rfl⟩ :=
    Build.runs_bind hgrows (fun _ => Build.adds_pure (P := fun _ => True) _) htail
  obtain ⟨c, hc, rfl⟩ := hone.runs hsecond
  rw [(Build.runs_lift hcheck).2, (Build.runs_pure hlast).2]
  exact ⟨c, hc, rfl⟩

/-- A run that succeeds has made the call of every action that is reached, and whatever is known
of that call holds. -/
theorem exists_call_of_applies {d : Definition} (hassembles : scope.Assembles items d)
    (happlies : scope.Applies d a) (hone : (a.apply scope).MakesOne P) :
    ∀ {capped : Bool} {added : List Call}, (scope.assemble items).Runs capped added →
      ∃ c, Call.Made c added ∧ P c := by
  -- on the way from `items` to `d`; each definition on it has a run of its own
  induction hassembles with
  | self items =>
    intro capped added hruns
    obtain ⟨item, hitem, happ, hadmits⟩ := happlies
    obtain ⟨x, part, hpart, hsub⟩ := runs_of_item hruns hitem happ
    obtain ⟨c, hc, rfl⟩ := runs_of_admitted hone hadmits hpart
    exact ⟨c, .here (hsub (List.mem_singleton.mpr rfl)), hc⟩
  | @opened items d d' item hitem hopened _ ih =>
    intro capped added hruns
    obtain ⟨a', happ, -⟩ := Option.bind_eq_some_iff.mp hopened
    obtain ⟨x, part, hpart, hsub⟩ := runs_of_item hruns hitem happ
    cases hadmits : scope.admits a' with
    | true =>
      obtain ⟨outer, hmakes, rfl⟩ := runs_of_admitted (a'.apply_makesOne scope) hadmits hpart
      have hquery := sub?_eq happ hadmits
      rw [hopened] at hquery
      obtain ⟨inner, hrun, hinner⟩ := hmakes.exists_nested hquery
      obtain ⟨y, hrun⟩ := Build.runOn_discard_eq_ok.mp hrun
      obtain ⟨c, hmade, hc⟩ := ih happlies ⟨.fresh, inner, hrun, rfl⟩
      refine ⟨c, ?_, hc⟩
      exact (Call.Made.within (List.mem_singleton.mpr rfl) hinner hmade).mono hsub
    | false =>
      rw [perform, hadmits, otherwise_eq happ hadmits, hopened] at hpart
      obtain ⟨c, hmade, hc⟩ := ih happlies hpart
      exact ⟨c, hmade.mono hsub, hc⟩

/-- **A run that succeeds has made the call of every action that is reached.** -/
theorem exists_made_of_applies {d : Definition} (hassembles : scope.Assembles items d)
    (happlies : scope.Applies d a) {capped : Bool} {added : List Call}
    (h : (scope.assemble items).Runs capped added) :
    ∃ c, Call.Made c added ∧ a.Makes scope c :=
  exists_call_of_applies hassembles happlies (a.apply_makesOne scope) h

end Scope

end QueryScript
