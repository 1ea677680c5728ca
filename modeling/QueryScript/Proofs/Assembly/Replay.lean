import QueryScript.Proofs.Assembly.Contribution
import QueryScript.Proofs.Assembly.Induction
import QueryScript.Proofs.Recorder.Independence

/-!
# The order of the calls

An item whose condition does not hold contributes what its `else` definition takes up, and that is
taken up, in two passes of its own, in the pass that the item belongs to.  `replay` lists what a
definition takes up in the order in which this happens, each action with its place
(`mem_replay_iff`), and assembling the definition is performing these actions, one after the other
(`discard_assemble`).  So a run that succeeds makes exactly their calls, one by one
(`replays_of_runs`), on the builder of the query and on every builder nested in it
(`exists_replays_of_encloses`); and one that fails has made those of the actions before the one that
is refused (`assemble_cases`).

The names come first and everything else in the order of the document exactly if no `else`
definition gets in the way (`inOrder_iff`).  One of an ordinary item may bring names after an
ordinary call, and one of an item that names something may bring ordinary calls before those of
items that are written before it.
-/

namespace QueryScript

namespace Scope

mutual

/-- What an item contributes: its action, or what its `else` definition takes up. -/
def contribution (scope : Scope) : Item → Contribution
  | .stray _ => .nothing
  | .step es nested =>
    match scope.application? (.step es nested) with
    | some a =>
      ⟨a.route = .withQuery,
        if scope.admits a then [⟨[], a⟩]
        else ((replayNested scope nested).lookup .otherwise).getD []⟩
    | none => .nothing

/-- What the items contribute. -/
def contributions (scope : Scope) : List Item → List Contribution
  | [] => []
  | i :: rest => contribution scope i :: contributions scope rest

/-- What nested definitions take up, by their slots. -/
def replayNested (scope : Scope) : List (Slot × List Item) → List (Slot × List Taken)
  | [] => []
  | (slot, items) :: rest =>
    (slot, Contribution.replay (contributions scope items)) :: replayNested scope rest

end

/-- The actions that a definition takes up, in the order in which their calls are made. -/
def replay (scope : Scope) (definition : Definition) : List Taken :=
  Contribution.replay (scope.contributions definition)

/-- The definition takes up an action at a place: that of an item whose condition holds, or one
that the `else` definition of an item takes up whose condition does not hold. -/
inductive TakesUp (scope : Scope) : Definition → List Nat → Application → Prop where
  | own {d : Definition} {i : Nat} {item : Item} {a : Application} (hitem : d[i]? = some item)
      (happ : scope.application? item = some a) (hadmits : scope.admits a = true) :
      TakesUp scope d [i] a
  | otherwise {d e : Definition} {i : Nat} {item : Item} {a b : Application} {place : List Nat}
      (hitem : d[i]? = some item) (happ : scope.application? item = some a)
      (hadmits : scope.admits a = false) (hopened : scope.opened? item = some e)
      (h : TakesUp scope e place b) : TakesUp scope d (i :: place) b

/-- `e` is one of the definitions that a definition is made of: itself, or the `else` definition
of an item whose condition does not hold. -/
inductive Splices (scope : Scope) : Definition → Definition → Prop where
  | self (d : Definition) : Splices scope d d
  | otherwise {d d' e : Definition} {item : Item} {a : Application} (hitem : item ∈ d)
      (happ : scope.application? item = some a) (hadmits : scope.admits a = false)
      (hopened : scope.opened? item = some d') (h : Splices scope d' e) : Splices scope d e

/-- Names come first, and everything else in the order of the document. -/
def InOrder (scope : Scope) (d : Definition) : Prop :=
  (scope.replay d).Pairwise Taken.Precedes

/-- In no definition that it is made of do items get in each other's way. -/
def KeepsOrder (scope : Scope) (d : Definition) : Prop :=
  ∀ e, scope.Splices d e → (scope.contributions e).Pairwise Contribution.Keeps

variable {scope : Scope} {item : Item} {items d : Definition} {a : Application}

/-! ## The contributions of items -/

theorem contributions_eq_map (scope : Scope) (items : Definition) :
    scope.contributions items = items.map scope.contribution := by
  induction items with
  | nil => rfl
  | cons item items ih => rw [contributions, ih, List.map_cons]

theorem lookup_replayNested (scope : Scope) (nested : List (Slot × Definition)) (slot : Slot) :
    (scope.replayNested nested).lookup slot = (nested.lookup slot).map scope.replay := by
  induction nested with
  | nil => rfl
  | cons entry nested ih =>
    obtain ⟨slot', d⟩ := entry
    rw [replayNested, List.lookup_cons, List.lookup_cons]
    split
    · rfl
    · exact ih

/-- An item contributes its action, or what its `else` definition takes up. -/
theorem contribution_eq (scope : Scope) (item : Item) :
    scope.contribution item =
      match scope.application? item with
      | some a =>
        ⟨a.route = .withQuery,
          if scope.admits a then [⟨[], a⟩]
          else ((scope.opened? item).map scope.replay).getD []⟩
      | none => .nothing := by
  cases item with
  | stray v => rfl
  | step es nested =>
    rw [contribution]
    cases happ : scope.application? (.step es nested) with
    | none => rfl
    | some a =>
      dsimp only
      cases hadmits : scope.admits a with
      | true => rfl
      | false =>
        rw [lookup_replayNested, opened?, happ, Option.bind_some, hadmits]
        rfl

theorem taken_of_admitted (happ : scope.application? item = some a)
    (hadmits : scope.admits a = true) : (scope.contribution item).taken = [⟨[], a⟩] := by
  rw [contribution_eq, happ]
  simp [hadmits]

theorem taken_of_replaced (happ : scope.application? item = some a)
    (hadmits : scope.admits a = false) :
    (scope.contribution item).taken = ((scope.opened? item).map scope.replay).getD [] := by
  rw [contribution_eq, happ]
  simp [hadmits]

theorem taken_of_none (happ : scope.application? item = none) :
    (scope.contribution item).taken = [] := by
  rw [contribution_eq, happ]
  rfl

/-- A property of lists of actions holds of what an item contributes if it holds of nothing, of
its action, and of what its `else` definition takes up. -/
theorem taken_of {P : List Taken → Prop} (item : Item) (hnothing : P [])
    (hadmitted : ∀ a, scope.application? item = some a → scope.admits a = true → P [⟨[], a⟩])
    (hreplaced : ∀ a e, scope.application? item = some a → scope.admits a = false →
      scope.opened? item = some e → P (scope.replay e)) : P (scope.contribution item).taken := by
  cases happ : scope.application? item with
  | none =>
    rw [taken_of_none happ]
    exact hnothing
  | some a =>
    cases hadmits : scope.admits a with
    | true =>
      rw [taken_of_admitted happ hadmits]
      exact hadmitted a happ hadmits
    | false =>
      rw [taken_of_replaced happ hadmits]
      cases hopened : scope.opened? item with
      | none => exact hnothing
      | some e => exact hreplaced a e happ hadmits hopened

/-! ## What is replayed is what is taken up -/

/-- **The actions that are replayed are those that are taken up**, with their places. -/
theorem mem_replay_iff {d : Definition} :
    ∀ {t : Taken}, t ∈ scope.replay d ↔ scope.TakesUp d t.place t.action := by
  induction d using scope.opened_induction with
  | h d ih =>
    intro t
    rw [replay, Contribution.mem_replay, contributions_eq_map]
    constructor
    · intro h
      obtain ⟨_, i, hget, t', ht', rfl⟩ := h
      rw [List.getElem?_map, Option.map_eq_some_iff] at hget
      obtain ⟨item, hitem, rfl⟩ := hget
      revert ht'
      refine taken_of item (P := fun taken => t' ∈ taken → _) (fun ht' => by cases ht') ?_ ?_
      · intro a happ hadmits ht'
        rw [List.mem_singleton.mp ht']
        exact .own hitem happ hadmits
      · intro a e happ hadmits hopened ht'
        exact .otherwise hitem happ hadmits hopened
          ((ih item (List.mem_of_getElem? hitem) e hopened).mp ht')
    · intro h
      obtain ⟨place, action⟩ := t
      cases h with
      | @own _ i item a hitem happ hadmits =>
        refine ⟨_, i, by rw [List.getElem?_map, hitem]; rfl, ⟨[], action⟩, ?_, rfl⟩
        rw [taken_of_admitted happ hadmits]
        exact List.mem_singleton_self _
      | @otherwise _ e i item a _ place hitem happ hadmits hopened h =>
        refine ⟨_, i, by rw [List.getElem?_map, hitem]; rfl, ⟨place, action⟩, ?_, rfl⟩
        rw [taken_of_replaced happ hadmits, hopened]
        exact (ih item (List.mem_of_getElem? hitem) e hopened).mpr h

/-! ## When the order is kept -/

/-- A definition keeps the order if its items do, and each `else` definition does that one of them
is replaced by. -/
theorem keepsOrder_iff :
    scope.KeepsOrder d ↔ (scope.contributions d).Pairwise Contribution.Keeps ∧
      ∀ item ∈ d, ∀ a e, scope.application? item = some a → scope.admits a = false →
        scope.opened? item = some e → scope.KeepsOrder e := by
  constructor
  · intro h
    refine ⟨h d (.self d), fun item hitem a e happ hadmits hopened e' hsplices => ?_⟩
    exact h e' (.otherwise hitem happ hadmits hopened hsplices)
  · intro h e hsplices
    obtain ⟨hown, helse⟩ := h
    cases hsplices with
    | self => exact hown
    | otherwise hitem happ hadmits hopened hsplices =>
      exact helse _ hitem _ _ happ hadmits hopened e hsplices

/-- **Names come first and everything else in the order of the document exactly if** in no
definition that is taken up the items get in each other's way. -/
theorem inOrder_iff (scope : Scope) (d : Definition) : scope.InOrder d ↔ scope.KeepsOrder d := by
  induction d using scope.opened_induction with
  | h d ih =>
    unfold InOrder at ih ⊢
    have hunder : ∀ i (t t' : Taken), (t.under i).Precedes (t'.under i) ↔ t.Precedes t' := by
      intro i t t'
      simp [Taken.Precedes]
    rw [replay, Contribution.pairwise_replay_iff hunder fun c c' _ _ hij =>
      Contribution.precedes_iff_keeps c c' hij, keepsOrder_iff, and_comm]
    refine and_congr_right fun _ => ?_
    rw [contributions_eq_map, List.forall_mem_map]
    refine forall₂_congr fun item hitem => ?_
    constructor
    · intro h a e happ hadmits hopened
      rw [taken_of_replaced happ hadmits, hopened] at h
      exact (ih item hitem e hopened).mp h
    · intro h
      refine taken_of item .nil (fun _ _ _ => List.pairwise_singleton ..) ?_
      intro a e happ hadmits hopened
      exact (ih item hitem e hopened).mpr (h a e happ hadmits hopened)

/-! ## Runs -/

/-- The calls are made by the actions, one by one. -/
def MakesAll (scope : Scope) (actions : List Application) (calls : List Call) : Prop :=
  List.Forall₂ (fun a c => a.Makes scope c) actions calls

/-- The calls are those that the definition replays, one by one. -/
def Replays (scope : Scope) (d : Definition) (calls : List Call) : Prop :=
  scope.MakesAll ((scope.replay d).map (·.action)) calls

/-- What the definition replays stops at an action that is refused: the calls are those of the
actions before it. -/
def StopsAfter (scope : Scope) (d : Definition) (calls : List Call) (e : Error) : Prop :=
  ∃ before a after, (scope.replay d).map (·.action) = before ++ a :: after ∧
    scope.MakesAll before calls ∧ (scope.perform a).Refuses e

/-- Performs actions one after the other, whether they cap or not. -/
def performAll (scope : Scope) (actions : List Application) : Build Unit :=
  actions.forM fun a => discard (scope.perform a)

/-- The actions that an item contributes, without their places. -/
def actionsOf (scope : Scope) (item : Item) : List Application :=
  (scope.contribution item).taken.map (·.action)

/-- The actions of a definition are those of its items, in two passes. -/
theorem map_action_replay (scope : Scope) (items : Definition) :
    (scope.replay items).map (·.action) =
      (items.filter fun item => (scope.contribution item).declares).flatMap scope.actionsOf ++
        (items.filter fun item => !(scope.contribution item).declares).flatMap
          scope.actionsOf := by
  rw [replay, Contribution.map_action_replay, contributions_eq_map, List.filter_map,
    List.filter_map, ← List.map_append, List.flatMap_map, List.flatMap_append]
  rfl

theorem declares_assembleItem (scope : Scope) (item : Item) :
    (scope.assembleItem item).declares = (scope.contribution item).declares := by
  rw [assembleItem_eq, contribution_eq]
  cases scope.application? item <;> rfl

/-- A definition is assembled in two passes over its items. -/
theorem assemble_eq_twoPasses (scope : Scope) (items : Definition) :
    scope.assemble items = (do
      let capped ← Step.runInOrder
        ((items.filter fun item => (scope.contribution item).declares).map scope.assembleItem)
      let cappedLater ← Step.runInOrder
        ((items.filter fun item => !(scope.contribution item).declares).map scope.assembleItem)
      return capped || cappedLater) := by
  rw [assemble, assembleItems_eq_map, Step.runAll, List.filter_map, List.filter_map]
  simp only [Function.comp_def, declares_assembleItem]

theorem performAll_append (first second : List Application) :
    scope.performAll (first ++ second) =
      scope.performAll first >>= fun _ => scope.performAll second :=
  List.forM_append

/-- An item performs the actions that it contributes, if its `else` definition performs those that
it replays. -/
theorem discard_assembleItem
    (hopens : ∀ e, scope.opened? item = some e →
      discard (scope.assemble e) = scope.performAll ((scope.replay e).map (·.action))) :
    discard (scope.assembleItem item).run = scope.performAll (scope.actionsOf item) := by
  rw [assembleItem_eq, actionsOf]
  cases happ : scope.application? item with
  | none =>
    rw [taken_of_none happ]
    rfl
  | some a =>
    dsimp only
    cases hadmits : scope.admits a with
    | true =>
      rw [taken_of_admitted happ hadmits]
      exact bind_pure_unit.symm
    | false =>
      rw [taken_of_replaced happ hadmits, perform, hadmits, otherwise_eq happ hadmits]
      cases hopened : scope.opened? item with
      | none => rfl
      | some e => exact hopens e hopened

/-- One pass performs the actions of its items, if each item performs its own. -/
theorem discard_runInOrder {pass : List Item}
    (hitems : ∀ item ∈ pass,
      discard (scope.assembleItem item).run = scope.performAll (scope.actionsOf item)) :
    discard (Step.runInOrder (pass.map scope.assembleItem)) =
      scope.performAll (pass.flatMap scope.actionsOf) := by
  induction pass with
  | nil => rfl
  | cons item rest ih =>
    obtain ⟨hitem, hrest⟩ := List.forall_mem_cons.mp hitems
    rw [List.map_cons, Step.runInOrder, Build.discard_or, hitem, ih hrest, List.flatMap_cons,
      performAll_append]

/-- **Assembling a definition performs the actions that it replays**, one after the other. -/
theorem discard_assemble (scope : Scope) (items : Definition) :
    discard (scope.assemble items) = scope.performAll ((scope.replay items).map (·.action)) := by
  induction items using scope.opened_induction with
  | h items ih =>
    have hitems : ∀ item ∈ items,
        discard (scope.assembleItem item).run = scope.performAll (scope.actionsOf item) :=
      fun item hitem => discard_assembleItem fun e hopened => ih item hitem e hopened
    rw [assemble_eq_twoPasses, Build.discard_or,
      discard_runInOrder fun item hitem => hitems item (List.mem_filter.mp hitem).1,
      discard_runInOrder fun item hitem => hitems item (List.mem_filter.mp hitem).1,
      map_action_replay, performAll_append]

/-- What is taken up is the action of an item whose condition holds. -/
theorem TakesUp.exists_applies {place : List Nat} (h : scope.TakesUp d place a) :
    ∃ e item, scope.Assembles d e ∧ item ∈ e ∧ scope.application? item = some a ∧
      scope.admits a = true := by
  induction h with
  | @own d i item a hitem happ hadmits =>
    exact ⟨d, item, .self d, List.mem_of_getElem? hitem, happ, hadmits⟩
  | otherwise hitem _ _ hopened _ ih =>
    obtain ⟨e, item, hassembles, hrest⟩ := ih
    exact ⟨e, item, .opened (List.mem_of_getElem? hitem) hopened hassembles, hrest⟩

/-- An action whose condition holds makes its call or is refused. -/
theorem discard_perform_makesOne (hadmits : scope.admits a = true) :
    (discard (scope.perform a)).MakesOne (a.Makes scope) := by
  have hperform : discard (scope.perform a) =
      Build.lift (scope.guard.checkAction a.method) >>= fun _ => a.apply scope := by
    rw [perform, if_pos hadmits, Build.discard_bind]
    refine bind_congr fun _ => ?_
    rw [Build.discard_bind]
    exact bind_pure_unit
  rw [hperform]
  exact .lift_bind fun _ _ => a.apply_makesOne scope

/-- **On every recorder alike**, a definition makes the calls that it replays, one by one, or stops
at an action that is refused. -/
theorem assemble_cases (scope : Scope) (items : Definition) :
    (∃ calls, (discard (scope.assemble items)).Gives (.ok ()) calls ∧
        scope.Replays items calls) ∨
      ∃ e calls, (discard (scope.assemble items)).Gives (.error e) calls ∧
        scope.StopsAfter items calls e := by
  have hone : ∀ a ∈ (scope.replay items).map (·.action),
      (discard (scope.perform a)).MakesOne (a.Makes scope) := by
    intro a ha
    obtain ⟨t, ht, rfl⟩ := List.mem_map.mp ha
    obtain ⟨_, _, _, _, _, hadmits⟩ := (mem_replay_iff.mp ht).exists_applies
    exact discard_perform_makesOne hadmits
  rw [discard_assemble]
  rcases Build.forM_cases hone with ⟨calls, hgives, hmade⟩ |
    ⟨before, a, after, calls, e, hsplit, hrefuses, hgives, hmade⟩
  · exact .inl ⟨calls, hgives, hmade⟩
  · exact .inr ⟨e, calls, hgives, before, a, after, hsplit, hmade, hrefuses.of_discard⟩

/-- **A run that succeeds makes the calls that are replayed, one by one.** -/
theorem replays_of_runs {items : Definition} {capped : Bool} {added : List Call}
    (h : (scope.assemble items).Runs capped added) : scope.Replays items added := by
  obtain ⟨r, r', hrun, hcalls⟩ := h
  have hdiscard := Build.runOn_discard_eq_ok.mpr ⟨capped, hrun⟩
  rcases scope.assemble_cases items with ⟨calls, hgives, hreplays⟩ | ⟨e, calls, hgives, -⟩
  · obtain ⟨limit, offset, hsame⟩ := hgives r
    rw [hdiscard] at hsame
    cases hsame
    rw [← List.append_cancel_left hcalls]
    exact hreplays
  · obtain ⟨limit, offset, hsame⟩ := hgives r
    rw [hdiscard] at hsame
    cases hsame

/-! ## Nested builders -/

/-- The calls on a builder nested in one of the calls are those of a definition that is
assembled. -/
theorem exists_runs_of_nested {capped : Bool} {added inner : List Call}
    (h : (scope.assemble items).Runs capped added) {outer : Call} (houter : outer ∈ added)
    (hinner : .nested inner ∈ outer.operands) :
    ∃ d x, scope.Assembles items d ∧ (scope.assemble d).Runs x inner := by
  obtain ⟨a, ha, hmakes⟩ : ∃ a ∈ (scope.replay items).map (·.action), a.Makes scope outer := by
    obtain ⟨i, hi, rfl⟩ := List.mem_iff_getElem.mp houter
    have hall := replays_of_runs h
    have hlength := hall.length_eq
    exact ⟨_, List.getElem_mem (by omega), hall.get (by omega) hi⟩
  obtain ⟨t, ht, rfl⟩ := List.mem_map.mp ha
  obtain ⟨e, item, hassembles, hitem, happ, hadmits⟩ := (mem_replay_iff.mp ht).exists_applies
  obtain ⟨sub, r, hsub, hrun, rfl⟩ := hmakes.nested hinner
  rw [sub?_eq happ hadmits] at hsub
  obtain ⟨d, hopened, rfl⟩ := Option.map_eq_some_iff.mp hsub
  obtain ⟨x, hrun⟩ := Build.runOn_discard_eq_ok.mp hrun
  exact ⟨d, x, hassembles.snoc hitem hopened, .fresh, r, hrun, rfl⟩

end Scope

/-- The calls were made on a builder that is nested in one of the calls, at whatever depth. -/
inductive Call.Encloses (inner : List Call) : List Call → Prop where
  | here {calls : List Call} {outer : Call} (houter : outer ∈ calls)
      (hinner : .nested inner ∈ outer.operands) : Encloses inner calls
  | deeper {calls middle : List Call} {outer : Call} (houter : outer ∈ calls)
      (hmiddle : .nested middle ∈ outer.operands) (h : Encloses inner middle) :
      Encloses inner calls

namespace Scope

variable {scope : Scope} {items : Definition}

/-- **The calls of every nested builder are replayed** from a definition that is assembled. -/
theorem exists_replays_of_encloses {capped : Bool} {added inner : List Call}
    (h : (scope.assemble items).Runs capped added) (hencloses : Call.Encloses inner added) :
    ∃ d, scope.Assembles items d ∧ scope.Replays d inner := by
  induction hencloses generalizing items capped with
  | here houter hinner =>
    obtain ⟨d, x, hassembles, hruns⟩ := exists_runs_of_nested h houter hinner
    exact ⟨d, hassembles, replays_of_runs hruns⟩
  | deeper houter hmiddle _ ih =>
    obtain ⟨d, x, hassembles, hruns⟩ := exists_runs_of_nested h houter hmiddle
    obtain ⟨e, hassembles', hmakes⟩ := ih hruns
    exact ⟨e, hassembles.trans hassembles', hmakes⟩

end Scope

end QueryScript
