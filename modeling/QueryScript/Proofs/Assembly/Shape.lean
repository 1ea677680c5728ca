import QueryScript.Proofs.Assembly.Runs
import QueryScript.Proofs.Recorder.Shape

/-!
# The shape of what is assembled

An action takes the arguments of its call from its value with parameters filled in, but
which nested query it builds and by which methods its conditions are joined it reads off
the step as it is written.  So the shape of its call is that of the step and of the nested
query (`apply_shapes`).

Two scopes may differ in all that they fill in and in what they permit.  As long as no
condition gates a step, both take up the same actions and the same nested definitions, and
the calls of two runs that succeed have the same shapes (`sameShape_assemble`).
-/

namespace QueryScript

namespace Application

/-- The shape of the conditions that an action hands on, as they are written. -/
def conditionShape (a : Application) : List Operand :=
  if a.route.takesConditions then
    Build.conditionOperands (a.writtenConditions.map fun c => ⟨c.method, []⟩)
  else []

/-- The shape of the nested query that an action builds: none, or that of the calls of a run on
a builder of its own. -/
def Nests (a : Application) (operands : List Operand) : Prop :=
  (a.sub? = none ∧ operands = []) ∨
    ∃ sub inner, a.sub? = some sub ∧ sub.runOn .fresh = (.ok (), inner) ∧
      operands = [.nested (Call.shapes inner.calls)]

variable {a b : Application} {scope : Scope} {c : Call}

/-! ## The shape of an action's call -/

/-- A condition keeps the method that is written. -/
theorem methods_of_conditions {written : List WrittenCondition} {on : List JoinCondition}
    (h : written.mapM scope.condition = .ok on) :
    on.map (fun c => (⟨c.method, []⟩ : JoinCondition)) =
      written.map fun w => ⟨w.method, []⟩ := by
  induction written generalizing on with
  | nil =>
    cases h
    rfl
  | cons w written ih =>
    rw [List.mapM_cons] at h
    obtain ⟨c, hc, h⟩ := Checks.bind_eq_ok.mp h
    obtain ⟨cs, hcs, h⟩ := Checks.bind_eq_ok.mp h
    cases h
    obtain ⟨args, -, hpure⟩ := Checks.bind_eq_ok.mp hc
    cases hpure
    rw [List.map_cons, List.map_cons, ih hcs]

/-- The conditions that an action hands on have the shape that is written. -/
theorem shapeOperands_of_conditions (htakes : a.route.takesConditions = true)
    {on : List JoinCondition} (h : a.conditions scope = .ok on) :
    Call.shapeOperands (Build.conditionOperands on) = a.conditionShape := by
  rw [Call.shapeOperands_conditions, conditionShape, if_pos htakes,
    methods_of_conditions (mapM_writtenConditions h)]

theorem nests_none (h : a.sub? = none) : a.Nests [] :=
  .inl ⟨h, rfl⟩

theorem nests_some {sub : Build Unit} {inner : Recorder} (h : a.sub? = some sub)
    (hrun : sub.runOn .fresh = (.ok (), inner)) : a.Nests [.nested (Call.shapes inner.calls)] :=
  .inr ⟨sub, inner, h, hrun, rfl⟩

theorem conditionShape_eq_nil (h : a.route.takesConditions = false) : a.conditionShape = [] := by
  rw [conditionShape, h]
  rfl

/-- The call has the method of the action, the shape of the nested query that the action builds,
and that of the conditions as they are written. -/
def Shapes (a : Application) (c : Call) : Prop :=
  ∃ nested, a.Nests nested ∧ c.shape = .mk a.method (nested ++ a.conditionShape)

/-- A call without conditions has the shape of its action. -/
theorem Makes.shapes (h : a.Makes scope c) (hnone : a.route.takesConditions = false) :
    a.Shapes c := by
  rw [Shapes, conditionShape_eq_nil hnone]
  cases h with
  | table hroute _ | bare hroute =>
    exact ⟨[], nests_none (sub?_of_flat (by rw [hroute]; rfl) (by rw [hroute]; rfl)), rfl⟩
  | joinTable hroute _ _ _ | joinSql hroute _ _ _ | joinQuery hroute _ _ _ _ =>
    rw [hroute] at hnone
    cases hnone
  | plain _ hsub _ _ =>
    refine ⟨[], nests_none hsub, ?_⟩
    rw [Call.shape, Call.shapeOperands_args]
    rfl
  | named _ hsub hrun => exact ⟨_, nests_some hsub hrun, rfl⟩
  | group _ hsub hrun => exact ⟨_, nests_some hsub hrun, rfl⟩
  | whereQuery _ _ hsub hrun =>
    refine ⟨_, nests_some hsub hrun, ?_⟩
    rw [Call.shape, Call.shapeOperands_append, Call.shapeOperands_args]
    rfl
  | declare _ _ hsub hrun => exact ⟨_, nests_some hsub hrun, rfl⟩

open Build (MakesOne)

theorem applyJoin_shapes (hroute : a.route = .join ∨ a.route = .joinRaw) :
    (a.applyJoin scope).MakesOne a.Shapes := by
  have htakes : a.route.takesConditions = true := by
    rcases hroute with h | h <;> rw [h] <;> rfl
  have hnests : a.Nests [] := by
    refine nests_none (sub?_of_flat ?_ ?_)
    · rcases hroute with h | h <;> rw [h] <;> rfl
    · rcases hroute with h | h <;> rw [h] <;> rfl
  have hjoin : ∀ args, (do
      let conditions ← Build.lift (a.conditions scope)
      let args ← Build.lift (scope.arguments args)
      Build.join a.method args conditions).MakesOne a.Shapes := by
    intro args
    refine .lift_bind fun on hon => .lift_bind fun args _ => ?_
    rw [Build.join_eq]
    refine Build.makesOne_record ⟨[], hnests, ?_⟩
    rw [Call.shape, Call.shapeOperands_append, Call.shapeOperands_args,
      shapeOperands_of_conditions htakes hon]
  rw [applyJoin]
  split
  · exact .lift_bind fun reference _ => hjoin _
  · exact .lift_bind fun _ _ => hjoin _

theorem applyJoinQuery_shapes (hroute : a.route = .joinSub) :
    (a.applyJoinQuery scope).MakesOne a.Shapes := by
  rw [applyJoinQuery]
  split
  next name? extra hjoined =>
    split
    next name query hquery =>
      refine .lift_bind fun on hon => .lift_bind fun args _ => ?_
      rw [Build.joinQuery_eq]
      refine .nested_bind fun inner hrun => Build.makesOne_record ?_
      refine ⟨_, nests_some (query?_eq_sub? (by rw [hroute]; rfl) hquery) hrun, ?_⟩
      rw [Call.shape, Call.shapeOperands, Build.textOperand, Call.shapeOperands,
        Call.shapeOperands_append, Call.shapeOperands_args,
        shapeOperands_of_conditions (by rw [hroute]; rfl) hon]
      rfl
    next => exact Build.makesOne_throw _

/-- **The shape of an action's call** is that of the step as it is written and of the nested
query. -/
theorem apply_shapes (a : Application) (scope : Scope) : (a.apply scope).MakesOne a.Shapes := by
  -- `Makes` would let a raw join go without its conditions, so joins are taken on their own
  cases htakes : a.route.takesConditions with
  | false => exact (a.apply_makesOne scope).mono fun c hc => hc.shapes htakes
  | true =>
    unfold apply
    cases hroute : a.route with
    | join => exact applyJoin_shapes (.inl hroute)
    | joinRaw => exact applyJoin_shapes (.inr hroute)
    | joinSub => exact applyJoinQuery_shapes hroute
    | _ =>
      rw [hroute] at htakes
      cases htakes

end Application

namespace Scope

variable {scope scope' : Scope} {item : Item} {items : Definition} {a a' : Application}

/-! ## Two scopes take up the same -/

/-- An item has the same action in every scope. -/
theorem application?_same (h : scope.application? item = some a)
    (h' : scope'.application? item = some a') :
    a'.method = a.method ∧ a'.route = a.route ∧ a'.entries = a.entries ∧
      a'.written = a.written := by
  obtain ⟨hroute, -, nested, rfl, hhead, hwritten, -⟩ := application?_spec h
  obtain ⟨hroute', -, nested', hitem, hhead', hwritten', -⟩ := application?_spec h'
  rw [Item.step.injEq] at hitem
  obtain ⟨hentries, -⟩ := hitem
  rw [← hentries, hhead] at hhead'
  injection hhead' with hhead'
  injection hhead' with hmethod
  rw [← hmethod, hroute] at hroute'
  rw [← hentries, ← hmethod, hwritten] at hwritten'
  exact ⟨hmethod.symm, (Option.some.inj hroute').symm, hentries.symm, (Option.some.inj hwritten').symm⟩

theorem application?_isNone (scope scope' : Scope) (item : Item) :
    scope.application? item = none ↔ scope'.application? item = none := by
  cases item with
  | stray v => exact ⟨fun _ => rfl, fun _ => rfl⟩
  | step es nested =>
    rw [application?, application?]
    split
    next key _ =>
      cases Action.route? key with
      | none => exact ⟨fun _ => rfl, fun _ => rfl⟩
      | some route =>
        cases Entries.get? es key with
        | none => exact ⟨fun _ => rfl, fun _ => rfl⟩
        | some written => exact ⟨fun h => (by cases h), fun h => (by cases h)⟩
    next => exact ⟨fun _ => rfl, fun _ => rfl⟩

/-- An action looks for its nested query in the same slot in every scope. -/
theorem slot?_same (h : scope.application? item = some a)
    (h' : scope'.application? item = some a') : a'.slot? = a.slot? := by
  have hsome : ∀ slot, (a'.inSlot slot).isSome = (a.inSlot slot).isSome := by
    intro slot
    rw [inSlot_eq h, inSlot_eq h', Option.isSome_map, Option.isSome_map]
  obtain ⟨hmethod, hroute, hentries, hwritten⟩ := application?_same h h'
  rw [Application.slot?, Application.slot?, Application.target, Application.target,
    Application.groupSlot, Application.groupSlot, Application.operandSlot?,
    Application.operandSlot?, hmethod, hroute, hentries, hwritten]
  simp only [hsome]

/-- An item without a condition opens the same definition in every scope. -/
theorem opened?_same (h : scope.application? item = some a)
    (h' : scope'.application? item = some a') (hadmits : scope.admits a = true)
    (hadmits' : scope'.admits a' = true) : scope'.opened? item = scope.opened? item := by
  rw [opened?, opened?, h, h', Option.bind_some, Option.bind_some, if_pos hadmits,
    if_pos hadmits', slot?_same h h']

theorem admits_of_ungated (h : Entries.has a.entries "when" = false) : scope.admits a = true := by
  rw [Entries.has, Option.isSome_eq_false_iff, Option.isNone_iff_eq_none] at h
  rw [admits, isEnabled, h]

end Scope

/-! ## Two runs of the same shape -/

/-- Two builds only add calls, and in runs that succeed calls of the same shapes. -/
structure Build.SameShape {α : Type} (b b' : Build α) : Prop where
  grows : b.Adds fun _ => True
  grows' : b'.Adds fun _ => True
  shapes : ∀ x x' added added', b.Runs x added → b'.Runs x' added' →
    Call.shapes added = Call.shapes added'

namespace Build.SameShape

variable {α β : Type} {b b' : Build α} {f f' : α → Build β}

/-- Returning leaves the shape as it is, whatever is returned. -/
theorem pure (x y : α) : (Pure.pure x : Build α).SameShape (Pure.pure y) where
  grows := adds_pure x
  grows' := adds_pure y
  shapes := by
    intro _ _ added added' h h'
    rw [(runs_pure h).2, (runs_pure h').2]

/-- Builds of one shape stay so if what follows has one shape, whatever it is given. -/
theorem bind (hb : b.SameShape b') (hf : ∀ x y, (f x).SameShape (f' y)) :
    (b >>= f).SameShape (b' >>= f') where
  grows := hb.grows.bind fun x => (hf x x).grows
  grows' := hb.grows'.bind fun y => (hf y y).grows'
  shapes := by
    intro _ _ _ _ h h'
    obtain ⟨x, first, second, hfirst, hsecond, rfl⟩ :=
      runs_bind hb.grows (fun x => (hf x x).grows) h
    obtain ⟨y, first', second', hfirst', hsecond', rfl⟩ :=
      runs_bind hb.grows' (fun y => (hf y y).grows') h'
    rw [Call.shapes_append, Call.shapes_append, hb.shapes _ _ _ _ hfirst hfirst',
      (hf x y).shapes _ _ _ _ hsecond hsecond']

end Build.SameShape

namespace Scope

variable {scope scope' : Scope} {item : Item} {items : Definition} {a a' : Application}
  {step step' : Item → Step}

theorem sameShape_runInOrder (h : ∀ item ∈ items, (step item).run.SameShape (step' item).run) :
    (Step.runInOrder (items.map step)).SameShape (Step.runInOrder (items.map step')) := by
  induction items with
  | nil => exact .pure _ _
  | cons item items ih =>
    refine (h item (List.mem_cons_self ..)).bind fun _ _ => ?_
    refine (ih fun item hitem => h item (List.mem_cons_of_mem _ hitem)).bind fun _ _ => ?_
    exact .pure _ _

theorem sameShape_runAll (hdeclares : ∀ item ∈ items, (step item).declares = (step' item).declares)
    (h : ∀ item ∈ items, (step item).run.SameShape (step' item).run) :
    (Step.runAll (items.map step)).SameShape (Step.runAll (items.map step')) := by
  -- both runs take the same items first, for they agree on which of them declare names
  have hgroup : ∀ p : Bool → Bool,
      (Step.runInOrder ((items.map step).filter fun s => p s.declares)).SameShape
        (Step.runInOrder ((items.map step').filter fun s => p s.declares)) := by
    intro p
    rw [List.filter_map, List.filter_map]
    have hsame : items.filter ((fun s => p s.declares) ∘ step') =
        items.filter ((fun s => p s.declares) ∘ step) :=
      List.filter_congr fun item hitem => congrArg p (hdeclares item hitem).symm
    rw [hsame]
    exact sameShape_runInOrder fun item hitem => h item (List.mem_filter.mp hitem).1
  refine (hgroup id).bind fun _ _ => (hgroup (!·)).bind fun _ _ => ?_
  exact .pure _ _

/-- The nested queries that an item's action builds in two scopes have the same shape. -/
theorem nests_same (happ : scope.application? item = some a)
    (happ' : scope'.application? item = some a') (hadmits : scope.admits a = true)
    (hadmits' : scope'.admits a' = true)
    (hopens : ∀ d, scope.opened? item = some d →
      (scope.assemble d).SameShape (scope'.assemble d))
    {nested nested' : List Operand} (h : a.Nests nested) (h' : a'.Nests nested') :
    nested = nested' := by
  have hsub := sub?_eq happ hadmits
  have hsub' := sub?_eq happ' hadmits'
  rw [opened?_same happ happ' hadmits hadmits'] at hsub'
  cases hopened : scope.opened? item with
  | none =>
    rw [hopened] at hsub hsub'
    rcases h with ⟨-, rfl⟩ | ⟨sub, _, h, -⟩
    · rcases h' with ⟨-, rfl⟩ | ⟨sub', _, h', -⟩
      · rfl
      · rw [hsub'] at h'
        cases h'
    · rw [hsub] at h
      cases h
  | some d =>
    rw [hopened] at hsub hsub'
    rcases h with ⟨h, -⟩ | ⟨sub, inner, h, hrun, rfl⟩
    · rw [hsub] at h
      cases h
    rcases h' with ⟨h', -⟩ | ⟨sub', inner', h', hrun', rfl⟩
    · rw [hsub'] at h'
      cases h'
    rw [hsub] at h
    cases h
    rw [hsub'] at h'
    cases h'
    obtain ⟨x, hrun⟩ := Build.runOn_discard_eq_ok.mp hrun
    obtain ⟨x', hrun'⟩ := Build.runOn_discard_eq_ok.mp hrun'
    rw [(hopens d hopened).shapes x x' _ _ ⟨.fresh, inner, hrun, rfl⟩ ⟨.fresh, inner', hrun', rfl⟩]

/-- The steps of an item that has no condition make calls of the same shape in two scopes. -/
theorem sameShape_step (hungated : ∀ es nested, item = .step es nested →
      Entries.has es "when" = false)
    (hopens : ∀ d, scope.opened? item = some d →
      (scope.assemble d).SameShape (scope'.assemble d)) :
    (scope.assembleItem item).declares = (scope'.assembleItem item).declares ∧
      (scope.assembleItem item).run.SameShape (scope'.assembleItem item).run := by
  cases happ : scope.application? item with
  | none =>
    rw [assembleItem_eq, assembleItem_eq, happ, (application?_isNone scope scope' item).mp happ]
    exact ⟨rfl, .pure _ _⟩
  | some a =>
    cases happ' : scope'.application? item with
    | none =>
      rw [(application?_isNone scope' scope item).mp happ'] at happ
      cases happ
    | some a' =>
      have hstep : scope.assembleItem item = ⟨a.route = .withQuery, scope.perform a⟩ := by
        rw [assembleItem_eq, happ]
      have hstep' : scope'.assembleItem item = ⟨a'.route = .withQuery, scope'.perform a'⟩ := by
        rw [assembleItem_eq, happ']
      obtain ⟨hmethod, hroute, hentries, hwritten⟩ := application?_same happ happ'
      refine ⟨by rw [hstep, hstep', hroute], assembleItem_grows scope item,
        assembleItem_grows scope' item, ?_⟩
      intro _ _ added added' h h'
      rw [hstep] at h
      rw [hstep'] at h'
      obtain ⟨-, -, nested, hitem, -⟩ := application?_spec happ
      have hnone := hungated _ _ hitem
      have hadmits : scope.admits a = true := admits_of_ungated hnone
      have hadmits' : scope'.admits a' = true := admits_of_ungated (by rw [hentries, hnone])
      obtain ⟨c, ⟨inner, hinner, hc⟩, rfl⟩ := runs_of_admitted (a.apply_shapes scope) hadmits h
      obtain ⟨c', ⟨inner', hinner', hc'⟩, rfl⟩ :=
        runs_of_admitted (a'.apply_shapes scope') hadmits' h'
      have hconditions : a'.conditionShape = a.conditionShape := by
        rw [Application.conditionShape, Application.conditionShape, Application.writtenConditions,
          Application.writtenConditions, hroute, hentries, hwritten]
      show [c.shape] = [c'.shape]
      rw [hc, hc', hmethod, hconditions,
        nests_same happ happ' hadmits hadmits' hopens hinner hinner']

/-- **Without conditions, the shape is that of the definition**: whatever two scopes fill in and
whatever they permit, runs that succeed make calls of the same shapes. -/
theorem sameShape_assemble (scope scope' : Scope) (items : Definition)
    (hungated : ∀ es nested, items.HasItem (.step es nested) → Entries.has es "when" = false) :
    (scope.assemble items).SameShape (scope'.assemble items) := by
  induction items using Definition.induction with
  | h items ih =>
    have hall : ∀ item ∈ items,
        (scope.assembleItem item).declares = (scope'.assembleItem item).declares ∧
          (scope.assembleItem item).run.SameShape (scope'.assembleItem item).run := by
      intro item hitem
      refine sameShape_step (fun es nested heq => hungated es nested (.own (heq ▸ hitem))) ?_
      intro d hd
      obtain ⟨slot, hslot⟩ := mem_nested_of_opened? hd
      exact ih item hitem slot d hslot fun es nested h => hungated es nested (.nested hitem hslot h)
    rw [assemble, assemble, assembleItems_eq_map, assembleItems_eq_map]
    exact sameShape_runAll (fun item hitem => (hall item hitem).1) fun item hitem => (hall item hitem).2

end Scope

end QueryScript
