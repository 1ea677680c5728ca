import QueryScript.Proofs.Assembly.Induction
import QueryScript.Proofs.Engine.Build
import QueryScript.Recorder.Executors

/-!
# No action is called that the policy does not permit

A call carries the name of the action that makes it.  An item says its action by its first
key that names one, and the policy judges that name after the item's condition and before
the call.  So every call of a build, at whatever depth, is one that some item of the
definition asks for and that the policy permits (`PermitsCall`); and as no executor is
named like an action, none of them asks the query anything (`Build.AsksNothing`).

A block list covers an action through its base.  The names that share a base are the base
itself and its combined and negated forms (`Action.variants`), so an entry for the base
keeps all of them out of a query (`build_permitsActions`).
-/

namespace QueryScript

namespace Action

/-- The base name with the forms that are registered for it. -/
def variants (base : String) : List String :=
  base :: ((if combinable.contains base then combinedForms base else []) ++
    if negatable.contains base then negate base :: combinedForms (negate base) else [])

/-- The variants of a base are taken apart into that base. -/
theorem normalize_of_mem_variants :
    ∀ base ∈ baseNames, ∀ name ∈ variants base, (normalize name).base = base := by
  decide +kernel

/-- No action is named like an executor. -/
theorem name_ne_of_isRegistered {name : String} (h : isRegistered name = true) (e : Executor) :
    name ≠ e.name := by
  have hall : ∀ e ∈ Executor.all, isRegistered e.name = false := by decide +kernel
  rintro rfl
  rw [hall e (by cases e <;> decide)] at h
  cases h

end Action

namespace Guard

/-- The call carries the name of an action that an item of the definition asks for by its first
key that says anything, and that the policy permits. -/
structure PermitsCall (guard : Guard) (definition : Definition) (c : Call) : Prop where
  registered : Action.isRegistered c.method = true
  /-- An item at some depth asks for the action. -/
  asked : ∃ es nested, definition.HasItem (.step es nested) ∧
    Head.ofEntries? es = some (.action c.method)
  permitted : guard.checkAction c.method = .ok ()

variable {guard : Guard} {name : String}

/-- The check of a name succeeds exactly if the name is permitted. -/
theorem checkAction_eq_ok_iff : guard.checkAction name = .ok () ↔ guard.permitsAction name = true := by
  rw [checkAction]
  split
  next h => exact ⟨fun _ => h, fun _ => rfl⟩
  next h => exact ⟨fun h' => (by cases h'), fun h' => absurd h' h⟩

/-- A block list that covers the base of an action refuses the action. -/
theorem not_permitsAction_of_blocked (hmode : guard.actions.mode = .block)
    (hblocked : (guard.actions.matching? (Action.normalize name).base).isSome = true) :
    guard.permitsAction name = false := by
  rw [permitsAction, hmode]
  dsimp only
  have hbase : guard.actions.permits (Action.normalize name).base = false := by
    rw [Policy.permits, hmode]
    dsimp only
    rw [Option.isNone_eq_false_iff]
    exact hblocked
  rw [hbase, Bool.and_false]

end Guard

namespace Scope

variable {scope : Scope} {items : Definition}

/-- A call that an action makes is permitted, for the name of the action was checked. -/
theorem permitsCall_of_madeFrom {c : Call} (h : scope.MadeFrom items c) :
    scope.guard.PermitsCall items c := by
  obtain ⟨d, a, hassembles, ⟨item, hitem, happ, -⟩, hcheck, hmakes⟩ := h
  obtain ⟨-, -, nested, rfl, hhead, -⟩ := application?_spec happ
  have hmethod := hmakes.method_eq
  refine ⟨?_, ⟨a.entries, nested, hassembles.hasItem hitem, ?_⟩, ?_⟩
  · rw [hmethod]
    exact (Head.spec_of_ofEntries? hhead).2
  · rw [hmethod]
    exact hhead
  · rw [hmethod]
    exact hcheck

end Scope

/-! ## No executor runs -/

namespace Build

variable {α β : Type}

/-- Whatever comes of a run, it leaves the rows, the result set and the options of the last
executor as they are. -/
def AsksNothing (b : Build α) : Prop :=
  ∀ r, ∃ calls limit offset, (b.runOn r).2 = { r with calls, limit, offset }

/-- A build that leaves every recorder as it is asks no executor. -/
theorem asksNothing_of_unchanged {b : Build α} (h : ∀ r, (b.runOn r).2 = r) : b.AsksNothing :=
  fun r => ⟨r.calls, r.limit, r.offset, h r⟩

/-- Builds that ask nothing, one after the other, ask nothing. -/
theorem AsksNothing.bind {b : Build α} {f : α → Build β} (hb : b.AsksNothing)
    (hf : ∀ a, (f a).AsksNothing) : (b >>= f).AsksNothing := by
  intro r
  obtain ⟨calls, limit, offset, hmid⟩ := hb r
  cases hrun : b.runOn r with
  | mk outcome mid =>
    rw [hrun] at hmid
    cases outcome with
    | error e =>
      rw [runOn_bind_of_error hrun]
      exact ⟨calls, limit, offset, hmid⟩
    | ok a =>
      rw [runOn_bind_of_ok hrun]
      obtain ⟨calls', limit', offset', hend⟩ := hf a mid
      refine ⟨calls', limit', offset', ?_⟩
      rw [hend, show mid = _ from hmid]

theorem MakesOne.asksNothing {P : Call → Prop} {b : Build Unit} (h : b.MakesOne P) :
    b.AsksNothing := by
  cases h with
  | refuses e hrun => exact asksNothing_of_unchanged fun r => by rw [hrun r]
  | makes call move hP hmove hrun =>
    intro r
    obtain ⟨limit, offset, hmoved⟩ := hmove r
    refine ⟨r.calls ++ [call], limit, offset, ?_⟩
    rw [hrun r, hmoved]
    rfl

end Build

/-- Assembling a definition asks no executor. -/
theorem Scope.assemble_asksNothing (scope : Scope) (items : Definition) :
    (scope.assemble items).AsksNothing := by
  refine assemble_induction (fun b => Build.asksNothing_of_unchanged fun _ => rfl)
    (fun _ _ hb hf => hb.bind hf) ?_
  intro d item a _ _ _ hadmits _
  rw [perform, if_pos hadmits]
  refine (Build.asksNothing_of_unchanged fun r => by rw [Build.runOn_lift]).bind fun _ => ?_
  refine (a.apply_makesOne scope).asksNothing.bind fun _ => ?_
  exact Build.asksNothing_of_unchanged fun _ => rfl

namespace Engine

theorem build_asksNothing (engine : Engine) (value : Json) (params : Params) :
    (engine.build value params).AsksNothing := by
  have hlift : ∀ {α : Type} (x : Except Error α), (Build.lift x).AsksNothing := fun x =>
    Build.asksNothing_of_unchanged fun r => by rw [Build.runOn_lift]
  refine (hlift _).bind fun definition => ?_
  refine Build.AsksNothing.bind ?_ fun _ => Build.asksNothing_of_unchanged fun _ => rfl
  exact (hlift _).bind fun _ => Scope.assemble_asksNothing _ definition

/-- **No action is called that the policy does not permit.**  Whether a build succeeds or stops
with an error, it only adds calls; every call that it makes, at whatever depth, is asked for by
an item of the definition and permitted, and so is every call on the builder of a definition
that is taken up on the way.  No call is an executor's, and no executor runs.  Under a block
list that covers a base action, no variant of the base is called. -/
theorem build_permitsActions (engine : Engine) (value : Json) (params : Params) :
    (engine.build value params).Adds (fun c =>
        (∃ definition, Definition.ofJson value = .ok definition ∧
          engine.guard.PermitsCall definition c) ∧
        (∀ e : Executor, c.method ≠ e.name) ∧
        (engine.guard.actions.mode = .block → ∀ base ∈ Action.baseNames,
          (engine.guard.actions.matching? base).isSome = true →
            c.method ∉ Action.variants base)) ∧
      (∀ definition d, Definition.ofJson value = .ok definition →
        (engine.scope params definition).Assembles definition d →
        ((engine.scope params definition).assemble d).Adds
          (engine.guard.PermitsCall definition)) ∧
      ∀ r, let r' := ((engine.build value params).runOn r).2
        r'.lastOptions = r.lastOptions ∧ r'.rows = r.rows ∧ r'.native = r.native := by
  have hpermits : ∀ definition d, (engine.scope params definition).Assembles definition d →
      ((engine.scope params definition).assemble d).Adds
        (engine.guard.PermitsCall definition) := by
    intro definition d hassembles
    refine (Scope.assemble_adds _ d).mono fun c hc => ?_
    obtain ⟨registered, ⟨es, nested, hitem, hhead⟩, permitted⟩ := Scope.permitsCall_of_madeFrom hc
    obtain ⟨d', hpart, hmem⟩ := Definition.hasItem_iff.mp hitem
    exact ⟨registered, ⟨es, nested,
      Definition.hasItem_iff.mpr ⟨d', hpart.trans hassembles.part, hmem⟩, hhead⟩, permitted⟩
  refine ⟨build_adds fun definition hdefinition => ?_, fun definition d _ => hpermits definition d,
    ?_⟩
  · refine (hpermits definition definition (.self _)).mono fun c hc => ?_
    refine ⟨⟨definition, hdefinition, hc⟩, Action.name_ne_of_isRegistered hc.registered, ?_⟩
    intro hmode base hbase hblocked hvariant
    -- the base of a variant is the blocked one, and the check would have refused it
    have hnormal := Action.normalize_of_mem_variants base hbase _ hvariant
    rw [← hnormal] at hblocked
    have hpermitted := Guard.checkAction_eq_ok_iff.mp hc.permitted
    rw [Guard.not_permitsAction_of_blocked hmode hblocked] at hpermitted
    cases hpermitted
  · intro r
    obtain ⟨calls, limit, offset, hend⟩ := engine.build_asksNothing value params r
    dsimp only
    rw [hend]
    exact ⟨rfl, rfl, rfl⟩

end Engine

end QueryScript
