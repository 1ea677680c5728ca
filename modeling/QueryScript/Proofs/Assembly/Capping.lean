import QueryScript.Proofs.Assembly.Induction

/-!
# What a query says of its cap

Assembling a definition answers whether the rows were capped.  The answer is put together from
the answers of the steps, through `else` definitions and past nested queries, and so it could
say something else than the calls.  It does not: a run that succeeds answers `true` exactly if
one of the calls that it makes on its own builder is of the family that caps
(`assemble_tellsCap`).

The answer speaks of calls and not of caps.  A call of the family without an argument caps
nothing, but counts.
-/

namespace QueryScript

/-- The call is of the family that caps the rows. -/
def Call.Caps (c : Call) : Prop :=
  c.method ∈ ["limit", "take", "forPage"]

/-- The routes that set a cap are those of the names that do. -/
theorem Action.setsLimit_iff {name : String} {route : Route} (h : Action.route? name = some route) :
    route.setsLimit = true ↔ name ∈ ["limit", "take", "forPage"] := by
  have hall : ∀ name ∈ names, (baseRoute? (normalize name).base).map Route.setsLimit =
      some (decide (name ∈ ["limit", "take", "forPage"])) := by
    decide +kernel
  rw [route?] at h
  split at h
  next hregistered =>
    have hname := hall name (List.contains_iff_mem.mp hregistered)
    rw [h, Option.map_some, Option.some.injEq] at hname
    rw [hname, decide_eq_true_iff]
  next => cases h

namespace Build

/-- A run that succeeds answers whether it made a call that caps. -/
def TellsCap (b : Build Bool) : Prop :=
  ∀ capped added, b.Runs capped added → (capped = true ↔ ∃ c ∈ added, c.Caps)

theorem tellsCap_pure_false : (pure false : Build Bool).TellsCap := by
  intro capped added h
  obtain ⟨rfl, rfl⟩ := runs_pure h
  constructor
  · intro h
    cases h
  · intro h
    obtain ⟨c, hc, -⟩ := h
    cases hc

/-- Of two runs in order, one has capped if their calls tell so. -/
theorem TellsCap.or {b b' : Build Bool} {P : Call → Prop} (hb : b.TellsCap) (hadds : b.Adds P)
    (hb' : b'.TellsCap) (hadds' : b'.Adds P) :
    (do let x ← b; let y ← b'; return x || y).TellsCap := by
  intro capped added h
  obtain ⟨x, y, first, second, hfirst, hsecond, rfl, rfl⟩ := runs_or hadds hadds' h
  rw [Bool.or_eq_true, hb _ _ hfirst, hb' _ _ hsecond]
  constructor
  · intro h
    rcases h with ⟨c, hc, hcaps⟩ | ⟨c, hc, hcaps⟩
    · exact ⟨c, List.mem_append_left _ hc, hcaps⟩
    · exact ⟨c, List.mem_append_right _ hc, hcaps⟩
  · intro h
    obtain ⟨c, hc, hcaps⟩ := h
    rcases List.mem_append.mp hc with hc | hc
    · exact .inl ⟨c, hc, hcaps⟩
    · exact .inr ⟨c, hc, hcaps⟩

end Build

namespace Scope

variable {scope : Scope} {items : Definition} {item : Item} {a : Application}

/-- An action tells whether the call that it makes is one that caps. -/
theorem perform_tellsCap (happ : scope.application? item = some a)
    (hadmits : scope.admits a = true) : (scope.perform a).TellsCap := by
  intro capped added h
  obtain ⟨c, hmakes, rfl⟩ := runs_of_admitted (a.apply_makesOne scope) hadmits h
  have hcapped : capped = a.route.setsLimit := by
    obtain ⟨r, r', hrun, -⟩ := h
    rw [perform, if_pos hadmits] at hrun
    obtain ⟨_, _, -, hrun⟩ := Build.runOn_bind_eq_ok.mp hrun
    obtain ⟨_, _, -, hrun⟩ := Build.runOn_bind_eq_ok.mp hrun
    cases hrun
    rfl
  rw [hcapped, Action.setsLimit_iff (application?_spec happ).1, ← hmakes.method_eq]
  constructor
  · exact fun h => ⟨c, List.mem_singleton_self c, h⟩
  · intro h
    obtain ⟨c', hc', hcaps⟩ := h
    rw [← List.mem_singleton.mp hc']
    exact hcaps

/-- **A query answers whether it was capped by a call of its own**: not by one of a nested query,
and also if the call stands in an `else` definition. -/
theorem assemble_tellsCap (scope : Scope) (items : Definition) :
    (scope.assemble items).TellsCap := by
  suffices h : (scope.assemble items).TellsCap ∧ (scope.assemble items).Adds fun _ => True from h.1
  refine assemble_induction_or (Q := fun b => b.TellsCap ∧ b.Adds fun _ => True)
    ⟨Build.tellsCap_pure_false, Build.adds_pure _⟩ ?_ ?_
  · intro b b' hb hb'
    refine ⟨hb.1.or hb.2 hb'.1 hb'.2, ?_⟩
    exact hb.2.bind fun _ => hb'.2.bind fun _ => Build.adds_pure _
  · intro d item a _ hitem happ hadmits _
    refine ⟨perform_tellsCap happ hadmits, ?_⟩
    exact (perform_adds hitem happ fun d' _ => scope.assemble_adds d').mono fun _ _ => trivial

end Scope

end QueryScript
