import QueryScript.Proofs.Engine.Actions
import QueryScript.Proofs.Vocabulary.Normalization

/-!
# Which forms of an action a block list covers

A block list judges an action by two spellings, its name as it is written and its base, and
refuses it if an entry covers either (`checkAction_blocks_iff`).  The forms with `and` or `or`
in front have the base of the action that they are made from (`Action.Combines.base_form`).
So an entry for the base refuses the action and both forms, and an action that is its own base
is refused in no other way.

A negated action has a third spelling, without a combinator and yet not the base: `whereNotIn`
stands between `orWhereNotIn` and `whereIn`.  An entry that covers this spelling alone refuses
the action and is not seen when a form is judged.  `checkAction_combinedForms_iff` says exactly
when the forms are refused with their action; a list with `whereNotIn` on it lets both forms
pass (`not_checkAction_combinedForms`).
-/

namespace QueryScript

namespace Guard

variable {guard : Guard} {name : String}

/-- A block list refuses an action exactly if an entry covers its name or its base. -/
theorem checkAction_blocks_iff (hmode : guard.actions.mode = .block) :
    guard.checkAction name = .error (.actionDenied name) ↔
      (guard.actions.matching? name).isSome = true ∨
        (guard.actions.matching? (Action.normalize name).base).isSome = true := by
  have hpermits : guard.permitsAction name = true ↔
      ¬ (guard.actions.matching? name).isSome = true ∧
        ¬ (guard.actions.matching? (Action.normalize name).base).isSome = true := by
    simp [permitsAction, Policy.permits, hmode]
  rw [← Decidable.not_not (p := _ ∨ _), not_or, ← hpermits, checkAction]
  split
  next h => simp [h]
  next h => simp [h]

/-- **When the forms of a blocked action are refused with it.**  Under a block list that refuses
an action, both forms with a combinator are refused exactly if the list covers the base of the
action, or covers both forms as they are spelled.  It always covers the base if the action is
not negated. -/
theorem checkAction_combinedForms_iff (hmode : guard.actions.mode = .block)
    (hcombines : Action.Combines name)
    (hrefused : guard.checkAction name = .error (.actionDenied name)) :
    ((∀ form ∈ Action.combinedForms name, guard.checkAction form = .error (.actionDenied form)) ↔
      (guard.actions.matching? (Action.normalize name).base).isSome = true ∨
        ∀ form ∈ Action.combinedForms name, (guard.actions.matching? form).isSome = true) ∧
    ((Action.normalize name).negated = false →
      ∀ form ∈ Action.combinedForms name,
        guard.checkAction form = .error (.actionDenied form)) := by
  have hforms : ∀ form ∈ Action.combinedForms name,
      (guard.checkAction form = .error (.actionDenied form) ↔
        (guard.actions.matching? form).isSome = true ∨
          (guard.actions.matching? (Action.normalize name).base).isSome = true) := by
    intro form hform
    rw [checkAction_blocks_iff hmode, hcombines.base_form hform]
  constructor
  · constructor
    · intro h
      by_cases hbase : (guard.actions.matching? (Action.normalize name).base).isSome = true
      · exact .inl hbase
      · refine .inr fun form hform => ?_
        exact ((hforms form hform).mp (h form hform)).resolve_right hbase
    · intro h form hform
      rcases h with hbase | hall
      · exact (hforms form hform).mpr (.inr hbase)
      · exact (hforms form hform).mpr (.inl (hall form hform))
  · intro hplain form hform
    -- both spellings of the action are the base, so the base is what the list covers
    have hcovered := (checkAction_blocks_iff hmode).mp hrefused
    rw [hcombines.base_eq hplain, or_self] at hcovered
    refine (hforms form hform).mpr (.inr ?_)
    rw [hcombines.base_eq hplain]
    exact hcovered

/-- A block list of actions, and no other rules. -/
def blocking (list : List String) : SecuritySettings where
  actions := ⟨.block, list⟩
  replaceDefaultPatterns := true

/-- An entry with a star covers the forms of `whereNotIn` by their spelling, and not its base. -/
theorem checkAction_combinedForms_whereNotIn :
    ∃ guard, ofSettings (blocking ["*WhereNotIn"]) = .ok guard ∧
      guard.actions.mode = .block ∧ Action.Combines "whereNotIn" ∧
      guard.checkAction "whereNotIn" = .error (.actionDenied "whereNotIn") ∧
      (∀ form ∈ Action.combinedForms "whereNotIn",
        guard.checkAction form = .error (.actionDenied form)) ∧
      guard.checkAction "whereIn" = .ok () := by
  obtain ⟨guard, hguard, hmode, hname, hforms, hbase⟩ :
      ∃ guard ∈ (ofSettings (blocking ["*WhereNotIn"])).toOption, guard.actions.mode = .block ∧
        (guard.actions.matching? "whereNotIn").isSome = true ∧
        (∀ form ∈ Action.combinedForms "whereNotIn",
          (guard.actions.matching? form).isSome = true) ∧
        guard.permitsAction "whereIn" = true := by decide +kernel
  have hcombines : Action.Combines "whereNotIn" := by decide +kernel
  have hrefused := (checkAction_blocks_iff hmode).mpr (.inl hname)
  have hboth := (checkAction_combinedForms_iff hmode hcombines hrefused).1.mpr (.inr hforms)
  exact ⟨guard, Checks.eq_ok_of_mem_toOption hguard, hmode, hcombines, hrefused, hboth,
    checkAction_eq_ok_iff.mpr hbase⟩

/-- A block list does not cover the forms of every action that it refuses: with `whereNotIn` on
it, `orWhereNotIn` passes. -/
theorem not_checkAction_combinedForms :
    ¬ ∀ (settings : SecuritySettings) (guard : Guard) (name : String),
      ofSettings settings = .ok guard → settings.actions.mode = .block → Action.Combines name →
      guard.checkAction name = .error (.actionDenied name) →
      ∀ form ∈ Action.combinedForms name, guard.checkAction form = .error (.actionDenied form) := by
  intro h
  obtain ⟨guard, hguard, hmode, hname, hform⟩ :
      ∃ guard ∈ (ofSettings (blocking ["whereNotIn"])).toOption, guard.actions.mode = .block ∧
        (guard.actions.matching? "whereNotIn").isSome = true ∧
        guard.permitsAction "orWhereNotIn" = true := by decide +kernel
  have hrefused := h _ guard "whereNotIn" (Checks.eq_ok_of_mem_toOption hguard) rfl
    (by decide +kernel) ((checkAction_blocks_iff hmode).mpr (.inl hname)) "orWhereNotIn"
    (by decide +kernel)
  rw [checkAction_eq_ok_iff.mpr hform] at hrefused
  cases hrefused

end Guard

end QueryScript
