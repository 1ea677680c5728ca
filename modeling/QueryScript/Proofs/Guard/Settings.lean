import QueryScript.Guard.Basic
import QueryScript.Proofs.Checks

/-!
# Guards by what they are configured from

A guard is read part by part, and settings make a guard exactly when each part can be read
from the settings that are its own (`ofSettings_eq_ok_iff`).  So what is proved about a
policy or a catalog by its settings holds of the policies and of the catalog of a guard.
-/

namespace QueryScript

/-- All rules of the catalog, the built-in ones first if they are not left out. -/
def SecuritySettings.rules (s : SecuritySettings) : List RuleSettings :=
  if s.replaceDefaultPatterns then s.rawPatterns else Catalog.builtinRules ++ s.rawPatterns

/-- A policy has its mode and an entry for each text of its list. -/
theorem Policy.ofSettings_eq_ok {settings : PolicySettings} {policy : Policy}
    (h : ofSettings settings = .ok policy) :
    settings.list.mapM Wildcard.ofText = .ok policy.entries ∧ policy.mode = settings.mode := by
  obtain ⟨entries, hentries, hpure⟩ := Checks.bind_eq_ok.mp h
  cases hpure
  exact ⟨hentries, rfl⟩

namespace Guard

/-- Each part of the guard is what its own settings are read as. -/
structure ReadFrom (guard : Guard) (s : SecuritySettings) : Prop where
  /-- The last friendly name is looked at first. -/
  tableAliases : (s.tableAliases.mapM fun (friendly, actual) => readAlias friendly actual) =
    .ok guard.tableAliases.reverse
  catalog : Catalog.ofSettings s.rules = .ok guard.catalog
  tables : Policy.ofSettings s.tables = .ok guard.tables
  actions : Policy.ofSettings s.actions = .ok guard.actions
  executors : Policy.ofSettings s.executors = .ok guard.executors

variable {s : SecuritySettings} {guard : Guard}

/-- The catalog of a guard has all rules of the settings, however they are written. -/
theorem ofSettings_eq (s : SecuritySettings) : ofSettings s = (do
    let aliases ← s.tableAliases.mapM fun (friendly, actual) => readAlias friendly actual
    let catalog ← Catalog.ofSettings s.rules
    let tables ← Policy.ofSettings s.tables
    let actions ← Policy.ofSettings s.actions
    let executors ← Policy.ofSettings s.executors
    return ⟨tables, actions, executors, aliases.reverse, catalog⟩) := by
  unfold ofSettings SecuritySettings.rules
  refine Checks.bind_congr fun aliases _ => ?_
  by_cases hreplace : s.replaceDefaultPatterns = true
  · rw [if_pos hreplace, if_pos hreplace]
  · rw [if_neg hreplace, if_neg hreplace, Catalog.withExtra]

/-- **Settings make a guard exactly when each part can be read from its own.** -/
theorem ofSettings_eq_ok_iff : ofSettings s = .ok guard ↔ guard.ReadFrom s := by
  rw [ofSettings_eq]
  constructor
  · intro h
    obtain ⟨aliases, haliases, h⟩ := Checks.bind_eq_ok.mp h
    obtain ⟨catalog, hcatalog, h⟩ := Checks.bind_eq_ok.mp h
    obtain ⟨tables, htables, h⟩ := Checks.bind_eq_ok.mp h
    obtain ⟨actions, hactions, h⟩ := Checks.bind_eq_ok.mp h
    obtain ⟨executors, hexecutors, h⟩ := Checks.bind_eq_ok.mp h
    cases h
    refine ⟨?_, hcatalog, htables, hactions, hexecutors⟩
    rw [haliases, List.reverse_reverse]
  · intro h
    refine Checks.bind_eq_ok.mpr ⟨_, h.tableAliases, ?_⟩
    refine Checks.bind_eq_ok.mpr ⟨_, h.catalog, ?_⟩
    refine Checks.bind_eq_ok.mpr ⟨_, h.tables, ?_⟩
    refine Checks.bind_eq_ok.mpr ⟨_, h.actions, ?_⟩
    refine Checks.bind_eq_ok.mpr ⟨_, h.executors, ?_⟩
    rw [List.reverse_reverse]
    rfl

end Guard

end QueryScript
