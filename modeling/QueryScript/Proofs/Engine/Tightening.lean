import QueryScript.Proofs.Assembly.Tightening
import QueryScript.Proofs.Engine.Build

/-!
# Tightened rules open nothing

An engine asks its guard twice: when it judges a whole definition, and again for each action
as it assembles the query.  If the security rules of a deployment are tightened, both narrow
(`validate_narrows`, `build_narrows`).  So a definition that passes under the tightened rules
has passed before, and a query that is built under them was built before, by the same calls
(`narrows_of_tightens`).
-/

namespace QueryScript

namespace Engine

variable {strict lax : Engine}

/-- What a strict engine validates, a lax one does. -/
theorem validate_narrows (h : strict.guard.Tightens lax.guard) (value : Json) :
    Checks.Narrows (strict.validate value) (lax.validate value) :=
  Guard.validate_narrows h value

/-- A build under a tightened guard narrows the build under the other: neither the check of the
definition nor an action of it lets pass what was refused before. -/
theorem build_narrows (h : strict.guard.Tightens lax.guard) (value : Json) (params : Params) :
    (strict.build value params).Narrows (lax.build value params) := by
  intro r _ r' hrun
  obtain ⟨definition, capped, hread, hcheck, hassembled⟩ := runOn_build_eq_ok.mp hrun
  have hpasses := Guard.checkDefinition_narrows h definition () hcheck
  have hscope : strict.scope params definition =
      (lax.scope params definition).withGuard strict.guard := rfl
  rw [hscope] at hassembled
  have hsame := Scope.assemble_narrows h definition r capped r' hassembled
  exact runOn_build_eq_ok.mpr ⟨definition, capped, hread, hpasses, hsame⟩

/-- **Tightened rules open nothing.**  Whatever the check of definitions accepts under tightened
rules, it accepts under the others; and whatever is built under tightened rules, from whatever
parameters and on whatever recorder, is built under the others, and leaves the same recorder. -/
theorem narrows_of_tightens {settings settings' : Settings}
    (hstrict : ofSettings settings = .ok strict) (hlax : ofSettings settings' = .ok lax)
    (h : settings.security.Tightens settings'.security) :
    (∀ value, strict.validate value = .ok () → lax.validate value = .ok ()) ∧
    ∀ value params r r', (strict.build value params).runOn r = (.ok (), r') →
      (lax.build value params).runOn r = (.ok (), r') := by
  obtain ⟨guard, hguard, hpure⟩ := Checks.bind_eq_ok.mp hstrict
  cases hpure
  obtain ⟨guard', hguard', hpure⟩ := Checks.bind_eq_ok.mp hlax
  cases hpure
  have htightens : guard.Tightens guard' := Guard.tightens_of_settings h hguard hguard'
  constructor
  · intro value
    exact validate_narrows htightens value ()
  · intro value params r
    exact build_narrows htightens value params r ()

end Engine

/-! ## Two deployments -/

/-- A deployment with a few actions, one table that is kept back and one rule of its own. -/
def Settings.staffTools : Settings where
  security :=
    { tables := ⟨.block, ["secret*"]⟩
      actions := ⟨.allow, ["from", "whereRaw", "orderBy", "limit"]⟩
      rawPatterns := [⟨.statement, "drop", "drop\\s+table", ["drop"]⟩]
      replaceDefaultPatterns := true }

/-- The same deployment with an action less, a table more kept back and a further rule. -/
def Settings.guestTools : Settings where
  security :=
    { tables := ⟨.block, ["audit", "secret*"]⟩
      actions := ⟨.allow, ["from", "whereRaw", "limit"]⟩
      rawPatterns := Settings.staffTools.security.rawPatterns ++
        [⟨.comment, "dashes", "--", ["--"]⟩]
      replaceDefaultPatterns := true }

theorem SecuritySettings.tightens_guestTools :
    Settings.guestTools.security.Tightens Settings.staffTools.security where
  tables := ⟨rfl, nofun, fun _ => by decide⟩
  actions := ⟨rfl, fun _ => by decide, nofun⟩
  tableAliases := rfl
  replaceDefaultPatterns := rfl
  rawPatterns := List.subset_append_left ..

namespace Engine

/-- A query of a table, filtered by raw SQL. -/
def adultsQuery : Json :=
  .arr [.obj [("from", .str "users u")], .obj [("whereRaw", .obj [("sql", .str "age > 17")])]]

/-- What guests may ask, the staff may ask as well, and it is asked by the same calls. -/
theorem narrows_of_tightens_guestTools :
    ∃ strict lax r', ofSettings .guestTools = .ok strict ∧ ofSettings .staffTools = .ok lax ∧
      strict.validate adultsQuery = .ok () ∧
      (strict.build adultsQuery .empty).runOn .fresh = (.ok (), r') ∧
      lax.validate adultsQuery = .ok () ∧
      (lax.build adultsQuery .empty).runOn .fresh = (.ok (), r') ∧
      r'.calls.map Call.method = ["from", "whereRaw"] := by
  have hguests : ∃ strict ∈ (ofSettings .guestTools).toOption,
      () ∈ (strict.validate adultsQuery).toOption ∧
        () ∈ ((strict.build adultsQuery .empty).runOn .fresh).1.toOption ∧
        ((strict.build adultsQuery .empty).runOn .fresh).2.calls.map Call.method =
          ["from", "whereRaw"] := by
    decide +kernel
  have hstaff : (ofSettings .staffTools).toOption.isSome = true := by
    decide +kernel
  obtain ⟨strict, hstrict, hvalidate, hbuilt, hcalls⟩ := hguests
  obtain ⟨lax, hlax⟩ := Option.isSome_iff_exists.mp hstaff
  replace hstrict := Checks.eq_ok_of_mem_toOption hstrict
  replace hlax := Checks.eq_ok_of_mem_toOption hlax
  replace hvalidate := Checks.eq_ok_of_mem_toOption hvalidate
  have hrun : (strict.build adultsQuery .empty).runOn .fresh = (.ok (), _) :=
    Prod.ext (Checks.eq_ok_of_mem_toOption hbuilt) rfl
  obtain ⟨haccepts, hbuilds⟩ :=
    narrows_of_tightens hstrict hlax SecuritySettings.tightens_guestTools
  exact ⟨strict, lax, _, hstrict, hlax, hvalidate, hrun, haccepts _ hvalidate,
    hbuilds _ _ _ _ hrun, hcalls⟩

end Engine

end QueryScript
