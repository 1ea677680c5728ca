import QueryScript.Proofs.Engine.Execution
import QueryScript.Proofs.Engine.Tables

/-!
# An execution extends the build of its definition

What an execution builds is what a build of the same definition builds.  So an execution that
succeeds makes the calls of the build, then a cap on the rows where the settings ask for one
and the build has none (`Ceiling`), and then the calls of its executor; and where its request
is permitted, it fails as the build does, with the same calls (`execute_extendsBuild`).

Whether the build has a cap is what assembling it answers.  That the answer is about the calls
that the build has made is `Scope.assemble_tellsCap`.
-/

namespace QueryScript

theorem Executor.returnsRows_iff {executor : Executor} :
    executor.returnsRows = true ↔ executor = .get ∨ executor = .values := by
  cases executor <;> decide

/-- The settings of `usersOnly` with a cap of one row. -/
def Settings.oneUser : Settings :=
  { Settings.usersOnly with defaults := { maxRows := some 1 } }

namespace Engine

/-- The calls by which an execution caps the rows of a query that was built by `added`. -/
inductive Ceiling (engine : Engine) (request : Request) (added : List Call) : List Call → Prop where
  /-- There is a cap for the executor, and the query has none. -/
  | capped {n : Nat} (hmax : engine.defaults.maxRows = some n)
      (hrows : request.executor = .get ∨ request.executor = .values)
      (hfree : ∀ c ∈ added, ¬ c.Caps) :
      Ceiling engine request added [.mk "limit" [.arg (.value (.nat n))]]
  /-- There is no cap, or the executor takes none, or the query has one. -/
  | free (h : engine.defaults.maxRows = none ∨
        (request.executor ≠ .get ∧ request.executor ≠ .values) ∨ ∃ c ∈ added, c.Caps) :
      Ceiling engine request added []

variable {engine : Engine} {request : Request} {added : List Call}

/-- The cap follows the calls if the answer of the build does. -/
theorem exists_ceiling {isCapped : Bool} (h : isCapped = true ↔ ∃ c ∈ added, c.Caps)
    (r : Recorder) :
    ∃ cap, (r.limitedTo (engine.cap? request isCapped)).calls = r.calls ++ cap ∧
      engine.Ceiling request added cap := by
  cases hcap : engine.cap? request isCapped with
  | some n =>
    obtain ⟨hmax, hopen⟩ := Option.filter_eq_some_iff.mp hcap
    rw [Bool.and_eq_true, Bool.not_eq_true', Executor.returnsRows_iff] at hopen
    refine ⟨_, rfl, .capped hmax hopen.1 fun c hc hcaps => ?_⟩
    have hcapped := h.mpr ⟨c, hc, hcaps⟩
    simp [hopen.2] at hcapped
  | none =>
    refine ⟨[], (List.append_nil _).symm, .free ?_⟩
    cases hmax : engine.defaults.maxRows with
    | none => exact .inl rfl
    | some n =>
      right
      rw [cap?, hmax, Option.filter_some] at hcap
      by_cases hrows : request.executor.returnsRows = true
      · have hcapped : isCapped = true := by simpa [hrows] using hcap
        exact .inr (h.mp hcapped)
      · exact .inl (not_or.mp (mt Executor.returnsRows_iff.mpr hrows))

/-- **An execution extends the build of its definition.**  If it succeeds, so does the build, and
the calls of the execution are those of the build, then a cap where one is due, and then those of
the executor.  If the definition is read and its request permitted, a failure of the build is that
of the execution, with the same calls. -/
theorem execute_extendsBuild (engine : Engine) (value : Json) (caller : CallerOptions)
    (r : Recorder) :
    (∀ answer s, (engine.execute value caller).runOn r = (.ok answer, s) →
      ∃ definition request built added cap asked,
        engine.Requests value caller.params definition request ∧
        (engine.build value caller.params).runOn r = (.ok (), built) ∧
        built.calls = r.calls ++ added ∧
        s.calls = built.calls ++ cap ++ asked ∧
        engine.Ceiling request added cap ∧ request.executor.Asked asked) ∧
    ∀ e r', (∀ definition, Definition.ofJson value = .ok definition →
        ∃ request, engine.Requests value caller.params definition request) →
      (engine.build value caller.params).runOn r = (.error e, r') →
        (engine.execute value caller).runOn r = (.error e, r') := by
  constructor
  · intro answer s hrun
    rcases engine.execute_cases value caller with
      ⟨definition, request, hrequests⟩ | ⟨e, hrefused, -⟩
    · rw [execute_of_requests hrequests] at hrun
      obtain ⟨isCapped, built, hbuilt, hconcluded⟩ := Build.runOn_bind_eq_ok.mp hrun
      obtain ⟨added, hadded, hcaps⟩ := exists_added_of_buildDefinition hbuilt
      obtain ⟨cap, hcap, hceiling⟩ := exists_ceiling hcaps built
      refine ⟨definition, request, built, added, cap, ?_⟩
      rcases engine.conclude_cases request caller isCapped built with
        ⟨e, hfails, -⟩ | ⟨s', asked, hcalls, hasked, hends⟩
      · rw [hfails] at hconcluded
        cases hconcluded
      · have hend : s' = s := by
          rcases hends with ⟨e, hfails, -⟩ | ⟨answer', hends⟩
          · rw [hfails] at hconcluded
            cases hconcluded
          · rw [hends] at hconcluded
            exact (Prod.mk.inj hconcluded).2
        rw [← hend, hcalls, hcap]
        exact ⟨asked, hrequests, runOn_build_of_ok hrequests.read hbuilt, hadded, rfl, hceiling,
          hasked⟩
    · rw [hrefused r] at hrun
      cases hrun
  · intro e r' hpermitted hbuild
    cases hread : Definition.ofJson value with
    | error e' =>
      rw [build_of_unread hread] at hbuild
      cases hbuild
      exact Build.runOn_lift_bind_of_error hread r
    | ok definition =>
      obtain ⟨request, hrequests⟩ := hpermitted definition hread
      rw [execute_of_requests hrequests]
      exact Build.runOn_bind_of_error (runOn_buildDefinition_of_error hread hbuild)

/-- All users. -/
def usersQuery : Json :=
  .arr [.obj [("from", .str "users")]]

/-- A query of a table that a parameter names, which is refused when its first call is made. -/
def namedQuery : Json :=
  .arr [.obj [("distinct", .bool true)], .obj [("from", .obj [("$param", .str "table")])]]

/-- A caller who names a table that is not admitted. -/
def secretCaller : CallerOptions :=
  { params := ⟨[("table", .str "secrets")]⟩ }

theorem exists_runs_usersQuery :
    ∃ engine answer s e r', ofSettings .oneUser = .ok engine ∧
      (engine.execute usersQuery {}).runOn .fresh = (.ok answer, s) ∧
      (engine.build namedQuery secretCaller.params).runOn .fresh = (.error e, r') ∧
      s.calls = [.mk "from" [.arg (.value (.str "users"))],
        .mk "limit" [.arg (.value (.nat 1))], .mk "get" []] ∧
      r'.calls = [.mk "distinct" []] ∧
      engine.Requests namedQuery secretCaller.params (Item.ofItems [
        .obj [("distinct", .bool true)], .obj [("from", .obj [("$param", .str "table")])]])
        Request.rows :=
  ⟨_, _, _, _, _, rfl, rfl, rfl, rfl, rfl, rfl, rfl, rfl⟩

/-- A query without a cap gets one, and a query that fails after its first call is not asked. -/
theorem execute_extendsBuild_of_users :
    ∃ engine answer s e r', ofSettings .oneUser = .ok engine ∧
      (engine.execute usersQuery {}).runOn .fresh = (.ok answer, s) ∧
      (∃ definition request built added cap asked,
        engine.Requests usersQuery .empty definition request ∧
        (engine.build usersQuery .empty).runOn .fresh = (.ok (), built) ∧
        built.calls = [] ++ added ∧ s.calls = built.calls ++ cap ++ asked ∧
        engine.Ceiling request added cap ∧ request.executor.Asked asked) ∧
      s.calls = [.mk "from" [.arg (.value (.str "users"))],
        .mk "limit" [.arg (.value (.nat 1))], .mk "get" []] ∧
      (engine.execute namedQuery secretCaller).runOn .fresh = (.error e, r') ∧
      r'.calls = [.mk "distinct" []] := by
  obtain ⟨engine, answer, s, e, r', hengine, hrun, hbuild, hcalls, hcalls', hrequests⟩ :=
    exists_runs_usersQuery
  have hpermitted : ∀ definition, Definition.ofJson namedQuery = .ok definition →
      ∃ request, engine.Requests namedQuery secretCaller.params definition request := by
    intro definition hread
    obtain rfl := Except.ok.inj (hrequests.read.symm.trans hread)
    exact ⟨Request.rows, hrequests⟩
  exact ⟨engine, answer, s, e, r', hengine, hrun,
    (execute_extendsBuild engine usersQuery {} .fresh).1 answer s hrun, hcalls,
    (execute_extendsBuild engine namedQuery secretCaller .fresh).2 e r' hpermitted hbuild, hcalls'⟩

end Engine

end QueryScript
