import QueryScript.Proofs.Assembly.Replay
import QueryScript.Proofs.Engine.Tables

/-!
# A build does not look back

A build that follows others is given a recorder with their calls, with the rows and options of
executors, and with whatever window they have left.  It makes of it what it makes of a fresh one:
it ends in the same way, it adds the same calls, and it leaves alone what is not its own
(`build_ignoresHistory`).  This holds of a build that fails as well.  It adds nothing if the
definition cannot be read or does not pass the check; otherwise it adds the calls of the actions
that are replayed before the one that is refused (`build_cases`).

So the calls of builds that follow each other, whichever of them fail, are those that each makes on
its own (`calls_buildAll`).
-/

namespace QueryScript.Engine

variable {engine : Engine} {value : Json} {params : Params} {definition : Definition}

/-! ## How a build comes out -/

/-- A build that passes the check performs what its definition replays. -/
theorem build_of_checked (hread : Definition.ofJson value = .ok definition)
    (hcheck : engine.guard.checkDefinition definition = .ok ()) :
    engine.build value params = discard ((engine.scope params definition).assemble definition) := by
  have hbuild : engine.build value params = discard (engine.buildDefinition definition params) :=
    build_of_read hread
  rw [hbuild, buildDefinition_eq, hcheck, Build.discard_bind]
  rfl

/-- **On every recorder alike**, a build is refused before its first call, makes the calls that its
definition replays, or stops at an action of these that is refused. -/
theorem build_cases (engine : Engine) (value : Json) (params : Params) :
    (∃ e, (engine.build value params).Refuses e ∧ engine.validate value = .error e) ∨
      ∃ definition, Definition.ofJson value = .ok definition ∧
        ((∃ calls, (engine.build value params).Gives (.ok ()) calls ∧
            (engine.scope params definition).Replays definition calls) ∨
          ∃ e calls, (engine.build value params).Gives (.error e) calls ∧
            (engine.scope params definition).StopsAfter definition calls e) := by
  cases hread : Definition.ofJson value with
  | error e =>
    refine .inl ⟨e, fun r => ?_, Checks.bind_eq_error.mpr (.inl hread)⟩
    rw [build_of_unread hread]
    rfl
  | ok definition =>
    rcases hcheck : engine.guard.checkDefinition definition with e | _
    · refine .inl ⟨e, fun r => ?_, Checks.bind_eq_error.mpr (.inr ⟨definition, hread, hcheck⟩)⟩
      rw [build_of_read hread, buildDefinition_eq, bind_assoc]
      exact Build.runOn_lift_bind_of_error hcheck r
    · rw [build_of_checked hread hcheck]
      exact .inr ⟨definition, rfl, (engine.scope params definition).assemble_cases definition⟩

/-- What a build gives does not depend on the recorder. -/
theorem exists_gives_of_build (engine : Engine) (value : Json) (params : Params) :
    ∃ outcome calls, (engine.build value params).Gives outcome calls := by
  rcases engine.build_cases value params with
    ⟨e, hrefuses, -⟩ | ⟨definition, -, ⟨calls, hgives, -⟩ | ⟨e, calls, hgives, -⟩⟩
  · exact ⟨.error e, [], hrefuses.gives⟩
  · exact ⟨.ok (), calls, hgives⟩
  · exact ⟨.error e, calls, hgives⟩

/-- A build that fails was refused before its first call, or has stopped at an action. -/
theorem refuses_or_stopsAfter_of_build {r : Recorder} {e : Error}
    (h : ((engine.build value params).runOn r).1 = .error e) :
    (engine.validate value = .error e ∧ ((engine.build value params).runOn r).2 = r) ∨
      ∃ definition, Definition.ofJson value = .ok definition ∧
        (engine.scope params definition).StopsAfter definition
          ((engine.build value params).runOn .fresh).2.calls e := by
  rcases engine.build_cases value params with
    ⟨e', hrefuses, hvalidate⟩ | ⟨definition, hread, ⟨calls, hgives, -⟩ | ⟨e', calls, hgives, hstops⟩⟩
  · rw [hrefuses r] at h ⊢
    cases h
    exact .inl ⟨hvalidate, rfl⟩
  · rw [hgives.outcome_eq] at h
    cases h
  · rw [hgives.outcome_eq] at h
    cases h
    rw [hgives.calls_eq]
    exact .inr ⟨definition, hread, hstops⟩

/-! ## Builds that follow each other -/

/-- A recorder after builds that follow each other, whichever of them fail. -/
def buildAll : List (Engine × Json × Params) → Recorder → Recorder
  | [], r => r
  | (engine, value, params) :: rest, r => buildAll rest ((engine.build value params).runOn r).2

/-- The calls of builds that follow each other are those that each makes on its own. -/
theorem calls_buildAll (builds : List (Engine × Json × Params)) (r : Recorder) :
    (buildAll builds r).calls = r.calls ++ builds.flatMap fun (engine, value, params) =>
      ((engine.build value params).runOn .fresh).2.calls := by
  induction builds generalizing r with
  | nil => rw [List.flatMap_nil, List.append_nil]; rfl
  | cons build rest ih =>
    obtain ⟨engine, value, params⟩ := build
    obtain ⟨outcome, calls, hgives⟩ := engine.exists_gives_of_build value params
    obtain ⟨-, hcalls, -⟩ := hgives.runOn_eq r
    rw [buildAll, ih, hcalls, List.flatMap_cons, List.append_assoc]

/-- **A build does not look back.**  On a recorder with a history it ends as on a fresh one and
adds the calls that it makes there, and rows, result set and options stay as they are.  If it
fails, these are none, or those of the actions that the definition replays before the one that is
refused.  Builds that follow it, whichever of them fail, add one after the other what each makes on
a recorder of its own. -/
theorem build_ignoresHistory (engine : Engine) (value : Json) (params : Params) (r : Recorder) :
    let alone := (engine.build value params).runOn .fresh
    let built := (engine.build value params).runOn r
    built.1 = alone.1 ∧ built.2.calls = r.calls ++ alone.2.calls ∧
      built.2.rows = r.rows ∧ built.2.native = r.native ∧
      built.2.lastOptions = r.lastOptions ∧
      (∀ e, built.1 = .error e →
        (engine.validate value = .error e ∧ built.2 = r) ∨
          ∃ definition, Definition.ofJson value = .ok definition ∧
            (engine.scope params definition).StopsAfter definition alone.2.calls e) ∧
      ∀ builds, (buildAll builds built.2).calls = r.calls ++ alone.2.calls ++
        builds.flatMap fun (engine, value, params) =>
          ((engine.build value params).runOn .fresh).2.calls := by
  intro alone built
  obtain ⟨outcome, calls, hgives⟩ := engine.exists_gives_of_build value params
  obtain ⟨houtcome, hcalls, hrows, hnative, hoptions⟩ := hgives.runOn_eq r
  refine ⟨houtcome, hcalls, hrows, hnative, hoptions, fun e => refuses_or_stopsAfter_of_build,
    fun builds => ?_⟩
  rw [calls_buildAll, hcalls]

/-- A query whose limit is replaced by two steps, and the second of them names a table by a
parameter. -/
def replacedTable : Json :=
  .arr [.obj [("from", .str "users")],
    .obj [("limit", .nat 1), ("when", .bool false),
      ("else", .arr [.obj [("select", .str "id")],
        .obj [("from", .obj [("$param", .str "table")])]])],
    .obj [("orderBy", .str "id")]]

/-- A recorder that has been asked for its rows. -/
def askedRecorder : Recorder :=
  { calls := [.mk "get" []], rows := [.nat 1], limit := some 5, lastOptions := some {} }

theorem exists_runs_replacedTable :
    ∃ engine e r', ofSettings .usersOnly = .ok engine ∧
      engine.validate replacedTable = .ok () ∧
      (engine.build replacedTable ⟨[("table", .str "secrets")]⟩).runOn askedRecorder =
        (.error e, r') ∧
      ((engine.build replacedTable ⟨[("table", .str "secrets")]⟩).runOn .fresh).2.calls =
        [.mk "from" [Build.textOperand "users"], .mk "select" [Build.textOperand "id"]] :=
  ⟨_, _, _, rfl, rfl, rfl, rfl⟩

/-- A build that stops inside an `else` definition leaves the calls before, once for each time
that it is tried. -/
theorem build_ignoresHistory_of_replacedTable :
    ∃ engine e, ofSettings .usersOnly = .ok engine ∧
      let tried := engine.build replacedTable ⟨[("table", .str "secrets")]⟩
      let made := [.mk "from" [Build.textOperand "users"], .mk "select" [Build.textOperand "id"]]
      (tried.runOn .fresh).1 = .error e ∧
        (tried.runOn askedRecorder).2.calls = .mk "get" [] :: made ∧
        (tried.runOn askedRecorder).2.lastOptions = some {} ∧
        (∃ definition, Definition.ofJson replacedTable = .ok definition ∧
          (engine.scope ⟨[("table", .str "secrets")]⟩ definition).StopsAfter definition made e) ∧
        (buildAll [(engine, replacedTable, ⟨[("table", .str "secrets")]⟩)]
          (tried.runOn askedRecorder).2).calls = .mk "get" [] :: (made ++ made) := by
  obtain ⟨engine, e, r', hengine, hvalidate, hrun, hmade⟩ := exists_runs_replacedTable
  obtain ⟨houtcome, hcalls, -, -, hoptions, hfails, hall⟩ :=
    engine.build_ignoresHistory replacedTable ⟨[("table", .str "secrets")]⟩ askedRecorder
  rw [hmade] at hcalls hfails
  have herror : ((engine.build replacedTable ⟨[("table", .str "secrets")]⟩).runOn
      askedRecorder).1 = .error e := congrArg Prod.fst hrun
  refine ⟨engine, e, hengine, houtcome.symm.trans herror, hcalls, hoptions, ?_, ?_⟩
  · rcases hfails e herror with ⟨hrefused, -⟩ | hstops
    · rw [hvalidate] at hrefused
      cases hrefused
    · exact hstops
  · rw [hall, List.flatMap_cons]
    dsimp only
    rw [hmade]
    rfl

end QueryScript.Engine
