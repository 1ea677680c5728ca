import QueryScript.Proofs.Engine.Extension

/-!
# How many rows an execution answers with

The settings cap the rows of a query that sets no cap of its own.  Whether it sets one is told
by the names of its calls, and a call of the right name need not set a cap: `limit` without an
argument, or with `null` for an absent parameter, takes the cap away.  Then the answer has as
many rows as there are.

`execute_capsRows` says exactly when the cap of the settings holds for a query that has no limit
in force: if no call of the limiting kind was made, or if the rows behind the offset are few
anyway.  With `openQuery` two rows are answered under a cap of one (`not_execute_capsRows`).
-/

namespace QueryScript

theorem Recorder.length_visible_le {r : Recorder} {n : Nat} (h : r.limit = some n) :
    r.visible.length ≤ n := by
  simp only [visible, h, List.length_take]
  omega

/-- Without a limit the rows behind the offset are visible. -/
theorem Recorder.length_visible {r : Recorder} (h : r.limit = none) :
    r.visible.length = r.rows.length - r.offset := by
  simp [visible, h]

namespace Engine

variable {engine : Engine} {value : Json} {caller : CallerOptions} {definition : Definition}
  {request : Request}

/-- The rows of a query that is built and asked for them are those that its cap leaves. -/
theorem eq_visible_of_conclude {isCapped : Bool} {built s : Recorder} {answer : Json}
    (hget : request.executor = .get) (hformat : engine.formatFor request caller = .array)
    (h : (engine.conclude request caller isCapped).runOn built = (.ok answer, s)) :
    answer = .arr (built.limitedTo (engine.cap? request isCapped)).visible := by
  obtain ⟨args, given, -, hgiven, -, hshape⟩ := exists_answer_of_conclude hget h
  have hunwanted : (engine.optionsFor request caller).native = false := by
    rw [native_optionsFor hget, hformat]
    rfl
  rw [Recorder.answer_get_of_unwanted hunwanted] at hgiven
  rw [← Except.ok.inj hgiven, hformat] at hshape
  have hshaped : Format.array.shape (.arr _) = .ok answer := hshape
  rw [Format.shape_array] at hshaped
  exact (Except.ok.inj hshaped).symm

/-- A query without a limit is answered with no more rows than the cap if it was not said to be
capped, or if it has no more rows. -/
theorem length_visible_le_iff {maxRows : Nat} {isCapped : Bool} {built : Recorder}
    (hmax : engine.defaults.maxRows = some maxRows) (hget : request.executor = .get)
    (hlimit : built.limit = none) :
    (built.limitedTo (engine.cap? request isCapped)).visible.length ≤ maxRows ↔
      isCapped = false ∨ built.rows.length ≤ built.offset + maxRows := by
  rw [cap?, hmax, hget]
  cases isCapped with
  | false =>
    have hfew : (built.limitedTo (some maxRows)).visible.length ≤ maxRows :=
      Recorder.length_visible_le rfl
    exact ⟨fun _ => .inl rfl, fun _ => hfew⟩
  | true =>
    show built.visible.length ≤ maxRows ↔ _
    rw [Recorder.length_visible hlimit]
    constructor
    · intro h
      exact .inr (by omega)
    · intro h
      rcases h with hfree | hfew
      · cases hfree
      · omega

/-- **The cap of the settings holds for a query without a limit exactly if** no call of the
limiting kind was made when the query was built, or the rows behind the offset are no more than
the cap. -/
theorem execute_capsRows {maxRows : Nat} {rows : List Json} {answer : Json} {s : Recorder}
    (hmax : engine.defaults.maxRows = some maxRows)
    (hread : Definition.ofJson value = .ok definition)
    (hasks : Request.ofDefinition definition caller.params = .ok request)
    (hget : request.executor = .get) (hformat : engine.formatFor request caller = .array)
    (hrun : (engine.execute value caller).runOn (.ofRows rows) = (.ok answer, s)) :
    ∃ built answered, (engine.build value caller.params).runOn (.ofRows rows) = (.ok (), built) ∧
      answer = .arr answered ∧
      (built.limit = none → (answered.length ≤ maxRows ↔
        (∀ c ∈ built.calls, ¬ c.Caps) ∨ rows.length ≤ built.offset + maxRows)) := by
  obtain ⟨isCapped, built, hbuilt, hconcluded⟩ := exists_built_of_execute hread hasks hrun
  obtain ⟨added, hadded, hcaps⟩ := exists_added_of_buildDefinition hbuilt
  obtain ⟨calls, limit, offset, hend⟩ :=
    engine.asksNothing_buildDefinition definition caller.params (.ofRows rows)
  rw [hbuilt] at hend
  have hrows : built.rows = rows := by rw [show built = _ from hend]; rfl
  have hcalls : built.calls = added := hadded
  refine ⟨built, _, runOn_build_of_ok hread hbuilt,
    eq_visible_of_conclude hget hformat hconcluded, fun hlimit => ?_⟩
  have hfree : isCapped = false ↔ ∀ c ∈ added, ¬ c.Caps := by
    rw [← Bool.not_eq_true, hcaps]
    simp only [not_exists, not_and]
  rw [length_visible_le_iff hmax hget hlimit, hrows, hcalls, hfree]

/-- Two rows. -/
def twoRows : List Json :=
  [.obj [("id", .nat 1)], .obj [("id", .nat 2)]]

theorem exists_runs_twoRows :
    ∃ engine s built, ofSettings .oneUser = .ok engine ∧ engine.defaults.maxRows = some 1 ∧
      engine.formatFor Request.rows {} = .array ∧
      (engine.execute usersQuery {}).runOn (.ofRows twoRows) =
        (.ok (.arr [.obj [("id", .nat 1)]]), s) ∧
      (engine.build usersQuery .empty).runOn (.ofRows twoRows) = (.ok (), built) ∧
      built.limit = none ∧ built.calls = [.mk "from" [.arg (.value (.str "users"))]] :=
  ⟨_, _, _, rfl, rfl, rfl, rfl, rfl, rfl, rfl⟩

/-- A query that says nothing of its rows is capped. -/
theorem execute_capsRows_of_usersQuery :
    ∃ engine built answered s, ofSettings .oneUser = .ok engine ∧
      (engine.build usersQuery .empty).runOn (.ofRows twoRows) = (.ok (), built) ∧
      (engine.execute usersQuery {}).runOn (.ofRows twoRows) = (.ok (.arr answered), s) ∧
      answered.length ≤ 1 := by
  obtain ⟨engine, s, built, hengine, hmax, hformat, hrun, hbuild, hlimit, hcalls⟩ :=
    exists_runs_twoRows
  obtain ⟨built', answered, hbuild', hanswer, hiff⟩ :=
    execute_capsRows hmax rfl rfl rfl hformat hrun
  obtain ⟨-, rfl⟩ := Prod.mk.inj (hbuild.symm.trans hbuild')
  refine ⟨engine, built, answered, s, hengine, hbuild, by rw [hrun, hanswer], ?_⟩
  refine (hiff hlimit).mpr (.inl fun c hc => ?_)
  rw [hcalls] at hc
  rw [List.mem_singleton.mp hc]
  simp [Call.Caps, Call.method]

/-- All users, as many as the caller says. -/
def openQuery : Json :=
  .arr [.obj [("from", .str "users")], .obj [("limit", .obj [("$param", .str "n")])]]

theorem exists_runs_openQuery :
    ∃ engine s built, ofSettings .oneUser = .ok engine ∧ engine.defaults.maxRows = some 1 ∧
      engine.formatFor Request.rows {} = .array ∧
      (engine.execute openQuery {}).runOn (.ofRows twoRows) = (.ok (.arr twoRows), s) ∧
      (engine.build openQuery .empty).runOn (.ofRows twoRows) = (.ok (), built) ∧
      built.limit = none :=
  ⟨_, _, _, rfl, rfl, rfl, rfl, rfl, rfl⟩

/-- The cap of the settings does not hold for every query that has no limit in force: a `limit`
for which the caller gives no number takes it away. -/
theorem not_execute_capsRows :
    ¬ ∀ (engine : Engine) (value : Json) (caller : CallerOptions) (definition : Definition)
      (request : Request) (maxRows : Nat) (rows answered : List Json) (built s : Recorder),
      engine.defaults.maxRows = some maxRows → Definition.ofJson value = .ok definition →
      Request.ofDefinition definition caller.params = .ok request → request.executor = .get →
      engine.formatFor request caller = .array →
      (engine.execute value caller).runOn (.ofRows rows) = (.ok (.arr answered), s) →
      (engine.build value caller.params).runOn (.ofRows rows) = (.ok (), built) →
      built.limit = none → answered.length ≤ maxRows := by
  intro h
  obtain ⟨engine, s, built, -, hmax, hformat, hrun, hbuild, hlimit⟩ := exists_runs_openQuery
  have hle := h engine openQuery {} _ Request.rows 1 twoRows twoRows built s hmax rfl rfl rfl
    hformat hrun hbuild hlimit
  simp [twoRows] at hle

end Engine

end QueryScript
