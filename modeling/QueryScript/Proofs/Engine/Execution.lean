import QueryScript.Proofs.Assembly.Capping
import QueryScript.Proofs.Assembly.Judging
import QueryScript.Proofs.Engine.Actions
import QueryScript.Proofs.Recorder.Executors
import QueryScript.Proofs.Result.Shaping

/-!
# What an execution runs

An execution goes through phases, and each of them says what it may do to the recorder and how
it may fail.  It reads the definition and its request and asks the executor policy, which
leaves the recorder as it is (`execute_cases`); it builds the query (`execute_of_requests`);
it caps the rows, which never fails; it calls the executor, or is refused before the first of
its calls; and it shapes the answer, which is done on the value alone (`conclude_cases`).

The calls of an executor are those of `Executor.Asked`: one call of its own, or the two of an
average.
-/

namespace QueryScript

/-- Failures that arise on the way from the first call of an action to the call of the executor:
those of an action, and those of the executor's arguments. -/
def Error.isUnderway : Error → Bool
  | .argument _ => true
  | e => e.isFormal || e.isRefusal

/-- A failure for the form of an action arises underway. -/
theorem Error.isUnderway_of_isFormal {e : Error} (h : e.isFormal = true) : e.isUnderway = true := by
  cases e <;> first | rfl | cases h

theorem Error.isUnderway_of_isRefusal {e : Error} (h : e.isRefusal = true) :
    e.isUnderway = true := by
  cases e <;> first | rfl | cases h

/-- The calls with which an executor is asked: an average by a projection of raw SQL and the
executor that reads it, everything else by one call of the executor. -/
inductive Executor.Asked : Executor → List Call → Prop where
  | average (raw : RawSql) (operands : List Operand) :
      Asked .avg [.mk "selectRaw" [.arg (.raw raw)], .mk "value" operands]
  | single {executor : Executor} (h : executor ≠ .avg) (operands : List Operand) :
      Asked executor [.mk executor.name operands]

/-- Every executor but the average asks a single call. -/
theorem Executor.Asked.eq_single {executor : Executor} {asked : List Call}
    (h : executor.Asked asked) (havg : executor ≠ .avg) :
    ∃ operands, asked = [.mk executor.name operands] := by
  cases h with
  | average raw operands => exact absurd rfl havg
  | single _ operands => exact ⟨operands, rfl⟩

/-- The recorder with a call that caps its rows, if there is a cap. -/
def Recorder.limitedTo (r : Recorder) : Option Nat → Recorder
  | some n => { r.record (.mk "limit" [.arg (.value (.nat n))]) with limit := some n }
  | none => r

/-- A query can only be refused for the form or for the SQL of an action. -/
theorem Scope.assemble_isUnderway (scope : Scope) (items : Definition) :
    (scope.assemble items).Ends (fun _ => True) fun e => e.isUnderway = true :=
  assemble_ends_or (fun _ => Error.isUnderway_of_isFormal) fun _ _ _ _ _ hrefuses =>
    Error.isUnderway_of_isRefusal hrefuses.isRefusal

/-- No call of a query is named like an executor. -/
theorem Scope.assemble_ne_executor (scope : Scope) (items : Definition) :
    (scope.assemble items).Adds fun c => ∀ e : Executor, c.method ≠ e.name :=
  (scope.assemble_adds items).mono fun _ hc =>
    Action.name_ne_of_isRegistered (permitsCall_of_madeFrom hc).registered

namespace Engine

variable {engine : Engine} {value : Json} {caller : CallerOptions} {definition : Definition}
  {request : Request}

/-- The definition that a value writes asks for the request, and the policy permits to ask it. -/
structure Requests (engine : Engine) (value : Json) (params : Params) (definition : Definition)
    (request : Request) : Prop where
  read : Definition.ofJson value = .ok definition
  asks : Request.ofDefinition definition params = .ok request
  permitted : engine.guard.checkExecutor request.executor.name = .ok ()

/-- What is left of an execution when the query is built. -/
def conclude (engine : Engine) (request : Request) (caller : CallerOptions) (isCapped : Bool) :
    Build Json := do
  engine.capRows request isCapped
  let answer ← engine.ask (engine.capPage request) (engine.optionsFor request caller)
  Build.lift (result request.executor (engine.formatFor request caller) answer)

/-- An execution whose request is permitted builds its query and then concludes. -/
theorem execute_of_requests (h : engine.Requests value caller.params definition request) :
    engine.execute value caller =
      engine.buildDefinition definition caller.params >>= engine.conclude request caller := by
  unfold execute
  rw [h.read]
  show (Build.lift (Request.ofDefinition definition caller.params) >>= _) = _
  rw [h.asks]
  show (Build.lift (engine.guard.checkExecutor request.executor.name) >>= _) = _
  rw [h.permitted]
  rfl

/-- An execution without a permitted request is refused before anything else. -/
theorem execute_cases (engine : Engine) (value : Json) (caller : CallerOptions) :
    (∃ definition request, engine.Requests value caller.params definition request) ∨
      ∃ e, (∀ r, (engine.execute value caller).runOn r = (.error e, r)) ∧
        (Definition.ofJson value = .error e ∨
          (∃ definition, Definition.ofJson value = .ok definition ∧
            Request.ofDefinition definition caller.params = .error e) ∨
          ∃ name, e = .executorDenied name) := by
  unfold execute
  cases hread : Definition.ofJson value with
  | error e => exact .inr ⟨e, Build.runOn_lift_bind_of_error rfl, .inl rfl⟩
  | ok definition =>
    rcases hasks : Request.ofDefinition definition caller.params with e | request
    · refine .inr ⟨e, fun r => ?_, .inr (.inl ⟨definition, rfl, hasks⟩)⟩
      rw [Build.runOn_lift_bind_of_ok rfl]
      exact Build.runOn_lift_bind_of_error hasks r
    · by_cases hpermits : engine.guard.executors.permits request.executor.name = true
      · exact .inl ⟨definition, request, hread, hasks, if_pos hpermits⟩
      · refine .inr ⟨_, fun r => ?_, .inr (.inr ⟨request.executor.name, rfl⟩)⟩
        rw [Build.runOn_lift_bind_of_ok rfl, Build.runOn_lift_bind_of_ok hasks]
        exact Build.runOn_lift_bind_of_error (if_neg hpermits) r

/-- An execution that gives a result has built its query and concluded. -/
theorem exists_built_of_execute {r s : Recorder} {answer : Json}
    (hread : Definition.ofJson value = .ok definition)
    (hasks : Request.ofDefinition definition caller.params = .ok request)
    (h : (engine.execute value caller).runOn r = (.ok answer, s)) :
    ∃ isCapped built, (engine.buildDefinition definition caller.params).runOn r =
        (.ok isCapped, built) ∧
      (engine.conclude request caller isCapped).runOn built = (.ok answer, s) := by
  rcases engine.execute_cases value caller with ⟨d, q, hrequests⟩ | ⟨e, hrefused, -⟩
  · obtain rfl := Except.ok.inj (hread.symm.trans hrequests.read)
    obtain rfl := Except.ok.inj (hasks.symm.trans hrequests.asks)
    rw [execute_of_requests hrequests] at h
    exact Build.runOn_bind_eq_ok.mp h
  · rw [hrefused] at h
    cases h

/-! ## The cap -/

/-- The cap that an execution puts on the rows of its query. -/
def cap? (engine : Engine) (request : Request) (isCapped : Bool) : Option Nat :=
  engine.defaults.maxRows.filter fun _ => request.executor.returnsRows && !isCapped

/-- Capping the rows never fails. -/
theorem runOn_capRows (engine : Engine) (request : Request) (isCapped : Bool) (r : Recorder) :
    (engine.capRows request isCapped).runOn r =
      (.ok (), r.limitedTo (engine.cap? request isCapped)) := by
  unfold capRows cap?
  cases engine.defaults.maxRows with
  | none => rfl
  | some n =>
    dsimp only
    cases request.executor.returnsRows && !isCapped with
    | true => rfl
    | false => rfl

/-! ## The executor -/

/-- The page ceiling does not change which executor is asked. -/
theorem capPage_executor (engine : Engine) (request : Request) :
    (engine.capPage request).executor = request.executor := by
  unfold capPage Request.capped
  split
  · split <;> rfl
  · rfl

/-- All executors but the average are asked with their arguments resolved. -/
theorem ask_of_ne (h : request.executor ≠ .avg) (options : Options) :
    engine.ask request options = (do
      let args ← Build.lift (Argument.resolveAll engine.guard.checkSql request.args)
      Build.execute request.executor args options) := by
  unfold ask
  split
  · contradiction
  · rfl

/-- Asking is refused before its first call, or makes all of its calls and then is refused by
nothing but the builder. -/
theorem ask_cases (engine : Engine) (request : Request) (options : Options) (r : Recorder) :
    (∃ e, (engine.ask request options).runOn r = (.error e, r) ∧ e.isUnderway = true) ∨
      ∃ outcome s asked, (engine.ask request options).runOn r = (outcome, s) ∧
        s.calls = r.calls ++ asked ∧ request.executor.Asked asked ∧
        ∀ e, outcome = .error e → e.isBuilder = true := by
  by_cases havg : request.executor = .avg
  · have hask : engine.ask request options = Average.run request.args options := by
      rw [ask, havg]
    rw [hask, havg]
    rcases Average.runOn_run request.args options r with
      ⟨detail, hrun⟩ | ⟨name, default, hname, hdefault⟩
    · exact .inl ⟨_, hrun, rfl⟩
    · have hrun := Average.runOn_run_of_ok hname hdefault options r
      exact .inr ⟨_, _, _, hrun, rfl, .average _ _, nofun⟩
  · rw [ask_of_ne havg]
    cases hargs : Argument.resolveAll engine.guard.checkSql request.args with
    | error e =>
      obtain ⟨v, -, payload, -, hpayload⟩ := Argument.exists_shows_of_resolveAll hargs
      have hrefusal := Argument.isRefusal_of_ofPayload (fun _ => Guard.isRefusal_of_checkSql) hpayload
      exact .inl ⟨e, Build.runOn_lift_bind_of_error rfl r, Error.isUnderway_of_isRefusal hrefusal⟩
    | ok args =>
      rw [Build.runOn_lift_bind_of_ok rfl, Build.runOn_execute]
      exact .inr ⟨_, _, _, rfl, Recorder.calls_executed, .single havg _,
        fun _ => Recorder.isBuilder_of_answer⟩

/-- What is left of an execution caps the rows, and then is refused before the executor is called
for the first time, or calls it; of its answer nothing but the shape can fail. -/
theorem conclude_cases (engine : Engine) (request : Request) (caller : CallerOptions)
    (isCapped : Bool) (r : Recorder) :
    let capped := r.limitedTo (engine.cap? request isCapped)
    (∃ e, (engine.conclude request caller isCapped).runOn r = (.error e, capped) ∧
        e.isUnderway = true) ∨
      ∃ s asked, s.calls = capped.calls ++ asked ∧ request.executor.Asked asked ∧
        ((∃ e, (engine.conclude request caller isCapped).runOn r = (.error e, s) ∧
            e.isBuilder = true) ∨
          ∃ answer, (engine.conclude request caller isCapped).runOn r =
            (result request.executor (engine.formatFor request caller) answer, s)) := by
  intro capped
  unfold conclude
  rw [Build.runOn_bind_of_ok (engine.runOn_capRows request isCapped r)]
  rcases engine.ask_cases (engine.capPage request) (engine.optionsFor request caller) capped with
    ⟨e, hrun, hunderway⟩ | ⟨outcome, s, asked, hrun, hcalls, hasked, hfails⟩
  · exact .inl ⟨e, Build.runOn_bind_of_error hrun, hunderway⟩
  · rw [capPage_executor] at hasked
    refine .inr ⟨s, asked, hcalls, hasked, ?_⟩
    cases outcome with
    | error e => exact .inl ⟨e, Build.runOn_bind_of_error hrun, hfails e rfl⟩
    | ok answer =>
      refine .inr ⟨answer, ?_⟩
      rw [Build.runOn_bind_of_ok hrun, Build.runOn_lift]

/-- The rows are asked for in the driver's own form if the format wants it. -/
theorem native_optionsFor (hget : request.executor = .get) :
    (engine.optionsFor request caller).native = (engine.formatFor request caller).wantsNative := by
  simp [optionsFor, hget]

/-- A query that is asked for its rows and gives a result was capped, asked once, and answered from
the capped recorder. -/
theorem exists_answer_of_conclude {isCapped : Bool} {built s : Recorder} {answer : Json}
    (hget : request.executor = .get)
    (h : (engine.conclude request caller isCapped).runOn built = (.ok answer, s)) :
    ∃ args given,
      Argument.resolveAll engine.guard.checkSql (engine.capPage request).args = .ok args ∧
      (built.limitedTo (engine.cap? request isCapped)).answer .get args
        (engine.optionsFor request caller) = .ok given ∧
      s = (built.limitedTo (engine.cap? request isCapped)).executed .get args
        (engine.optionsFor request caller) ∧
      (engine.formatFor request caller).shapeAnswer given = .ok answer := by
  have hpage : (engine.capPage request).executor = .get := by rw [capPage_executor, hget]
  obtain ⟨_, capped, hcap, h⟩ := Build.runOn_bind_eq_ok.mp h
  rw [runOn_capRows] at hcap
  obtain ⟨-, rfl⟩ := Prod.mk.inj hcap
  obtain ⟨given, asked, hask, hshape⟩ := Build.runOn_bind_eq_ok.mp h
  rw [ask_of_ne (by rw [hpage]; decide), hpage] at hask
  obtain ⟨args, mid, hargs, hexecute⟩ := Build.runOn_bind_eq_ok.mp hask
  obtain ⟨hresolved, rfl⟩ := Build.eq_of_runOn_lift hargs
  rw [Build.runOn_execute] at hexecute
  obtain ⟨hgiven, rfl⟩ := Prod.mk.inj hexecute
  obtain ⟨hresult, rfl⟩ := Build.eq_of_runOn_lift hshape
  rw [hget] at hresult
  exact ⟨args, given, hresolved, hgiven, rfl, hresult⟩

/-- What keeps an answer from its shape is a missing column, and averages are not shaped. -/
theorem isShaping_of_result {executor : Executor} {format : Format} {answer : Answer} {e : Error}
    (h : result executor format answer = .error e) : e.isShaping = true ∧ executor ≠ .avg := by
  unfold result at h
  split at h
  · exact ⟨Format.isShaping_of_shapeAnswer h, by decide⟩
  · exact ⟨Format.isShaping_of_shapePage h, by decide⟩
  · exact ⟨Format.isShaping_of_shapePage h, by decide⟩
  · cases h

/-! ## A build and an execution of one definition -/

/-- A build fails as its definition does when it is checked and assembled. -/
theorem runOn_buildDefinition_of_error {r r' : Recorder} {e : Error}
    (hread : Definition.ofJson value = .ok definition)
    (h : (engine.build value caller.params).runOn r = (.error e, r')) :
    (engine.buildDefinition definition caller.params).runOn r = (.error e, r') := by
  rw [build_of_read hread] at h
  rcases Build.runOn_bind_eq_error h with h | ⟨_, _, -, hpure⟩
  · exact h
  · cases hpure

/-- An assembly that succeeds on a recorder is a build that does. -/
theorem runOn_build_of_ok {r r' : Recorder} {isCapped : Bool}
    (hread : Definition.ofJson value = .ok definition)
    (h : (engine.buildDefinition definition caller.params).runOn r = (.ok isCapped, r')) :
    (engine.build value caller.params).runOn r = (.ok (), r') := by
  rw [build_of_read hread, Build.runOn_bind_of_ok h]
  rfl

/-- Whatever comes of it, building a definition asks nothing. -/
theorem asksNothing_buildDefinition (engine : Engine) (definition : Definition) (params : Params) :
    (engine.buildDefinition definition params).AsksNothing :=
  (Build.asksNothing_of_unchanged fun r => by rw [Build.runOn_lift]).bind fun _ =>
    Scope.assemble_asksNothing _ definition

/-- A query that is built has added calls, and says whether one of them caps it. -/
theorem exists_added_of_buildDefinition {params : Params} {r built : Recorder} {isCapped : Bool}
    (h : (engine.buildDefinition definition params).runOn r = (.ok isCapped, built)) :
    ∃ added, built.calls = r.calls ++ added ∧ (isCapped = true ↔ ∃ c ∈ added, c.Caps) := by
  obtain ⟨_, mid, hcheck, hrun⟩ := Build.runOn_bind_eq_ok.mp h
  obtain ⟨-, rfl⟩ := Build.eq_of_runOn_lift hcheck
  obtain ⟨added, hcalls, -⟩ := (engine.scope params definition).assemble_adds definition mid
  rw [show ((engine.scope params definition).assemble definition).runOn mid = _ from hrun] at hcalls
  exact ⟨added, hcalls, Scope.assemble_tellsCap _ _ _ _ ⟨mid, built, hrun, hcalls⟩⟩

end Engine

end QueryScript
