import QueryScript.Proofs.Engine.Execution
import QueryScript.Proofs.Engine.Tables
import QueryScript.Proofs.Execution.Request

/-!
# How far an execution got before it failed

An execution that fails has failed in one of four phases (`Stops`): before it touched the
recorder, on the way to its executor, in the executor, or in shaping the answer.  Each phase
has failures of its own, so that the code of a failure tells how far the execution got
(`execute_stops`): a violation, a refused executor and an unknown format leave the recorder as
it was; only a failure of the builder, or to shape an answer, may come after the executor was
called; and a failure to shape an answer comes after it was called once, and last.
-/

namespace QueryScript

/-- No executor is called among the calls. -/
def Call.Unasked (calls : List Call) : Prop :=
  ∀ c, Call.Made c calls → ∀ e : Executor, c.method ≠ e.name

/-- Calls that ask nothing, one list after the other, ask nothing. -/
theorem Call.Unasked.append {calls later : List Call} (h : Unasked calls) (h' : Unasked later) :
    Unasked (calls ++ later) := by
  intro c hc
  rcases Call.made_append.mp hc with hc | hc
  · exact h c hc
  · exact h' c hc

theorem Call.unasked_nil : Unasked [] :=
  fun _ hc => absurd hc Call.not_made_nil

/-- A cap is no executor. -/
theorem Recorder.exists_unasked_limitedTo (r : Recorder) (cap : Option Nat) :
    ∃ added, (r.limitedTo cap).calls = r.calls ++ added ∧ Call.Unasked added := by
  cases cap with
  | none => exact ⟨[], (List.append_nil _).symm, Call.unasked_nil⟩
  | some n =>
    refine ⟨[.mk "limit" [.arg (.value (.nat n))]], rfl, fun c hc e => ?_⟩
    cases hc with
    | here hc =>
      rw [List.mem_singleton.mp hc]
      cases e <;> simp [Call.method, Executor.name]
    | within houter hinner _ =>
      rw [List.mem_singleton.mp houter] at hinner
      simp [Call.operands] at hinner

@[simp] theorem Recorder.lastOptions_limitedTo (r : Recorder) (cap : Option Nat) :
    (r.limitedTo cap).lastOptions = r.lastOptions := by
  cases cap <;> rfl

/-! ## The codes of the phases -/

namespace Error

variable {e : Error}

/-- Failures before the first call that come from the policies or from a format. -/
def isEarly : Error → Bool
  | .violation _ => true
  | .executorDenied _ => true
  | .format _ => true
  | _ => false

theorem isShaping_of_isReading (h : e.isReading = true) : e.isShaping = false := by
  cases e <;> first | rfl | cases h

theorem isEarly_of_isUnderway (h : e.isUnderway = true) : e.isEarly = false := by
  cases e <;> first | rfl | cases h

theorem isShaping_of_isUnderway (h : e.isUnderway = true) : e.isShaping = false := by
  cases e <;> first | rfl | cases h

theorem isEarly_of_isShaping (h : e.isShaping = true) : e.isEarly = false := by
  cases e <;> first | rfl | cases h

theorem code_mem_early_iff :
    e.code ∈ ["SECURITY_VIOLATION", "EXECUTOR_NOT_ALLOWED", "INVALID_FORMAT"] ↔
      e.isEarly = true := by
  cases e with
  | subquery family detail => cases family <;> simp [code, isEarly, SubqueryFamily.code]
  | _ => simp [code, isEarly]

theorem code_mem_shaping_iff :
    e.code ∈ ["INVALID_COLUMN_KEY", "INVALID_VALUE_KEY"] ↔ e.isShaping = true := by
  cases e with
  | subquery family detail => cases family <;> simp [code, isShaping, SubqueryFamily.code]
  | _ => simp [code, isShaping]

theorem code_mem_late_iff :
    e.code ∈ ["BUILDER_ERROR", "INVALID_COLUMN_KEY", "INVALID_VALUE_KEY"] ↔
      e.isBuilder = true ∨ e.isShaping = true := by
  cases e with
  | subquery family detail =>
    cases family <;> simp [code, isBuilder, isShaping, SubqueryFamily.code]
  | _ => simp [code, isBuilder, isShaping]

end Error

namespace Engine

variable {engine : Engine} {value : Json} {caller : CallerOptions} {definition : Definition}
  {r r' : Recorder} {e : Error}

/-- How far an execution got that was run on `r`, failed with `e` and left `r'`. -/
inductive Stops (r : Recorder) (e : Error) (r' : Recorder) : Prop where
  /-- It failed before it touched the recorder. -/
  | early (hsame : r' = r) (hcause : e.isShaping = false)
  /-- It failed before it called its executor. -/
  | underway {added : List Call} (hcause : e.isUnderway = true)
      (hoptions : r'.lastOptions = r.lastOptions) (hcalls : r'.calls = r.calls ++ added)
      (hunasked : Call.Unasked added)
  /-- Its executor failed. -/
  | asking (hcause : e.isBuilder = true)
  /-- Its executor gave an answer that could not be shaped. -/
  | shaping {added : List Call} {executor : Executor} {operands : List Operand}
      (hcause : e.isShaping = true)
      (hcalls : r'.calls = r.calls ++ added ++ [.mk executor.name operands])
      (hunasked : Call.Unasked added)

/-- Whatever comes of it, building a definition calls no executor. -/
theorem unasked_of_buildDefinition {params : Params} {outcome : Except Error Bool}
    (h : (engine.buildDefinition definition params).runOn r = (outcome, r')) :
    r'.lastOptions = r.lastOptions ∧
      ∃ added, r'.calls = r.calls ++ added ∧ Call.Unasked added := by
  have hadds : (engine.buildDefinition definition params).Adds
      fun c => ∀ e : Executor, c.method ≠ e.name :=
    (Build.adds_lift _).bind fun _ => Scope.assemble_ne_executor _ definition
  obtain ⟨calls, limit, offset, hend⟩ := engine.asksNothing_buildDefinition definition params r
  have hadded := hadds r
  rw [h] at hend hadded
  exact ⟨by rw [show r' = _ from hend], hadded⟩

/-- A definition that is not built was refused by the check, or by an action on the way. -/
theorem stops_of_buildDefinition {params : Params}
    (h : (engine.buildDefinition definition params).runOn r = (.error e, r')) : Stops r e r' := by
  rcases Build.runOn_bind_eq_error h with hcheck | ⟨_, mid, hcheck, hassemble⟩
  · obtain ⟨hfails, rfl⟩ := Build.eq_of_runOn_lift hcheck
    refine .early rfl ?_
    unfold Guard.checkDefinition at hfails
    split at hfails
    · cases hfails
    next cause _ =>
      cases hfails
      cases cause <;> rfl
  · obtain ⟨hoptions, added, hcalls, hunasked⟩ := unasked_of_buildDefinition h
    have hcause := (Scope.assemble_isUnderway _ definition).error hassemble
    exact .underway hcause hoptions hcalls hunasked

/-- What is left of an execution when the query is built fails on the way to the executor, in it,
or after it. -/
theorem stops_of_conclude {request : Request} {isCapped : Bool} {built : Recorder}
    {added : List Call} (hoptions : built.lastOptions = r.lastOptions)
    (hcalls : built.calls = r.calls ++ added) (hunasked : Call.Unasked added)
    (h : (engine.conclude request caller isCapped).runOn built = (.error e, r')) :
    Stops r e r' := by
  obtain ⟨cap, hcap, hcapUnasked⟩ :=
    built.exists_unasked_limitedTo (engine.cap? request isCapped)
  rw [hcalls, List.append_assoc] at hcap
  have hadded := hunasked.append hcapUnasked
  rcases engine.conclude_cases request caller isCapped built with
    ⟨e', hfails, hcause⟩ | ⟨s, asked, hs, hasked, ⟨e', hfails, hcause⟩ | ⟨answer, hends⟩⟩
  · rw [hfails] at h
    cases h
    exact .underway hcause (by rw [Recorder.lastOptions_limitedTo, hoptions]) hcap hadded
  · rw [hfails] at h
    cases h
    exact .asking hcause
  · rw [hends] at h
    obtain ⟨hresult, rfl⟩ := Prod.mk.inj h
    obtain ⟨hcause, havg⟩ := isShaping_of_result hresult
    obtain ⟨operands, rfl⟩ := hasked.eq_single havg
    rw [hcap] at hs
    exact .shaping hcause hs hadded

/-- **Every execution that fails stops in one of four phases.** -/
theorem stops_of_execute (h : (engine.execute value caller).runOn r = (.error e, r')) :
    Stops r e r' := by
  rcases engine.execute_cases value caller with
    ⟨definition, request, hrequests⟩ | ⟨e', hrefused, hwhy⟩
  · rw [execute_of_requests hrequests] at h
    rcases Build.runOn_bind_eq_error h with hbuild | ⟨isCapped, built, hbuilt, hconcluded⟩
    · exact stops_of_buildDefinition hbuild
    · obtain ⟨hoptions, added, hcalls, hunasked⟩ := unasked_of_buildDefinition hbuilt
      exact stops_of_conclude hoptions hcalls hunasked hconcluded
  · rw [hrefused r] at h
    cases h
    refine .early rfl ?_
    rcases hwhy with hread | ⟨definition, -, hasks⟩ | ⟨name, rfl⟩
    · exact Error.isShaping_of_isReading (Definition.isReading_of_ofJson hread)
    · exact Error.isShaping_of_isReading (Request.isReading_of_ofDefinition hasks)
    · rfl

/-- **The code of a failure tells how far an execution got.**  A violation, a refused executor and
an unknown format leave the recorder as it was.  If the code is neither that of the builder nor
that of a missing column, no executor was called.  If it is that of a missing column, one executor
was called, and it was the last call. -/
theorem execute_stops (h : (engine.execute value caller).runOn r = (.error e, r')) :
    (e.code ∈ ["SECURITY_VIOLATION", "EXECUTOR_NOT_ALLOWED", "INVALID_FORMAT"] → r' = r) ∧
    (e.code ∉ ["BUILDER_ERROR", "INVALID_COLUMN_KEY", "INVALID_VALUE_KEY"] →
      r'.lastOptions = r.lastOptions ∧
        ∃ added, r'.calls = r.calls ++ added ∧ Call.Unasked added) ∧
    (e.code ∈ ["INVALID_COLUMN_KEY", "INVALID_VALUE_KEY"] →
      ∃ added executor operands,
        r'.calls = r.calls ++ added ++ [.mk (Executor.name executor) operands] ∧
          Call.Unasked added) := by
  rw [Error.code_mem_early_iff, Error.code_mem_late_iff, Error.code_mem_shaping_iff]
  cases stops_of_execute h with
  | early hsame hcause =>
    refine ⟨fun _ => hsame, fun _ => ?_, fun hshaping => ?_⟩
    · rw [hsame]
      exact ⟨rfl, [], (List.append_nil _).symm, Call.unasked_nil⟩
    · simp [hcause] at hshaping
  | underway hcause hoptions hcalls hunasked =>
    refine ⟨fun hearly => ?_, fun _ => ⟨hoptions, _, hcalls, hunasked⟩, fun hshaping => ?_⟩
    · simp [Error.isEarly_of_isUnderway hcause] at hearly
    · simp [Error.isShaping_of_isUnderway hcause] at hshaping
  | asking hcause =>
    have hunderway := Error.isUnderway_of_isFormal
      (Error.isFormal_of_isStructural (Error.isStructural_of_isBuilder hcause))
    refine ⟨fun hearly => ?_, fun hlate => absurd (.inl hcause) hlate, fun hshaping => ?_⟩
    · simp [Error.isEarly_of_isUnderway hunderway] at hearly
    · simp [Error.isShaping_of_isUnderway hunderway] at hshaping
  | shaping hcause hcalls hunasked =>
    refine ⟨fun hearly => ?_, fun hlate => absurd (.inr hcause) hlate,
      fun _ => ⟨_, _, _, hcalls, hunasked⟩⟩
    simp [Error.isEarly_of_isShaping hcause] at hearly

/-- A query whose rows are wanted under the cells of a column that they do not have. -/
def keyedQuery : Json :=
  .arr [.obj [("from", .str "users")],
    .obj [("get", .bool true), ("returnFormat", .arr [.str "struct", .str "email"])]]

theorem exists_fails_keyedQuery :
    ∃ engine r', ofSettings .usersOnly = .ok engine ∧
      (engine.execute keyedQuery {}).runOn (.ofRows [.obj [("id", .nat 1)]]) =
        (.error (.columnKey "email"), r') :=
  ⟨_, _, rfl, rfl⟩

/-- A missing column is noticed when the executor has been called. -/
theorem execute_stops_of_keyedQuery :
    ∃ engine r', ofSettings .usersOnly = .ok engine ∧
      (engine.execute keyedQuery {}).runOn (.ofRows [.obj [("id", .nat 1)]]) =
        (.error (.columnKey "email"), r') ∧
      ∃ added executor operands,
        r'.calls = [] ++ added ++ [.mk (Executor.name executor) operands] ∧
          Call.Unasked added := by
  obtain ⟨engine, r', hengine, hrun⟩ := exists_fails_keyedQuery
  refine ⟨engine, r', hengine, hrun, ?_⟩
  obtain ⟨-, -, hasked⟩ := execute_stops hrun
  exact hasked (by simp [Error.code])

end Engine

end QueryScript
