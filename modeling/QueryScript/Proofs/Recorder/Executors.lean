import QueryScript.Execution.Average
import QueryScript.Proofs.Recorder.Ends

/-!
# What an executor does to the recorder

An executor is recorded with its options whether it can be answered or not (`runOn_execute`),
and what keeps it from an answer is a failure of the builder (`isBuilder_of_answer`).  An
average is two calls, a projection and the executor that reads it (`Average.runOn_run_of_ok`); it
is refused before both if it is not given a column or a number (`Average.runOn_run`).
-/

namespace QueryScript

/-- An executor is called once, and answered from the recorder as it was. -/
theorem Build.runOn_execute (executor : Executor) (args : List Argument) (options : Options)
    (r : Recorder) :
    (Build.execute executor args options).runOn r =
      (r.answer executor args options, r.executed executor args options) := by
  show (Build.lift (r.answer executor args options)).runOn _ = _
  rw [Build.runOn_lift]

theorem isBuilder_of_requiredColumn {args : List Argument} {executor : Executor} {e : Error}
    (h : requiredColumn args executor = .error e) : e.isBuilder = true := by
  unfold requiredColumn at h
  split at h
  · cases h
  · cases h
    rfl

namespace Recorder

variable {r : Recorder} {executor : Executor} {args : List Argument} {options : Options}
  {e : Error}

theorem isBuilder_of_paginate {simple : Bool} (h : r.paginate args simple = .error e) :
    e.isBuilder = true := by
  rcases Checks.bind_eq_error.mp h with hpage | ⟨_, -, h⟩
  · exact isBuilder_of_naturalArgument hpage
  · rcases Checks.bind_eq_error.mp h with hsize | ⟨_, -, hpure⟩
    · exact isBuilder_of_naturalArgument hsize
    · cases hpure

/-- What keeps an executor from an answer is a failure of the builder. -/
theorem isBuilder_of_answer (h : r.answer executor args options = .error e) :
    e.isBuilder = true := by
  -- an executor that fails lacks its column, or is given a page that is no number
  have hcolumn : ∀ f : String → Json,
      (requiredColumn args executor >>= fun column => .ok (Answer.value (f column))) = .error e →
      e.isBuilder = true := by
    intro f h
    rcases Checks.bind_eq_error.mp h with hcolumn | ⟨_, -, hpure⟩
    · exact isBuilder_of_requiredColumn hcolumn
    · cases hpure
  have hpage : ∀ simple,
      (r.paginate args simple >>= fun page => .ok (Answer.value page)) = .error e →
      e.isBuilder = true := by
    intro simple h
    rcases Checks.bind_eq_error.mp h with hpage | ⟨_, -, hpure⟩
    · exact isBuilder_of_paginate hpage
    · cases hpure
  cases executor with
  | get =>
    rw [answer] at h
    split at h <;> cases h
  | value => exact hcolumn _ h
  | values => exact hcolumn _ h
  | sum => exact hcolumn _ h
  | min => exact hcolumn _ h
  | max => exact hcolumn _ h
  | paginate => exact hpage false h
  | simplePaginate => exact hpage true h
  | _ => cases h

/-- An executor is recorded behind all other calls. -/
theorem calls_executed :
    (r.executed executor args options).calls = r.calls ++ [.mk executor.name (args.map .arg)] :=
  rfl

/-- The rows that an executor gets, if the driver's own result is not asked for. -/
theorem answer_get_of_unwanted (h : options.native = false) :
    r.answer .get args options = .ok (.value (.arr r.visible)) := by
  simp only [answer, h]
  rfl

/-- A recorder that has the driver's own result hands it out as it is. -/
theorem answer_get_of_wanted {set : NativeSet} (hwanted : options.native = true)
    (h : r.native = some set) : r.answer .get args options = .ok (.native set) := by
  simp only [answer, hwanted, h]
  rfl

end Recorder

namespace Average

theorem exists_argument_of_column {args : List Json} {e : Error} (h : column args = .error e) :
    ∃ detail, e = .argument detail := by
  unfold column at h
  split at h
  · cases h
    exact ⟨_, rfl⟩
  · split at h
    · cases h
    · cases h
      exact ⟨_, rfl⟩

theorem exists_argument_of_fallback {v : Option Json} {e : Error} (h : fallback v = .error e) :
    ∃ detail, e = .argument detail := by
  unfold fallback at h
  split at h
  · cases h
  · cases h
  · cases h
  · split at h
    · cases h
    · cases h
      exact ⟨_, rfl⟩

/-- A column that is accepted is an identifier. -/
theorem isIdentifier_of_column {args : List Json} {name : String} (h : column args = .ok name) :
    isIdentifier name = true := by
  unfold column at h
  split at h
  next => cases h
  next =>
    split at h
    next hidentifier =>
      cases h
      exact hidentifier
    next => cases h

variable {args : List Json} {name : String} {default : Number}

/-- An average is asked with two calls, a projection of its column with its fallback, and the
executor that reads it. -/
theorem runOn_run_of_ok (hname : column args = .ok name)
    (hdefault : fallback args[1]? = .ok default) (options : Options) (r : Recorder) :
    (run args options).runOn r =
      (.ok (.value ((r.visible.head?.bind (·.field? projection)).getD .null)),
        { r with
          calls := r.calls ++ [.mk "selectRaw" [.arg (.raw ⟨sql name default, []⟩)],
            .mk "value" [Build.textOperand projection]]
          lastOptions := some options }) := by
  have hprojected : (Build.call "selectRaw" [.raw ⟨sql name default, []⟩]).runOn r =
      (.ok (), r.record (.mk "selectRaw" [.arg (.raw ⟨sql name default, []⟩)])) := rfl
  have htwo : (r.record (.mk "selectRaw" [.arg (.raw ⟨sql name default, []⟩)])).executed .value
      [.value (.str projection)] options = { r with
        calls := r.calls ++ [.mk "selectRaw" [.arg (.raw ⟨sql name default, []⟩)],
          .mk "value" [Build.textOperand projection]]
        lastOptions := some options } := by
    simp [Recorder.executed, Recorder.record, Build.textOperand, Executor.name]
  unfold run
  rw [Build.runOn_lift_bind_of_ok hname, Build.runOn_lift_bind_of_ok hdefault,
    Build.runOn_bind_of_ok hprojected, Build.runOn_execute, htwo]
  rfl

/-- An average is refused before the first call, or its column and its fallback are good. -/
theorem runOn_run (args : List Json) (options : Options) (r : Recorder) :
    (∃ detail, (run args options).runOn r = (.error (.argument detail), r)) ∨
      ∃ name default, column args = .ok name ∧ fallback args[1]? = .ok default := by
  cases hname : column args with
  | error e =>
    obtain ⟨detail, rfl⟩ := exists_argument_of_column hname
    exact .inl ⟨detail, Build.runOn_lift_bind_of_error hname r⟩
  | ok name =>
    cases hdefault : fallback args[1]? with
    | error e =>
      obtain ⟨detail, rfl⟩ := exists_argument_of_fallback hdefault
      refine .inl ⟨detail, ?_⟩
      unfold run
      rw [Build.runOn_lift_bind_of_ok hname, Build.runOn_lift_bind_of_error hdefault]
    | ok default => exact .inr ⟨name, default, rfl, rfl⟩

end Average

end QueryScript
