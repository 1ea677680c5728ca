import QueryScript.Proofs.Recorder.Executors
import QueryScript.Proofs.Recorder.Invocation

/-!
# Answers that agree

The executors that look at the visible rows look at the same list of rows: the one that `get` answers
with, if it is not the driver's own result that is asked for (`Recorder.AnswersFrom`).

Which rows are visible depends on the rows, the cap and the offset alone (`Recorder.view`).  A method
of the query makes of them what it makes of them, whatever else the recorder holds
(`Invocation.view_congr`), and an executor leaves them as they are, whether it can be answered or not
(`Activity.view_ask`).  So executors that are asked between the methods of a query or after them make
no difference to what is answered (`Recorder.executors_agree`).
-/

namespace QueryScript

/-- An executor with what it is given. -/
structure Question where
  executor : Executor
  args : List Argument
  options : Options

/-- What a builder is used for: to call a method of the query, or to ask an executor. -/
inductive Activity where
  | call (i : Invocation)
  | ask (q : Question)

namespace Activity

/-- The method that is called, if one is. -/
def invocation? : Activity → Option Invocation
  | .call i => some i
  | .ask _ => none

/-- A recorder after an activity, whether that fails or not. -/
def run : Activity → Recorder → Recorder
  | .call i, r => (i.build.runOn r).2
  | .ask q, r => ((Build.execute q.executor q.args q.options).runOn r).2

/-- A recorder after activities that follow each other, whichever of them fail. -/
def runAll : List Activity → Recorder → Recorder
  | [], r => r
  | a :: rest, r => runAll rest (a.run r)

end Activity

namespace Recorder

/-- What decides which rows are visible. -/
def view (r : Recorder) : List Json × Option Nat × Nat :=
  (r.rows, r.limit, r.offset)

theorem visible_congr {r s : Recorder} (h : r.view = s.view) : r.visible = s.visible := by
  obtain ⟨hrows, hwindow⟩ := Prod.mk.inj h
  obtain ⟨hlimit, hoffset⟩ := Prod.mk.inj hwindow
  rw [visible, visible, hrows, hlimit, hoffset]

/-! ## What the rows answer -/

/-- What comes of asking an executor. -/
def ask (r : Recorder) (executor : Executor) (args : List Argument) (options : Options) :
    Except Error Answer :=
  ((Build.execute executor args options).runOn r).1

/-- The executors that look at the visible rows answer from these: `get` with the rows, the others
with their number, with whether there are any, with the first of them, and with the cells of a
column in the first or in all. -/
structure AnswersFrom (r : Recorder) (rows : List Json) : Prop where
  get : ∀ args options, options.native = false →
    r.ask .get args options = .ok (.value (.arr rows))
  count : ∀ args options, r.ask .count args options = .ok (.value (.nat rows.length))
  any : ∀ args options, r.ask .exists args options = .ok (.value (.bool (decide (rows ≠ []))))
  first : ∀ args options, r.ask .first args options = .ok (.value (rows.head?.getD .null))
  value : ∀ column args options, r.ask .value (.value (.str column) :: args) options =
    .ok (.value ((rows.head?.bind (·.field? column)).getD .null))
  values : ∀ column args options, args.head?.bind Argument.string? = none →
    r.ask .values (.value (.str column) :: args) options =
      .ok (.value (.arr (rows.filterMap (·.field? column))))

theorem ask_eq (r : Recorder) (executor : Executor) (args : List Argument) (options : Options) :
    r.ask executor args options = r.answer executor args options := by
  rw [ask, Build.runOn_execute]

theorem answersFrom_visible (r : Recorder) : r.AnswersFrom r.visible where
  get args options h := by rw [ask_eq, answer_get_of_unwanted h]
  count args options := by
    rw [ask_eq]
    rfl
  any args options := by
    rw [ask_eq]
    show Except.ok (Answer.value (.bool (!r.visible.isEmpty))) = _
    cases r.visible with
    | nil => rfl
    | cons row rows => rfl
  first args options := by
    rw [ask_eq]
    rfl
  value column args options := by
    rw [ask_eq]
    rfl
  values column args options h := by
    have hkey : ((Argument.value (.str column) :: args)[1]?.bind Argument.string?) = none := by
      rw [List.getElem?_cons_succ, ← List.head?_eq_getElem?, h]
    rw [ask_eq]
    show Except.ok (Answer.value (r.values column _)) = _
    rw [hkey]
    rfl

end Recorder

/-! ## What an activity does to the view -/

namespace Build

/-- Where the visible rows are the same, a change of the window makes the same of them. -/
theorem view_limitChange {method : String} {args : List Argument} {move : Recorder → Recorder}
    (h : limitChange method args = .ok move) {r s : Recorder} (hview : r.view = s.view) :
    (move r).view = (move s).view := by
  obtain ⟨hrows, hwindow⟩ := Prod.mk.inj hview
  obtain ⟨hlimit, hoffset⟩ := Prod.mk.inj hwindow
  unfold limitChange at h
  split at h
  case h_1 | h_2 =>
    obtain ⟨n, -, hmove⟩ := Checks.bind_eq_ok.mp h
    rw [← Except.ok.inj hmove]
    simp only [Recorder.view, hrows, hoffset]
  case h_3 | h_4 =>
    obtain ⟨n, -, hmove⟩ := Checks.bind_eq_ok.mp h
    rw [← Except.ok.inj hmove]
    simp only [Recorder.view, hrows, hlimit]
  case h_5 =>
    obtain ⟨page, -, h⟩ := Checks.bind_eq_ok.mp h
    obtain ⟨size, -, hmove⟩ := Checks.bind_eq_ok.mp h
    rw [← Except.ok.inj hmove]
    simp only [Recorder.view, hrows]
  case h_6 =>
    rw [← Except.ok.inj h]
    exact hview

end Build

/-- A method makes the same of the same visible rows, whatever else the recorders hold. -/
theorem Invocation.view_congr (i : Invocation) {r s : Recorder} (h : r.view = s.view) :
    (i.build.runOn r).2.view = (i.build.runOn s).2.view := by
  -- only a change of the window looks at the recorder, all other methods keep its view
  by_cases hwindow : ∃ method args, i = .limit method args
  · obtain ⟨method, args, rfl⟩ := hwindow
    show ((Build.limit method args).runOn r).2.view = ((Build.limit method args).runOn s).2.view
    rw [Build.limit]
    cases hchange : limitChange method args with
    | error e =>
      rw [Build.runOn_lift_bind_of_error rfl, Build.runOn_lift_bind_of_error rfl]
      exact h
    | ok move =>
      rw [Build.runOn_lift_bind_of_ok rfl, Build.runOn_lift_bind_of_ok rfl]
      exact Build.view_limitChange hchange h
  · have hkeeps : i.build.Keeps Recorder.view :=
      build_keeps (fun _ _ => rfl) fun method args _ hi => absurd ⟨method, args, hi⟩ hwindow
    rw [hkeeps r, hkeeps s, h]

namespace Activity

/-- An executor leaves the view as it is, whether it can be answered or not. -/
theorem view_ask (q : Question) (r : Recorder) : ((ask q).run r).view = r.view := by
  rw [run, Build.runOn_execute]
  rfl

/-- After any activities, the visible rows are what the methods called in them make of them. -/
theorem view_runAll (activities : List Activity) {r s : Recorder} (h : r.view = s.view) :
    (runAll activities r).view =
      (Invocation.runAll (activities.filterMap invocation?) s).view := by
  induction activities generalizing r s with
  | nil => exact h
  | cons a rest ih =>
    cases a with
    | call i => exact ih (i.view_congr h)
    | ask q => exact ih ((view_ask q r).trans h)

end Activity

namespace Recorder

/-- **Executors agree, and asking changes nothing.**  In whatever state activities leave a recorder,
the executors that look at the visible rows answer from one list of rows.  They answer from the same
list after any other activities in which the same methods are called: whatever executors are asked
between them or at the end, and whether these fail or not. -/
theorem executors_agree (activities : List Activity) (r : Recorder) :
    ∃ rows, (Activity.runAll activities r).AnswersFrom rows ∧
      ∀ others : List Activity,
        others.filterMap Activity.invocation? = activities.filterMap Activity.invocation? →
        (Activity.runAll others r).AnswersFrom rows := by
  refine ⟨_, answersFrom_visible _, fun others hsame => ?_⟩
  have hview : (Activity.runAll others r).view = (Activity.runAll activities r).view := by
    rw [Activity.view_runAll others (s := r) rfl, Activity.view_runAll activities (s := r) rfl,
      hsame]
  rw [← visible_congr hview]
  exact answersFrom_visible _

end Recorder

end QueryScript
