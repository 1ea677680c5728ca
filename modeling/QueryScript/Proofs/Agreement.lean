import QueryScript.Proofs.Recorder.Executors

/-!
# Agreement

Two checks agree if they fail alike, or both succeed with results that are related.  Two builds
agree but for options if on every recorder they give the same, failures included, and leave the
same behind, save for the options that the recorder keeps of its last executor.

The recorder never reads the options that it keeps, and an executor is the last thing that is
asked.  So it is enough that two builds are the same up to the executor, and do no more than look
at its answer afterwards (`AgreeButOptions.after`, `AgreeButOptions.bind_lift`,
`AgreeButOptions.lift`).
-/

namespace QueryScript

/-- Two checks fail alike, or both succeed with results that are related. -/
inductive Checks.Agree {ε α β : Type} (R : α → β → Prop) : Except ε α → Except ε β → Prop where
  | ok {a : α} {b : β} (h : R a b) : Agree R (.ok a) (.ok b)
  | error (e : ε) : Agree R (.error e) (.error e)

/-- The recorder without the options of the last executor. -/
def Recorder.withoutOptions (r : Recorder) : Recorder :=
  { r with lastOptions := none }

/-- Two builds give the same on every recorder, and leave it the same but for options. -/
def Build.AgreeButOptions {α : Type} (b b' : Build α) : Prop :=
  ∀ r, (b.runOn r).1 = (b'.runOn r).1 ∧
    (b.runOn r).2.withoutOptions = (b'.runOn r).2.withoutOptions

/-! ## Checks -/

namespace Checks

variable {ε α β α' β' : Type} {R : α → β → Prop} {S : α' → β' → Prop}

/-- A check agrees with itself if what it gives is related to itself. -/
theorem Agree.refl {R : α → α → Prop} (hR : ∀ a, R a a) (x : Except ε α) : Agree R x x := by
  cases x with
  | ok a => exact .ok (hR a)
  | error e => exact .error e

/-- Checks that agree go on agreeing if what follows does, on results that are related. -/
theorem Agree.bind {x : Except ε α} {y : Except ε β} {f : α → Except ε α'} {g : β → Except ε β'}
    (h : Agree R x y) (hfg : ∀ a b, R a b → Agree S (f a) (g b)) :
    Agree S (x >>= f) (y >>= g) := by
  cases h with
  | ok h => exact hfg _ _ h
  | error e => exact .error e

end Checks

/-! ## Builds -/

namespace Build

variable {α β : Type} {b b' : Build α} {f : α → Build β}

/-- Builds that begin alike agree if what follows does. -/
theorem AgreeButOptions.after {g : α → Build β} (b : Build α)
    (h : ∀ a, (f a).AgreeButOptions (g a)) : (b >>= f).AgreeButOptions (b >>= g) := by
  intro r
  rw [runOn_bind, runOn_bind]
  cases b.runOn r with
  | mk outcome mid =>
    cases outcome with
    | ok a => exact h a mid
    | error e => exact ⟨rfl, rfl⟩

/-- Builds that begin with checks that agree do so if what follows does. -/
theorem AgreeButOptions.bind_lift {α' : Type} {R : α → α' → Prop} {x : Except Error α}
    {y : Except Error α'} {g : α' → Build β} (h : Checks.Agree R x y)
    (hfg : ∀ a b, R a b → (f a).AgreeButOptions (g b)) :
    (Build.lift x >>= f).AgreeButOptions (Build.lift y >>= g) := by
  intro r
  cases h with
  | ok h =>
    rw [runOn_lift_bind_of_ok rfl, runOn_lift_bind_of_ok rfl]
    exact hfg _ _ h r
  | error e =>
    rw [runOn_lift_bind_of_error rfl, runOn_lift_bind_of_error rfl]
    exact ⟨rfl, rfl⟩

/-- Builds that agree still do if the answer is checked. -/
theorem AgreeButOptions.lift (h : b.AgreeButOptions b') (f : α → Except Error β) :
    (b >>= fun a => Build.lift (f a)).AgreeButOptions (b' >>= fun a => Build.lift (f a)) := by
  intro r
  obtain ⟨houtcome, hleft⟩ := h r
  rw [runOn_bind, runOn_bind]
  revert houtcome hleft
  generalize b.runOn r = ran
  generalize b'.runOn r = ran'
  obtain ⟨outcome, s⟩ := ran
  obtain ⟨outcome', s'⟩ := ran'
  rintro (rfl : outcome = outcome') hleft
  cases outcome with
  | ok a =>
    dsimp only
    rw [runOn_lift, runOn_lift]
    exact ⟨rfl, hleft⟩
  | error e => exact ⟨rfl, hleft⟩

end Build

/-! ## Executors -/

variable {options options' : Options}

/-- All that an answer depends on among the options is whether the driver's own result is asked
for. -/
theorem Recorder.answer_congr (h : options.native = options'.native)
    (r : Recorder) (executor : Executor) (args : List Argument) :
    r.answer executor args options = r.answer executor args options' := by
  cases executor <;> simp only [answer, h]

/-- Options matter to an executor only for whether the answer may be native. -/
theorem Build.execute_agrees (h : options.native = options'.native) (executor : Executor)
    (args : List Argument) :
    (execute executor args options).AgreeButOptions (execute executor args options') := by
  intro r
  rw [runOn_execute, runOn_execute, Recorder.answer_congr h]
  exact ⟨rfl, rfl⟩

/-- Likewise for the average. -/
theorem Average.run_agrees (h : options.native = options'.native) (args : List Json) :
    (run args options).AgreeButOptions (run args options') := by
  refine .after _ fun column => .after _ fun default => .after _ fun _ => ?_
  exact Build.execute_agrees h .value _

end QueryScript
