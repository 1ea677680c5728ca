import QueryScript.Engine
import QueryScript.Proofs.Checks
import QueryScript.Proofs.Recorder.Run

/-!
# What a build runs

A build reads its definition, checks the whole of it, and only then assembles it.  So what
it adds is what the assembly adds (`build_adds`), and it succeeds exactly when all three
steps do (`runOn_build_eq_ok`).
-/

namespace QueryScript.Engine

/-- What the actions of a definition share. -/
def scope (engine : Engine) (params : Params) (definition : Definition) : Scope :=
  ⟨engine.guard, params, CteNames.collect definition⟩

variable {engine : Engine} {value : Json} {params : Params} {definition : Definition}

/-- A build is the pre-flight check and then the assembly. -/
theorem buildDefinition_eq (engine : Engine) (definition : Definition) (params : Params) :
    engine.buildDefinition definition params =
      Build.lift (engine.guard.checkDefinition definition) >>= fun _ =>
        (engine.scope params definition).assemble definition :=
  rfl

/-- Definitions that declare the same names, are judged alike and are assembled alike are built
alike. -/
theorem buildDefinition_congr {definition' : Definition}
    (hnames : CteNames.collect definition = CteNames.collect definition')
    (hcheck : engine.guard.checkDefinition definition = engine.guard.checkDefinition definition')
    (hassemble : (engine.scope params definition).assemble definition =
      (engine.scope params definition).assemble definition') :
    engine.buildDefinition definition params = engine.buildDefinition definition' params := by
  have hscope : engine.scope params definition' = engine.scope params definition := by
    rw [scope, scope, hnames]
  rw [buildDefinition_eq, buildDefinition_eq, hcheck, hassemble, hscope]

/-- The build of a value is that of the definition it is read as. -/
theorem build_of_read (h : Definition.ofJson value = .ok definition) :
    engine.build value params = engine.buildDefinition definition params >>= fun _ => pure () := by
  rw [build, h]
  rfl

/-- A value that is no definition fails before anything is done. -/
theorem build_of_unread {e : Error} (h : Definition.ofJson value = .error e) :
    engine.build value params = throw e := by
  rw [build, h]
  rfl

/-- A build adds the calls that assembling its definition adds, or fails before the first. -/
theorem build_adds {P : Call → Prop}
    (h : ∀ definition, Definition.ofJson value = .ok definition →
      ((engine.scope params definition).assemble definition).Adds P) :
    (engine.build value params).Adds P := by
  rw [build]
  cases hdefinition : Definition.ofJson value with
  | error e => exact Build.adds_of_unchanged fun _ => rfl
  | ok definition =>
    have hcheck : (engine.buildDefinition definition params).Adds P :=
      (Build.adds_lift _).bind fun _ => h definition hdefinition
    exact hcheck.bind fun _ => Build.adds_pure ()

/-- A build succeeds exactly when its definition can be read, passes the check as a whole, and
is assembled. -/
theorem runOn_build_eq_ok {r r' : Recorder} :
    (engine.build value params).runOn r = (.ok (), r') ↔
      ∃ definition capped, Definition.ofJson value = .ok definition ∧
        engine.guard.checkDefinition definition = .ok () ∧
        ((engine.scope params definition).assemble definition).runOn r = (.ok capped, r') := by
  constructor
  · intro h
    obtain ⟨definition, mid, hread, hbuild⟩ := Build.runOn_bind_eq_ok.mp h
    obtain ⟨hdefinition, rfl⟩ := Build.eq_of_runOn_lift hread
    obtain ⟨capped, mid', hchecked, hpure⟩ := Build.runOn_bind_eq_ok.mp hbuild
    cases hpure
    obtain ⟨_, mid', hlift, hrun⟩ := Build.runOn_bind_eq_ok.mp hchecked
    obtain ⟨hcheck, rfl⟩ := Build.eq_of_runOn_lift hlift
    exact ⟨definition, capped, hdefinition, hcheck, hrun⟩
  · intro h
    obtain ⟨definition, capped, hdefinition, hcheck, hrun⟩ := h
    refine Build.runOn_bind_eq_ok.mpr ⟨definition, r, ?_, ?_⟩
    · rw [Build.runOn_lift, hdefinition]
    · refine Build.runOn_bind_eq_ok.mpr ⟨capped, r', ?_, rfl⟩
      refine Build.runOn_bind_eq_ok.mpr ⟨(), r, ?_, hrun⟩
      rw [Build.runOn_lift, hcheck]

/-- A build that fails was refused before the first call, or its definition passed the check and
could not be assembled. -/
theorem runOn_build_eq_error {r r' : Recorder} {e : Error}
    (h : (engine.build value params).runOn r = (.error e, r')) :
    (engine.validate value = .error e ∧ r' = r) ∨
      ∃ definition, Definition.ofJson value = .ok definition ∧
        engine.guard.checkDefinition definition = .ok () ∧
        ((engine.scope params definition).assemble definition).runOn r = (.error e, r') := by
  rcases Build.runOn_bind_eq_error h with hread | ⟨definition, mid, hread, hbuild⟩
  · obtain ⟨hfails, rfl⟩ := Build.eq_of_runOn_lift hread
    exact .inl ⟨Checks.bind_eq_error.mpr (.inl hfails), rfl⟩
  · obtain ⟨hdefinition, rfl⟩ := Build.eq_of_runOn_lift hread
    rcases Build.runOn_bind_eq_error hbuild with hbuild | ⟨capped, mid', -, hpure⟩
    · rcases Build.runOn_bind_eq_error hbuild with hcheck | ⟨_, mid', hcheck, hrun⟩
      · obtain ⟨hfails, rfl⟩ := Build.eq_of_runOn_lift hcheck
        exact .inl ⟨Checks.bind_eq_error.mpr (.inr ⟨definition, hdefinition, hfails⟩), rfl⟩
      · obtain ⟨hpasses, rfl⟩ := Build.eq_of_runOn_lift hcheck
        exact .inr ⟨definition, hdefinition, hpasses, hrun⟩
    · cases hpure

end QueryScript.Engine
