import QueryScript.Proofs.Assembly.Entering
import QueryScript.Proofs.Assembly.Taking
import QueryScript.Proofs.Engine.Build
import QueryScript.Proofs.Guard.Visited

/-!
# Nothing is assembled that was not checked

Two walks go through a definition.  The check enters every list of items that is written
in it (`Json.Writes`), at whatever depth and whether or not a condition gates it.  The
build enters what its actions ask for, and that depends on the parameters: they decide
which conditions hold.  But where an action looks for a nested query they do not decide,
for it looks in the step as it is written.  So the lists that are entered by a build are
among those that the check has visited, under the same names (`build_entersChecked`).
-/

namespace QueryScript.Engine

/-- Builds the definition that a value writes, with a hook on every definition that is entered
after the check. -/
def buildVia (engine : Engine) (enter : EntryHook) (value : Json) (params : Params) :
    Build Unit := do
  let definition ← Build.lift (Definition.ofJson value)
  Build.lift (engine.guard.checkDefinition definition)
  let _ ← (engine.scope params definition).assembleVia enter definition

variable {engine : Engine} {value : Json} {params : Params} {definition d : Definition}

/-- What is assembled is written in the value of the definition. -/
theorem exists_writes_of_assembles (hread : Definition.ofJson value = .ok definition)
    (h : (engine.scope params definition).Assembles definition d) :
    ∃ xs, value.Writes xs ∧ d = Item.ofItems xs :=
  (Definition.part_iff_writes hread).mp h.part

/-- If a definition is accepted, every list of items that is written in it passes under the names
of the whole. -/
theorem checkItems_of_validate (hread : Definition.ofJson value = .ok definition)
    (h : engine.validate value = .ok ()) {xs : List Json} (hwrites : value.Writes xs) :
    engine.guard.checkItems (CteNames.collect definition) (Item.ofItems xs) = .ok () := by
  obtain ⟨definition', hread', hcheck⟩ := Checks.bind_eq_ok.mp h
  obtain rfl := Except.ok.inj (hread.symm.trans hread')
  refine Guard.checkItems_of_part (Guard.checkDefinition_eq_ok_iff.mp hcheck) ?_
  exact (Definition.part_iff_writes hread).mpr ⟨xs, hwrites, rfl⟩

/-- A hook that lets every list pass that is written is not noticed. -/
theorem buildVia_eq {enter : EntryHook}
    (h : ∀ xs, value.Writes xs → enter (Item.ofItems xs) = id) :
    engine.buildVia enter value params = engine.build value params := by
  rw [buildVia, build]
  cases hread : Definition.ofJson value with
  | error e => rfl
  | ok definition =>
    have hassemble : (engine.scope params definition).assembleVia enter definition =
        (engine.scope params definition).assemble definition := by
      refine Scope.assembleVia_eq fun d hd => ?_
      obtain ⟨xs, hwrites, rfl⟩ := exists_writes_of_assembles hread hd
      exact h xs hwrites
    have hpure : Build.lift (.ok definition) = pure definition := rfl
    rw [hpure, pure_bind, pure_bind, buildDefinition, bind_assoc, hassemble]
    rfl

/-- **Nothing is assembled that was not checked.**  Whatever the parameters are, a definition
that is assembled at any depth is read from a list of items that is written in the value; if
the value is accepted, every such list has itself passed the check, under the names of the
whole.  And no other is ever entered: a hook on the entries that spares the lists that are
written cannot change the run.  Followed through the value itself, with distinct keys in every
object, the lists that are assembled are exactly those that the steps take up. -/
theorem build_entersChecked (engine : Engine) (value : Json) (params : Params) :
    (∀ definition d, Definition.ofJson value = .ok definition →
      (engine.scope params definition).Assembles definition d →
        ∃ xs, value.Writes xs ∧ d = Item.ofItems xs) ∧
    (∀ definition, Definition.ofJson value = .ok definition → engine.validate value = .ok () →
      ∀ xs, value.Writes xs →
        engine.guard.checkItems (CteNames.collect definition) (Item.ofItems xs) = .ok ()) ∧
    (∀ enter, (∀ xs, value.Writes xs → enter (Item.ofItems xs) = id) →
      engine.buildVia enter value params = engine.build value params) ∧
    (value.KeysDistinct → ∀ definition d, Definition.ofJson value = .ok definition →
      ((engine.scope params definition).Assembles definition d ↔
        ∃ xs, (engine.scope params definition).Takes value xs ∧ d = Item.ofItems xs)) :=
  ⟨fun _ _ hread h => exists_writes_of_assembles hread h,
    fun _ hread h _ hwrites => checkItems_of_validate hread h hwrites,
    fun _ h => buildVia_eq h,
    fun hkeys _ _ hread => Scope.assembles_iff_takes hkeys hread⟩

end QueryScript.Engine
