import QueryScript.Proofs.Recorder.Run

/-!
# How a build ends

A build ends with a result or stops with a failure.  `Ends P Q` says what is known of both,
whatever recorder the build is run on, and is put together from the parts of the build: a
part that succeeds hands what is known of its result on to the next (`Ends.bind`), and a
nested build fails as the build itself would (`Ends.nested`).

The builder itself refuses nothing but numbers that it cannot read
(`isBuilder_of_naturalArgument`).
-/

namespace QueryScript

/-- Failures of the query builder. -/
def Error.isBuilder : Error → Bool
  | .builder _ => true
  | _ => false

/-- A count that cannot be read is an error of the builder. -/
theorem isBuilder_of_naturalArgument {args : List Argument} {index : Nat} {e : Error}
    (h : naturalArgument args index = .error e) : e.isBuilder = true := by
  unfold naturalArgument at h
  split at h
  · cases h
  · cases h
  · split at h
    · cases h
    · cases h
      rfl
  · split at h
    · cases h
    · cases h
      rfl
  · cases h
    rfl

/-- A limit or an offset that cannot be read is an error of the builder. -/
theorem isBuilder_of_limitChange {method : String} {args : List Argument} {e : Error}
    (h : limitChange method args = .error e) : e.isBuilder = true := by
  have hfirst : ∀ f : Option Nat → Recorder → Recorder,
      (naturalArgument args 0 >>= fun n => .ok (f n)) = .error e → e.isBuilder = true := by
    intro f h
    rcases Checks.bind_eq_error.mp h with h | ⟨_, -, h⟩
    · exact isBuilder_of_naturalArgument h
    · cases h
  unfold limitChange at h
  split at h
  · exact hfirst _ h
  · exact hfirst _ h
  · exact hfirst _ h
  · exact hfirst _ h
  · rcases Checks.bind_eq_error.mp h with h | ⟨_, -, h⟩
    · exact isBuilder_of_naturalArgument h
    · rcases Checks.bind_eq_error.mp h with h | ⟨_, -, h⟩
      · exact isBuilder_of_naturalArgument h
      · cases h
  · cases h

namespace Build

variable {α β : Type} {P : α → Prop} {P' : β → Prop} {Q : Error → Prop} {b : Build α}

/-- A run ends with a result that has `P`, or stops with a failure that has `Q`. -/
structure Ends (P : α → Prop) (Q : Error → Prop) (b : Build α) : Prop where
  ok : ∀ {r a r'}, b.runOn r = (.ok a, r') → P a
  error : ∀ {r e r'}, b.runOn r = (.error e, r') → Q e

theorem ends_pure {a : α} (h : P a) : (pure a : Build α).Ends P Q where
  ok hrun := by
    cases hrun
    exact h
  error hrun := by cases hrun

theorem ends_throw {e : Error} (h : Q e) : (throw e : Build α).Ends P Q where
  ok hrun := by cases hrun
  error hrun := by
    cases hrun
    exact h

/-- A check ends with what is known of its result, or of its failure. -/
theorem ends_lift {x : Except Error α} (hok : ∀ a, x = .ok a → P a)
    (herror : ∀ e, x = .error e → Q e) : (lift x).Ends P Q := by
  cases x with
  | ok a => exact ends_pure (hok a rfl)
  | error e => exact ends_throw (herror e rfl)

/-- What is known when the first of two builds ends well may be used for the second. -/
theorem Ends.bind {f : α → Build β} (hb : b.Ends P Q) (hf : ∀ a, P a → (f a).Ends P' Q) :
    (b >>= f).Ends P' Q where
  ok hrun := by
    obtain ⟨a, mid, hfirst, hsecond⟩ := runOn_bind_eq_ok.mp hrun
    exact (hf a (hb.ok hfirst)).ok hsecond
  error {r e r'} hrun := by
    rcases runOn_bind_eq_error hrun with hfirst | ⟨a, mid, hfirst, hsecond⟩
    · exact hb.error hfirst
    · exact (hf a (hb.ok hfirst)).error hsecond

/-- What is said of the ends of a build may be weakened. -/
theorem Ends.mono {P₂ : α → Prop} {Q₂ : Error → Prop} (h : b.Ends P Q) (hP : ∀ a, P a → P₂ a)
    (hQ : ∀ e, Q e → Q₂ e) : b.Ends P₂ Q₂ where
  ok hrun := hP _ (h.ok hrun)
  error hrun := hQ _ (h.error hrun)

/-- Nesting a build fails only as the build itself does. -/
theorem Ends.nested {sub : Build Unit} {R : Unit → Prop} (h : sub.Ends R Q) :
    (nested sub).Ends (fun _ => True) Q := by
  rw [Build.nested]
  split
  next => exact ends_pure trivial
  next hrun => exact ends_throw (h.error hrun)

theorem ends_record {R : Unit → Prop} (method : String) (operands : List Operand) (h : R ()) :
    (record method operands).Ends R Q where
  ok hrun := by
    cases hrun
    exact h
  error hrun := by cases hrun

theorem ends_modify (move : Recorder → Recorder) :
    (modify move : Build PUnit).Ends (fun _ => True) Q where
  ok _ := trivial
  error hrun := by cases hrun

/-- A build that makes one call and ends well has made it under what is then known. -/
theorem MakesOne.of_ends {b : Build Unit} {R : Unit → Prop} {M : Call → Prop} (h : b.MakesOne M)
    (hends : b.Ends R Q) : b.MakesOne fun c => M c ∧ R () := by
  cases h with
  | refuses e hrun => exact .refuses e hrun
  | makes call move hM hmove hrun => exact .makes call move ⟨hM, hends.ok (hrun .fresh)⟩ hmove hrun

end Build

end QueryScript
