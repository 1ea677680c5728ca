import Mathlib.Data.List.Forall2
import QueryScript.Proofs.Recorder.Run

/-!
# Builds that do not look at their recorder

A recorder comes to a build with calls, rows, options and a window of its own.  `Gives` says that
none of it matters: on whatever recorder the build is run, it ends in the same way and adds the
same calls, and of the rest of the recorder it changes the window at most.  The calls that it adds
are then those that it makes on a fresh recorder (`Gives.runOn_eq`).

A build that makes one call or refuses is of that kind (`MakesOne.gives`).  So is any number of
them, one after the other: they make a call each, or stop at the first that refuses, and then the
calls of those before it stay (`forM_cases`).
-/

namespace QueryScript.Build

variable {α β : Type}

/-- Whatever recorder it is run on, a build ends in this way and adds these calls. -/
def Gives (b : Build α) (outcome : Except Error α) (added : List Call) : Prop :=
  ∀ r, ∃ limit offset,
    b.runOn r = (outcome, { r with calls := r.calls ++ added, limit, offset })

/-- Whatever recorder it is run on, a build fails and leaves no trace. -/
def Refuses (b : Build α) (e : Error) : Prop :=
  ∀ r, b.runOn r = (.error e, r)

variable {b : Build α} {f : α → Build β} {outcome : Except Error α} {added later : List Call}

theorem gives_of_unchanged (h : ∀ r, b.runOn r = (outcome, r)) : b.Gives outcome [] := by
  intro r
  refine ⟨r.limit, r.offset, ?_⟩
  rw [h r, List.append_nil]

theorem gives_pure (a : α) : (pure a : Build α).Gives (.ok a) [] :=
  gives_of_unchanged fun _ => rfl

/-- A build that refuses gives its error and makes no calls. -/
theorem Refuses.gives {e : Error} (h : b.Refuses e) : b.Gives (.error e) [] :=
  gives_of_unchanged h

/-- What follows a refusal is not done. -/
theorem Refuses.bind {e : Error} (h : b.Refuses e) : (b >>= f).Refuses e := fun r =>
  runOn_bind_of_error (h r)

/-- What a build gives, and then what follows gives, with the calls of both. -/
theorem Gives.bind {a : α} {outcome : Except Error β} (hb : b.Gives (.ok a) added)
    (hf : (f a).Gives outcome later) : (b >>= f).Gives outcome (added ++ later) := by
  intro r
  obtain ⟨limit, offset, hfirst⟩ := hb r
  obtain ⟨limit', offset', hsecond⟩ := hf { r with calls := r.calls ++ added, limit, offset }
  refine ⟨limit', offset', ?_⟩
  rw [runOn_bind_of_ok hfirst, hsecond, List.append_assoc]

/-- What a build gives is its outcome on every recorder. -/
theorem Gives.outcome_eq (h : b.Gives outcome added) (r : Recorder) :
    (b.runOn r).1 = outcome := by
  obtain ⟨limit, offset, hrun⟩ := h r
  rw [hrun]

/-- What a build adds is what it makes on a fresh recorder. -/
theorem Gives.calls_eq (h : b.Gives outcome added) : (b.runOn .fresh).2.calls = added := by
  obtain ⟨limit, offset, hrun⟩ := h .fresh
  rw [hrun]
  rfl

/-- What a build gives is what it gives on a fresh recorder. -/
theorem Gives.runOn_eq (h : b.Gives outcome added) (r : Recorder) :
    (b.runOn r).1 = (b.runOn .fresh).1 ∧
      (b.runOn r).2.calls = r.calls ++ (b.runOn .fresh).2.calls ∧
      (b.runOn r).2.rows = r.rows ∧ (b.runOn r).2.native = r.native ∧
      (b.runOn r).2.lastOptions = r.lastOptions := by
  rw [h.outcome_eq, h.outcome_eq, h.calls_eq]
  obtain ⟨limit, offset, hrun⟩ := h r
  rw [hrun]
  exact ⟨rfl, rfl, rfl, rfl, rfl⟩

/-- A build that makes one call gives it, or it refuses. -/
theorem MakesOne.gives {P : Call → Prop} {b : Build Unit} (h : b.MakesOne P) :
    (∃ call, P call ∧ b.Gives (.ok ()) [call]) ∨ ∃ e, b.Refuses e := by
  cases h with
  | refuses e hrun => exact .inr ⟨e, hrun⟩
  | makes call move hP hmove hrun =>
    refine .inl ⟨call, hP, fun r => ?_⟩
    obtain ⟨limit, offset, hmoved⟩ := hmove r
    refine ⟨limit, offset, ?_⟩
    rw [hrun r, hmoved]
    rfl

/-- **Builds that make one call each, one after the other.**  Either all of them make their calls,
or one refuses, and then the calls of those before it have been made and nothing else. -/
theorem forM_cases {ι : Type} {P : ι → Call → Prop} {f : ι → Build Unit} {xs : List ι}
    (h : ∀ x ∈ xs, (f x).MakesOne (P x)) :
    (∃ calls, (xs.forM f).Gives (.ok ()) calls ∧ List.Forall₂ P xs calls) ∨
      ∃ before x after calls e, xs = before ++ x :: after ∧ (f x).Refuses e ∧
        (xs.forM f).Gives (.error e) calls ∧ List.Forall₂ P before calls := by
  induction xs with
  | nil => exact .inl ⟨[], gives_pure (), .nil⟩
  | cons x xs ih =>
    obtain ⟨hx, hxs⟩ := List.forall_mem_cons.mp h
    rcases hx.gives with ⟨call, hcall, hgives⟩ | ⟨e, hrefuses⟩
    · rcases ih hxs with ⟨calls, hrest, hmade⟩ | ⟨before, y, after, calls, e, rfl, hy, hrest, hmade⟩
      · exact .inl ⟨call :: calls, hgives.bind hrest, .cons hcall hmade⟩
      · exact .inr ⟨x :: before, y, after, call :: calls, e, rfl, hy, hgives.bind hrest,
          .cons hcall hmade⟩
    · exact .inr ⟨[], x, xs, [], e, rfl, hrefuses, hrefuses.bind.gives, .nil⟩

/-! ## Answers that are not asked for -/

/-- Dropping the result of two builds in a row is dropping that of the second. -/
theorem discard_bind (b : Build α) (f : α → Build β) :
    discard (b >>= f) = b >>= fun a => discard (f a) := by
  show (b >>= f) >>= (fun _ => pure ()) = _
  rw [bind_assoc]
  rfl

/-- Whether a cap was set is not asked for, so two builds that say so are run one after the
other. -/
theorem discard_or (b b' : Build Bool) :
    discard (do let x ← b; let y ← b'; return x || y : Build Bool) =
      discard b >>= fun _ => discard b' := by
  rw [discard_bind]
  show b >>= (fun _ => discard (b' >>= _)) = (b >>= fun _ => pure ()) >>= fun _ => discard b'
  rw [bind_assoc]
  refine bind_congr fun _ => ?_
  rw [discard_bind, pure_bind]
  rfl

/-- A build refuses if it does so with its result dropped. -/
theorem Refuses.of_discard {e : Error} (h : (discard b).Refuses e) : b.Refuses e := by
  intro r
  have hrun : (b >>= fun _ => (pure () : Build Unit)).runOn r = (.error e, r) := h r
  rcases runOn_bind_eq_error hrun with hb | ⟨_, _, _, hpure⟩
  · exact hb
  · cases hpure

end QueryScript.Build
