import QueryScript.Proofs.Recorder.Run

/-!
# Narrowing

A check narrows another if whatever it gives, the other gives as well: it may refuse
more, but never answers otherwise.  A build narrows another if every run of it that
succeeds is a run of the other, with the same answer and the same recorder at the end.

Both relations pass through everything that checks and builds are put together with, so
that a program narrows another as soon as each check in it narrows the one in its place.
Nested builds need no more than that: what a build on a recorder of its own hands on are
its calls, and they are the same.
-/

namespace QueryScript

/-- Whatever the first check gives, the second gives as well. -/
def Checks.Narrows {ε α : Type} (x y : Except ε α) : Prop :=
  ∀ a, x = .ok a → y = .ok a

/-- Every run of the first build that succeeds is a run of the second. -/
def Build.Narrows {α : Type} (b c : Build α) : Prop :=
  ∀ r a r', b.runOn r = (.ok a, r') → c.runOn r = (.ok a, r')

namespace Checks

variable {ε α β : Type}

theorem Narrows.refl (x : Except ε α) : Narrows x x := fun _ h => h

/-- Checks that are narrowed, one after the other, are narrowed together. -/
theorem Narrows.bind {x y : Except ε α} {f g : α → Except ε β} (h : Narrows x y)
    (hf : ∀ a, Narrows (f a) (g a)) : Narrows (x >>= f) (y >>= g) := by
  intro b hb
  obtain ⟨a, ha, hb⟩ := bind_eq_ok.mp hb
  exact bind_eq_ok.mpr ⟨a, h a ha, hf a b hb⟩

theorem Narrows.discard {x y : Except ε α} (h : Narrows x y) :
    Narrows (discard x) (discard y) :=
  h.bind fun _ => .refl (.ok ())

theorem Narrows.map {x y : Except ε α} (h : Narrows x y) (f : α → β) :
    Narrows (x.map f) (y.map f) := by
  intro b hb
  cases x with
  | error e => cases hb
  | ok a =>
    rw [h a rfl]
    exact hb

/-- A traversal is narrowed if each of its steps is. -/
theorem Narrows.mapM {f g : α → Except ε β} {xs : List α} (h : ∀ x ∈ xs, Narrows (f x) (g x)) :
    Narrows (xs.mapM f) (xs.mapM g) := by
  induction xs with
  | nil => exact .refl _
  | cons x xs ih =>
    obtain ⟨hx, hxs⟩ := List.forall_mem_cons.mp h
    rw [List.mapM_cons, List.mapM_cons]
    exact hx.bind fun y => (ih hxs).bind fun ys => .refl _

theorem Narrows.forM {f g : α → Except ε PUnit} {xs : List α}
    (h : ∀ x ∈ xs, Narrows (f x) (g x)) : Narrows (xs.forM f) (xs.forM g) := by
  induction xs with
  | nil => exact .refl _
  | cons x xs ih =>
    obtain ⟨hx, hxs⟩ := List.forall_mem_cons.mp h
    exact hx.bind fun _ => ih hxs

end Checks

namespace Build

variable {α β : Type} {b c : Build α}

theorem Narrows.refl (b : Build α) : b.Narrows b := fun _ _ _ h => h

/-- A check in a build may be replaced by one that narrows it. -/
theorem Narrows.lift {x y : Except Error α} (h : Checks.Narrows x y) :
    (lift x).Narrows (lift y) := by
  intro r a r' hrun
  obtain ⟨hx, rfl⟩ := eq_of_runOn_lift hrun
  rw [runOn_lift, h a hx]

/-- Builds that are narrowed, one after the other, are narrowed together. -/
theorem Narrows.bind {f g : α → Build β} (h : b.Narrows c) (hf : ∀ a, (f a).Narrows (g a)) :
    (b >>= f).Narrows (c >>= g) := by
  intro r x r' hrun
  obtain ⟨a, mid, hb, hx⟩ := runOn_bind_eq_ok.mp hrun
  exact runOn_bind_eq_ok.mpr ⟨a, mid, h r a mid hb, hf a mid x r' hx⟩

theorem Narrows.discard (h : b.Narrows c) : (discard b).Narrows (discard c) := by
  intro r _ r' hrun
  obtain ⟨a, hb⟩ := runOn_discard_eq_ok.mp hrun
  exact runOn_discard_eq_ok.mpr ⟨a, h r a r' hb⟩

/-- The same where there may be no build at all. -/
theorem Narrows.map_discard {b c : Option (Build α)} (h : Option.Rel Narrows b c) :
    Option.Rel Narrows (b.map Functor.discard) (c.map Functor.discard) := by
  cases h with
  | none => exact .none
  | some h => exact .some h.discard

/-- A nested build hands on its calls, and nothing else. -/
theorem Narrows.nested {sub sub' : Build Unit} (h : sub.Narrows sub') :
    (nested sub).Narrows (nested sub') := by
  intro r calls r' hrun
  cases hsub : sub.runOn .fresh with
  | mk outcome inner =>
    cases outcome with
    | error e =>
      rw [runOn_nested_of_error hsub] at hrun
      cases hrun
    | ok _ =>
      rw [runOn_nested_of_ok hsub] at hrun
      cases hrun
      exact runOn_nested_of_ok (h _ _ _ hsub) r

/-- What is done with the calls of a nested build is done with those of the other. -/
theorem Narrows.nested_bind {sub sub' : Build Unit} (h : sub.Narrows sub')
    (k : List Call → Build α) : (Build.nested sub >>= k).Narrows (Build.nested sub' >>= k) :=
  h.nested.bind fun _ => .refl _

end Build

end QueryScript
