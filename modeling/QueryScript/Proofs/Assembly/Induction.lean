import QueryScript.Proofs.Assembly.Runs

/-!
# Induction on what a build takes up

Whatever is taken up when a definition is assembled is nested in it (`Assembles.part`).  A
property of builds that one build passes on to the next holds of assembling a definition
if it holds of performing every action that is taken up, where the nested query of the
action may be assumed to have it (`assemble_induction`).  A property that speaks of the
answer has to be passed on only where the answers of two builds are put together
(`assemble_induction_or`).
-/

namespace QueryScript

namespace Scope

variable {scope : Scope} {items d d' : Definition} {item : Item} {a : Application}

/-- A definition that is assembled is nested in the one that it is assembled for. -/
theorem Assembles.part (h : scope.Assembles items d) : Definition.Part d items := by
  induction h with
  | self items => exact .self
  | opened hitem hopened _ ih =>
    obtain ⟨slot, hslot⟩ := mem_nested_of_opened? hopened
    exact .nested hitem hslot ih

/-- An item of a definition that is assembled is one of the tree. -/
theorem Assembles.hasItem (h : scope.Assembles items d) (hitem : item ∈ d) :
    items.HasItem item :=
  Definition.hasItem_iff.mpr ⟨d, h.part, hitem⟩

/-- What an item of an assembled definition opens is assembled too. -/
theorem Assembles.snoc (h : scope.Assembles items d) (hitem : item ∈ d)
    (hopened : scope.opened? item = some d') : scope.Assembles items d' := by
  induction h with
  | self items => exact .opened hitem hopened (.self _)
  | opened houter hopens _ ih => exact .opened houter hopens (ih hitem)

/-- What is assembled for a definition that is assembled is assembled too. -/
theorem Assembles.trans (h : scope.Assembles items d) (h' : scope.Assembles d d') :
    scope.Assembles items d' := by
  induction h with
  | self items => exact h'
  | opened hitem hopened _ ih => exact .opened hitem hopened (ih h')

/-! ## Properties that builds pass on -/

variable {Q : Build Bool → Prop} {steps : List Step}

section

variable (hinert : Q (pure false))
  (hor : ∀ b b' : Build Bool, Q b → Q b' → Q (do let x ← b; let y ← b'; return x || y))
include hinert hor

theorem runInOrder_of (h : ∀ s ∈ steps, Q s.run) : Q (Step.runInOrder steps) := by
  induction steps with
  | nil => exact hinert
  | cons s rest ih =>
    exact hor _ _ (h s (List.mem_cons_self ..)) (ih fun s' hs' => h s' (List.mem_cons_of_mem _ hs'))

theorem runAll_of (h : ∀ s ∈ steps, Q s.run) : Q (Step.runAll steps) := by
  have hgroup : ∀ p : Step → Bool, Q (Step.runInOrder (steps.filter p)) := fun p =>
    runInOrder_of hinert hor fun s hs => h s (List.mem_filter.mp hs).1
  exact hor _ _ (hgroup _) (hgroup _)

/-- **Induction on what is taken up**, for properties of the answer as well: the answers of the
steps are put together as they are by a run.  Only actions whose condition holds have to be looked
at: an action whose condition does not hold is replaced by a definition. -/
theorem assemble_induction_or
    (hperform : ∀ d item a, scope.Assembles items d → item ∈ d →
      scope.application? item = some a → scope.admits a = true →
      (∀ d', scope.opened? item = some d' → Q (scope.assemble d')) → Q (scope.perform a)) :
    Q (scope.assemble items) := by
  -- the induction is on the definition that is assembled, the hypotheses speak of the root
  suffices hall : ∀ d, scope.Assembles items d → Q (scope.assemble d) from hall items (.self _)
  intro d
  induction d using scope.opened_induction with
  | h d ih =>
    intro hassembles
    refine runAll_of hinert hor fun s hs => ?_
    rw [assembleItems_eq_map] at hs
    obtain ⟨item, hitem, rfl⟩ := List.mem_map.mp hs
    have hopens : ∀ d', scope.opened? item = some d' → Q (scope.assemble d') :=
      fun d' hd' => ih item hitem d' hd' (hassembles.snoc hitem hd')
    rw [assembleItem_eq]
    split
    next a happ =>
      cases hadmits : scope.admits a with
      | true => exact hperform d item a hassembles hitem happ hadmits hopens
      | false =>
        dsimp only
        rw [perform, hadmits, otherwise_eq happ hadmits]
        cases hopened : scope.opened? item with
        | none => exact hinert
        | some d' => exact hopens d' hopened
    next => exact hinert

end

/-- Induction on what is taken up, for properties that any sequence of builds passes on. -/
theorem assemble_induction (hpure : ∀ b, Q (pure b))
    (hbind : ∀ (b : Build Bool) (f : Bool → Build Bool), Q b → (∀ x, Q (f x)) → Q (b >>= f))
    (hperform : ∀ d item a, scope.Assembles items d → item ∈ d →
      scope.application? item = some a → scope.admits a = true →
      (∀ d', scope.opened? item = some d' → Q (scope.assemble d')) → Q (scope.perform a)) :
    Q (scope.assemble items) := by
  refine assemble_induction_or (hpure false) (fun b b' hb hb' => ?_) hperform
  exact hbind b _ hb fun x => hbind b' _ hb' fun y => hpure (x || y)

end Scope

end QueryScript
