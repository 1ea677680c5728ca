import QueryScript.Guard.Preflight
import QueryScript.Proofs.Checks
import QueryScript.Proofs.Definition.Tree

/-!
# What the check of a definition visits

The check walks a definition item by item and enters every definition that is nested in
an item.  Under the same names it therefore passes exactly when every item of the tree
passes on its own (`checkItems_eq_ok_iff`), and whatever part of the tree is taken out of
it passes as well (`checkItems_of_part`).
-/

namespace QueryScript.Guard

/-- Judges what an item writes itself, and none of the definitions nested in it. -/
def checkOwn (guard : Guard) (ctes : CteNames) : Item → Except Error Unit
  | .stray _ => .ok ()
  | .step es _ => do
    es.forM fun (k, v) => checkEntry guard ctes k v
    checkMarkersEntries guard es

variable {guard : Guard} {ctes : CteNames} {items : Definition} {item : Item}

/-- An item passes exactly when it passes on its own and what is nested in it passes. -/
theorem checkItem_eq_ok_iff :
    guard.checkItem ctes item = .ok () ↔
      guard.checkOwn ctes item = .ok () ∧ guard.checkNested ctes item.nested = .ok () := by
  cases item with
  | stray v =>
    rw [checkItem]
    exact ⟨fun _ => ⟨rfl, rfl⟩, fun _ => rfl⟩
  | step es nested =>
    rw [checkItem, checkOwn]
    constructor
    · intro h
      obtain ⟨_, hentries, h⟩ := Checks.bind_eq_ok.mp h
      obtain ⟨_, hmarkers, hnested⟩ := Checks.bind_eq_ok.mp h
      exact ⟨Checks.bind_eq_ok.mpr ⟨(), hentries, hmarkers⟩, hnested⟩
    · intro h
      obtain ⟨hown, hnested⟩ := h
      obtain ⟨_, hentries, hmarkers⟩ := Checks.bind_eq_ok.mp hown
      exact Checks.bind_eq_ok.mpr ⟨(), hentries, Checks.bind_eq_ok.mpr ⟨(), hmarkers, hnested⟩⟩

theorem checkItems_eq_ok_iff_forall :
    guard.checkItems ctes items = .ok () ↔ ∀ item ∈ items, guard.checkItem ctes item = .ok () := by
  induction items with
  | nil =>
    rw [checkItems]
    exact ⟨fun _ => nofun, fun _ => rfl⟩
  | cons item items ih =>
    rw [checkItems, Checks.bind_eq_ok, List.forall_mem_cons, ← ih]
    exact ⟨fun ⟨_, hitem, hrest⟩ => ⟨hitem, hrest⟩, fun ⟨hitem, hrest⟩ => ⟨(), hitem, hrest⟩⟩

theorem checkNested_eq_ok_iff_forall {nested : List (Slot × Definition)} :
    guard.checkNested ctes nested = .ok () ↔
      ∀ entry ∈ nested, guard.checkItems ctes entry.2 = .ok () := by
  induction nested with
  | nil =>
    rw [checkNested]
    exact ⟨fun _ => nofun, fun _ => rfl⟩
  | cons entry nested ih =>
    rw [checkNested, Checks.bind_eq_ok, List.forall_mem_cons, ← ih]
    exact ⟨fun ⟨_, hitems, hrest⟩ => ⟨hitems, hrest⟩, fun ⟨hitems, hrest⟩ => ⟨(), hitems, hrest⟩⟩

/-- **The check visits every item of the tree**: it passes exactly when each of them passes on
its own. -/
theorem checkItems_eq_ok_iff :
    guard.checkItems ctes items = .ok () ↔
      ∀ item, items.HasItem item → guard.checkOwn ctes item = .ok () := by
  constructor
  · intro h item hitem
    induction hitem with
    | own hitem => exact (checkItem_eq_ok_iff.mp (checkItems_eq_ok_iff_forall.mp h _ hitem)).1
    | nested houter hslot _ ih =>
      have hnested := (checkItem_eq_ok_iff.mp (checkItems_eq_ok_iff_forall.mp h _ houter)).2
      exact ih (checkNested_eq_ok_iff_forall.mp hnested _ hslot)
  · intro h
    induction items using Definition.induction with
    | h items ih =>
      refine checkItems_eq_ok_iff_forall.mpr fun item hitem => ?_
      refine checkItem_eq_ok_iff.mpr ⟨h item (.own hitem), ?_⟩
      refine checkNested_eq_ok_iff_forall.mpr fun (slot, d) hslot => ?_
      exact ih item hitem slot d hslot fun inner hinner => h inner (.nested hitem hslot hinner)

/-- A part of a definition that passes has passed under the same names. -/
theorem checkItems_of_part {d : Definition} (h : guard.checkItems ctes items = .ok ())
    (hpart : Definition.Part d items) : guard.checkItems ctes d = .ok () := by
  refine checkItems_eq_ok_iff.mpr fun item hitem => ?_
  obtain ⟨d', hpart', hmem⟩ := Definition.hasItem_iff.mp hitem
  exact checkItems_eq_ok_iff.mp h item (Definition.hasItem_iff.mpr ⟨d', hpart'.trans hpart, hmem⟩)

/-- The check of a whole definition is that of its items under the names of the whole. -/
theorem checkDefinition_eq_ok_iff :
    guard.checkDefinition items = .ok () ↔
      guard.checkItems (CteNames.collect items) items = .ok () := by
  rw [checkDefinition]
  cases guard.checkItems (CteNames.collect items) items with
  | ok _ => exact ⟨fun _ => rfl, fun _ => rfl⟩
  | error e => exact ⟨nofun, nofun⟩

end QueryScript.Guard
