import QueryScript.Definition.CteNames
import QueryScript.Proofs.Definition.Tree

/-!
# Which names are collected

The names of common table expressions are gathered before anything is run.  So they are
the names that items declare anywhere in the tree, whether or not the items are taken up
when the definition is built (`contains_collect_iff`).
-/

namespace QueryScript

/-- The item declares a common table expression of this name, up to the case of ASCII letters. -/
def Item.Declares (item : Item) (name : String) : Prop :=
  ∃ es nested declared, item = .step es nested ∧ CteNames.declared? es = some declared ∧
    Text.lower declared = Text.lower name

namespace CteNames

variable {ctes : CteNames} {name : String}

theorem contains_eq_true : ctes.contains name = true ↔ Text.lower name ∈ ctes.names :=
  List.contains_iff_mem

theorem contains_insert (other : String) :
    (ctes.insert other).contains name = true ↔
      ctes.contains name = true ∨ Text.lower other = Text.lower name := by
  rw [contains_eq_true, contains_eq_true, insert]
  split
  next hmem =>
    constructor
    · exact .inl
    · intro h
      rcases h with h | h
      · exact h
      · rw [← h]
        exact List.contains_iff_mem.mp hmem
  next =>
    rw [List.mem_append, List.mem_singleton, @eq_comm _ (Text.lower name)]

theorem contains_insertAll (names : List String) :
    (ctes.insertAll names).contains name = true ↔
      ctes.contains name = true ∨ ∃ n ∈ names, Text.lower n = Text.lower name := by
  induction names generalizing ctes with
  | nil =>
    constructor
    · exact .inl
    · intro h
      rcases h with h | ⟨n, hn, -⟩
      · exact h
      · cases hn
  | cons n names ih =>
    have hstep : ctes.insertAll (n :: names) = (ctes.insert n).insertAll names := rfl
    rw [hstep, ih, contains_insert, or_assoc]
    simp only [List.mem_cons, exists_eq_or_imp]

/-! ## The names in a tree -/

/-- The names that items introduce are collected item by item. -/
theorem inItems_eq_flatMap (items : List Item) : inItems items = items.flatMap inItem := by
  induction items with
  | nil => rfl
  | cons item items ih => rw [inItems, ih, List.flatMap_cons]

theorem inNested_eq_flatMap (nested : List (Slot × List Item)) :
    inNested nested = nested.flatMap fun (_, items) => inItems items := by
  induction nested with
  | nil => rfl
  | cons entry nested ih =>
    obtain ⟨slot, items⟩ := entry
    rw [inNested, ih, List.flatMap_cons]

/-- An item contributes the name that it declares and the names in the definitions nested in
it. -/
theorem mem_inItem {item : Item} :
    name ∈ inItem item ↔
      (∃ es nested, item = .step es nested ∧ declared? es = some name) ∨
        ∃ slot d, (slot, d) ∈ item.nested ∧ name ∈ inItems d := by
  cases item with
  | stray v =>
    rw [inItem]
    constructor
    · exact nofun
    · intro h
      rcases h with ⟨es, nested, h, -⟩ | ⟨slot, d, h, -⟩
      · cases h
      · cases h
  | step es nested =>
    rw [inItem, inNested_eq_flatMap, List.mem_append, List.mem_flatMap, Option.mem_toList]
    constructor
    · intro h
      rcases h with h | ⟨⟨slot, d⟩, hslot, h⟩
      · exact .inl ⟨es, nested, rfl, h⟩
      · exact .inr ⟨slot, d, hslot, h⟩
    · intro h
      rcases h with ⟨es, nested, heq, h⟩ | ⟨slot, d, hslot, h⟩
      · cases heq
        exact .inl h
      · exact .inr ⟨(slot, d), hslot, h⟩

/-- The names in a tree are those that its items declare. -/
theorem mem_inItems_iff {definition : Definition} :
    name ∈ inItems definition ↔
      ∃ es nested, definition.HasItem (.step es nested) ∧ declared? es = some name := by
  constructor
  · intro h
    induction definition using Definition.induction with
    | h items ih =>
      rw [inItems_eq_flatMap] at h
      obtain ⟨item, hitem, h⟩ := List.mem_flatMap.mp h
      rcases mem_inItem.mp h with ⟨es, nested, rfl, hdeclared⟩ | ⟨slot, d, hslot, h⟩
      · exact ⟨es, nested, .own hitem, hdeclared⟩
      · obtain ⟨es, nested, hhas, hdeclared⟩ := ih item hitem slot d hslot h
        exact ⟨es, nested, .nested hitem hslot hhas, hdeclared⟩
  · intro h
    obtain ⟨es, nested, hhas, hdeclared⟩ := h
    induction hhas with
    | own hitem =>
      rw [inItems_eq_flatMap]
      refine List.mem_flatMap.mpr ⟨_, hitem, ?_⟩
      exact mem_inItem.mpr (.inl ⟨es, nested, rfl, hdeclared⟩)
    | nested houter hslot _ ih =>
      rw [inItems_eq_flatMap]
      refine List.mem_flatMap.mpr ⟨_, houter, ?_⟩
      exact mem_inItem.mpr (.inr ⟨_, _, hslot, ih⟩)

/-- **A name is collected exactly when an item of the tree declares it**, at whatever depth and
whatever its condition. -/
theorem contains_collect_iff {definition : Definition} :
    (collect definition).contains name = true ↔
      ∃ item, definition.HasItem item ∧ item.Declares name := by
  rw [collect, contains_insertAll]
  constructor
  · intro h
    rcases h with h | ⟨declared, hmem, hlower⟩
    · cases h
    · obtain ⟨es, nested, hhas, hdeclared⟩ := mem_inItems_iff.mp hmem
      exact ⟨_, hhas, es, nested, declared, rfl, hdeclared, hlower⟩
  · intro h
    obtain ⟨item, hhas, es, nested, declared, rfl, hdeclared, hlower⟩ := h
    exact .inr ⟨declared, mem_inItems_iff.mpr ⟨es, nested, hhas, hdeclared⟩, hlower⟩

end CteNames

end QueryScript
