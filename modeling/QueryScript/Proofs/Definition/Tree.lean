import QueryScript.Definition.Basic

/-!
# Definitions as trees

Definitions hang in the slots of the items of other definitions.  What is said of a whole
definition is proved from its items and the definitions nested in them
(`Definition.induction`); `HasItem` names the items at all depths, and `Part` the definitions.
-/

namespace QueryScript

namespace Item

/-- The definitions nested in an item. -/
def nested : Item → List (Slot × Definition)
  | .stray _ => []
  | .step _ nested => nested

end Item

namespace Definition

/-- What holds of a definition whenever it holds of the definitions nested in its items holds
of every definition. -/
theorem induction {P : Definition → Prop}
    (h : ∀ items : Definition,
      (∀ item ∈ items, ∀ slot d, (slot, d) ∈ item.nested → P d) → P items)
    (items : Definition) : P items := by
  refine h items fun item hitem slot d hd => ?_
  cases item with
  | stray v => cases hd
  | step es nested =>
    have hstep := List.sizeOf_lt_of_mem hitem
    have hentry := List.sizeOf_lt_of_mem (show (slot, d) ∈ nested from hd)
    rw [Item.step.sizeOf_spec] at hstep
    rw [Prod.mk.sizeOf_spec] at hentry
    have hsmaller : sizeOf d < sizeOf items := by omega
    exact induction h d
termination_by sizeOf items

/-- An item of a definition or of a definition nested in one of its items. -/
inductive HasItem (item : Item) : Definition → Prop where
  | own {items : Definition} (h : item ∈ items) : HasItem item items
  | nested {items d : Definition} {outer : Item} {slot : Slot} (houter : outer ∈ items)
      (hslot : (slot, d) ∈ outer.nested) (h : HasItem item d) : HasItem item items

/-- The definition `d` is a definition or nested in one of its items, at whatever depth. -/
inductive Part (d : Definition) : Definition → Prop where
  | self : Part d d
  | nested {items d' : Definition} {outer : Item} {slot : Slot} (houter : outer ∈ items)
      (hslot : (slot, d') ∈ outer.nested) (h : Part d d') : Part d items

/-- A part of a part is a part. -/
theorem Part.trans {d d' items : Definition} (h : Part d d') (h' : Part d' items) :
    Part d items := by
  induction h' with
  | self => exact h
  | nested houter hslot _ ih => exact .nested houter hslot ih

/-- The items of a tree are the items of its definitions. -/
theorem hasItem_iff {item : Item} {items : Definition} :
    items.HasItem item ↔ ∃ d, Part d items ∧ item ∈ d := by
  constructor
  · intro h
    induction h with
    | own hitem => exact ⟨_, .self, hitem⟩
    | nested houter hslot _ ih =>
      obtain ⟨d, hpart, hitem⟩ := ih
      exact ⟨d, .nested houter hslot hpart, hitem⟩
  · intro h
    obtain ⟨d, hpart, hitem⟩ := h
    induction hpart with
    | self => exact .own hitem
    | nested houter hslot _ ih => exact .nested houter hslot ih

end Definition

/-- What a step does is told by its keys. -/
theorem Head.ofEntries?_eq (es : Entries) :
    ofEntries? es = (Entries.keys es).findSome? ofKey? := by
  rw [Entries.keys, List.findSome?_map]
  rfl

/-- The key of a step's action is not reserved, and it is registered. -/
theorem Head.spec_of_ofEntries? {es : Entries} {key : String}
    (h : ofEntries? es = some (.action key)) :
    Action.isReserved key = false ∧ Action.isRegistered key = true := by
  obtain ⟨⟨key', v⟩, -, hkey⟩ := List.exists_of_findSome?_eq_some h
  dsimp only at hkey
  rw [ofKey?] at hkey
  split at hkey
  next => cases hkey
  next hreserved =>
    split at hkey
    next hregistered =>
      cases hkey
      exact ⟨Bool.not_eq_true _ ▸ hreserved, hregistered⟩
    next =>
      split at hkey
      · cases hkey
      · cases hkey

end QueryScript
