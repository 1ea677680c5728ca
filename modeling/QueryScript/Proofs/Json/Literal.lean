import QueryScript.Params
import QueryScript.Proofs.Json.Part

/-!
# Literal values

A value is literal if nothing in it stands for a parameter: no object has the key of a
parameter marker, and no text has a character with which a template could begin.
Parameters have no part in such a value, whatever they are (`resolve_of_isLiteral`).
-/

namespace QueryScript

/-- A text without the character that opens a template stays as it is. -/
theorem Template.fill_none (lookup : String → Option String) {cs : List Char} (h : '$' ∉ cs) :
    fill lookup none cs = cs := by
  induction cs with
  | nil => rfl
  | cons c cs ih =>
    obtain ⟨hc, hcs⟩ := not_or.mp fun hmem => h (List.mem_cons.mpr hmem)
    rw [fill, if_neg fun heq => hc heq.symm, ih hcs]

namespace Json

/-- No object in the value has the key of a parameter marker, and no text in it has a `$`. -/
structure IsLiteral (v : Json) : Prop where
  unmarked : ∀ es, Part (.obj es) v → Entries.has es paramKey = false
  texts : ∀ s, Part (.str s) v → '$' ∉ s.toList

variable {v w : Json}

/-- A part of a literal is a literal. -/
theorem IsLiteral.part (h : v.IsLiteral) (hpart : Part w v) : w.IsLiteral where
  unmarked es hes := h.unmarked es (hes.trans hpart)
  texts s hs := h.texts s (hs.trans hpart)

@[simp] theorem isLiteral_num (n : Number) : (Json.num n).IsLiteral where
  unmarked es hes := by cases hes
  texts s hs := by cases hs

@[simp] theorem isLiteral_str {s : String} : (Json.str s).IsLiteral ↔ '$' ∉ s.toList := by
  constructor
  · intro h
    exact h.texts s .self
  · intro h
    constructor
    · intro es hes
      cases hes
    · intro t ht
      cases ht
      exact h

@[simp] theorem isLiteral_arr {xs : List Json} :
    (Json.arr xs).IsLiteral ↔ ∀ x ∈ xs, x.IsLiteral := by
  constructor
  · intro h x hx
    exact h.part (.item hx .self)
  · intro h
    constructor
    · intro es hes
      cases hes with
      | item hx hes => exact (h _ hx).unmarked es hes
    · intro s hs
      cases hs with
      | item hx hs => exact (h _ hx).texts s hs

@[simp] theorem isLiteral_obj {es : Entries} :
    (Json.obj es).IsLiteral ↔
      Entries.has es paramKey = false ∧ ∀ entry ∈ es, entry.2.IsLiteral := by
  constructor
  · intro h
    exact ⟨h.unmarked es .self, fun _ hentry => h.part (.entry hentry .self)⟩
  · intro h
    obtain ⟨hunmarked, hentries⟩ := h
    constructor
    · intro es' hes
      cases hes with
      | self => exact hunmarked
      | entry hentry hes => exact (hentries _ hentry).unmarked es' hes
    · intro s hs
      cases hs with
      | entry hentry hs => exact (hentries _ hentry).texts s hs

/-- A text without dollar signs has no templates to fill in. -/
theorem fillText_of_not_mem (params : Params) {s : String} (h : '$' ∉ s.toList) :
    fillText params s = s := by
  rw [fillText, Template.fill_none params.text? h, String.ofList_toList]

theorem paramName?_of_isLiteral (h : v.IsLiteral) : v.paramName? = none := by
  cases v with
  | obj es =>
    have hnone := h.unmarked es .self
    rw [Entries.has, Option.isSome_eq_false_iff, Option.isNone_iff_eq_none] at hnone
    rw [paramName?, hnone]
    rfl
  | _ => rfl

/-- The items of an array are resolved one by one. -/
theorem resolveItems_eq_map (params : Params) (xs : List Json) :
    resolveItems params xs = xs.map (resolve params) := by
  induction xs with
  | nil => rfl
  | cons x xs ih => rw [resolveItems, ih, List.map_cons]

/-- The values of an object are resolved one by one; its keys stay. -/
theorem resolveEntries_eq_map (params : Params) (es : Entries) :
    resolveEntries params es = es.map fun entry => (entry.1, resolve params entry.2) := by
  induction es with
  | nil => rfl
  | cons entry es ih =>
    obtain ⟨key, v⟩ := entry
    rw [resolveEntries, ih, List.map_cons]

/-- Filling in parameters changes values and keeps keys. -/
theorem get?_resolveEntries (params : Params) (es : Entries) (key : String) :
    Entries.get? (resolveEntries params es) key = (Entries.get? es key).map (resolve params) := by
  induction es with
  | nil => rfl
  | cons entry es ih =>
    obtain ⟨k, v⟩ := entry
    rw [resolveEntries, Entries.get?, Entries.get?, ih]
    split <;> rfl

/-- **Parameters have no part in a literal value.** -/
theorem resolve_of_isLiteral (params : Params) : ∀ v : Json, v.IsLiteral → v.resolve params = v
  | .null, _ => rfl
  | .bool _, _ => rfl
  | .num _, _ => rfl
  | .str s, h => by rw [resolve, fillText_of_not_mem params (h.texts s .self)]
  | .arr xs, h => by
    have hitems : ∀ x ∈ xs, x.resolve params = x := by
      intro x hx
      have hsize := List.sizeOf_lt_of_mem hx
      exact resolve_of_isLiteral params x (h.part (.item hx .self))
    rw [resolve, resolveItems_eq_map, List.map_congr_left hitems, List.map_id']
  | .obj es, h => by
    have hentries : ∀ entry ∈ es, (entry.1, entry.2.resolve params) = entry := by
      intro entry hentry
      obtain ⟨key, w⟩ := entry
      have hsize := sizeOf_lt_of_mem_entries hentry
      rw [resolve_of_isLiteral params w (h.part (.entry hentry .self))]
    rw [resolve, paramName?_of_isLiteral h]
    dsimp only
    rw [resolveEntries_eq_map, List.map_congr_left hentries, List.map_id']
termination_by v => sizeOf v

end Json

end QueryScript
