import QueryScript.Json.Marker

/-!
# The parts of a value

A value is a part of another if it occurs in it, at whatever depth.  `containsRaw` asks
whether some part is an object with the key of a raw marker (`containsRaw_iff`).
-/

namespace QueryScript

/-- The value under a key is among the entries. -/
theorem Entries.mem_of_get? {es : Entries} {key : String} {v : Json}
    (h : Entries.get? es key = some v) : (key, v) ∈ es := by
  induction es with
  | nil => cases h
  | cons entry es ih =>
    obtain ⟨k, w⟩ := entry
    rw [Entries.get?] at h
    split at h
    next hk =>
      cases h
      rw [hk]
      exact List.mem_cons_self ..
    next => exact List.mem_cons_of_mem _ (ih h)

namespace Json

/-- The value `v` occurs in a value. -/
inductive Part (v : Json) : Json → Prop where
  | self : Part v v
  | item {w : Json} {xs : List Json} (hw : w ∈ xs) (h : Part v w) : Part v (.arr xs)
  | entry {key : String} {w : Json} {es : Entries} (hw : (key, w) ∈ es) (h : Part v w) :
      Part v (.obj es)

/-- A part of a part is a part. -/
theorem Part.trans {u v w : Json} (h : Part u v) (h' : Part v w) : Part u w := by
  induction h' with
  | self => exact h
  | item hw _ ih => exact .item hw ih
  | entry hw _ ih => exact .entry hw ih

/-- Items contain raw SQL if one of them does. -/
theorem containsRawItems_iff {xs : List Json} :
    containsRawItems xs = true ↔ ∃ x ∈ xs, x.containsRaw = true := by
  induction xs with
  | nil => simp [containsRawItems]
  | cons x xs ih => simp [containsRawItems, ih]

/-- Entries contain raw SQL if one of their values does. -/
theorem containsRawEntries_iff {es : Entries} :
    containsRawEntries es = true ↔ ∃ entry ∈ es, entry.2.containsRaw = true := by
  induction es with
  | nil => simp [containsRawEntries]
  | cons entry es ih =>
    obtain ⟨key, v⟩ := entry
    simp [containsRawEntries, ih]

/-- An array is without raw markers if its items are. -/
theorem containsRaw_arr_eq_false {xs : List Json} :
    (arr xs).containsRaw = false ↔ ∀ x ∈ xs, x.containsRaw = false := by
  rw [containsRaw, Bool.eq_false_iff, Ne, containsRawItems_iff]
  simp

/-- An object is without raw markers if it is none and the values in it are without. -/
theorem containsRaw_obj_eq_false {es : Entries} :
    (obj es).containsRaw = false ↔
      Entries.get? es rawKey = none ∧ ∀ entry ∈ es, entry.2.containsRaw = false := by
  have hentries : containsRawEntries es = false ↔ ∀ entry ∈ es, entry.2.containsRaw = false := by
    rw [Bool.eq_false_iff, Ne, containsRawEntries_iff]
    simp
  rw [containsRaw, Bool.or_eq_false_iff, hentries, Entries.has, Option.isSome_eq_false_iff,
    Option.isNone_iff_eq_none]

/-- The values of an object are smaller than its entries. -/
theorem sizeOf_lt_of_mem_entries {es : Entries} {key : String} {v : Json} (h : (key, v) ∈ es) :
    sizeOf v < sizeOf es := by
  have hsize := List.sizeOf_lt_of_mem h
  rw [Prod.mk.sizeOf_spec] at hsize
  omega

/-- What holds of a value whenever it holds of its items, or of the values of its entries, holds
of every value. -/
theorem induction {P : Json → Prop} (null : P .null) (bool : ∀ b, P (.bool b))
    (num : ∀ n, P (.num n)) (str : ∀ s, P (.str s))
    (arr : ∀ xs : List Json, (∀ x ∈ xs, P x) → P (.arr xs))
    (obj : ∀ es : Entries, (∀ entry ∈ es, P entry.2) → P (.obj es)) : ∀ v : Json, P v
  | .null => null
  | .bool b => bool b
  | .num n => num n
  | .str s => str s
  | .arr xs => arr xs fun x hx => by
    have hsize := List.sizeOf_lt_of_mem hx
    exact induction null bool num str arr obj x
  | .obj es => obj es fun (key, v) hv => by
    have hsize := sizeOf_lt_of_mem_entries hv
    exact induction null bool num str arr obj v
termination_by v => sizeOf v

theorem exists_part_of_containsRaw : ∀ v : Json, v.containsRaw = true →
    ∃ es, Part (.obj es) v ∧ Entries.has es rawKey = true
  | .null, h => by cases h
  | .bool _, h => by cases h
  | .num _, h => by cases h
  | .str _, h => by cases h
  | .arr xs, h => by
    rw [containsRaw] at h
    obtain ⟨x, hx, hraw⟩ := containsRawItems_iff.mp h
    have hsize := List.sizeOf_lt_of_mem hx
    obtain ⟨es, hpart, hhas⟩ := exists_part_of_containsRaw x hraw
    exact ⟨es, .item hx hpart, hhas⟩
  | .obj es, h => by
    rw [containsRaw, Bool.or_eq_true] at h
    rcases h with hhas | h
    · exact ⟨es, .self, hhas⟩
    · obtain ⟨⟨key, w⟩, hw, hraw⟩ := containsRawEntries_iff.mp h
      have hsize := sizeOf_lt_of_mem_entries hw
      obtain ⟨es', hpart, hhas⟩ := exists_part_of_containsRaw w hraw
      exact ⟨es', .entry hw hpart, hhas⟩
termination_by v => sizeOf v

/-- A raw marker occurs in a value exactly when some part of it has the marker's key. -/
theorem containsRaw_iff {v : Json} :
    v.containsRaw = true ↔ ∃ es, Part (.obj es) v ∧ Entries.has es rawKey = true := by
  constructor
  · exact exists_part_of_containsRaw v
  · intro h
    obtain ⟨es, hpart, hhas⟩ := h
    induction hpart with
    | self => rw [containsRaw, hhas, Bool.true_or]
    | item hw _ ih =>
      rw [containsRaw]
      exact containsRawItems_iff.mpr ⟨_, hw, ih⟩
    | entry hw _ ih =>
      rw [containsRaw, Bool.or_eq_true]
      exact .inr (containsRawEntries_iff.mpr ⟨_, hw, ih⟩)

end Json

end QueryScript
