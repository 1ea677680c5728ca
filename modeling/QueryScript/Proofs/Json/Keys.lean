import QueryScript.Proofs.Json.Part

/-!
# Distinct keys

The keys of an object are distinct.  Then its entries are what its keys find, one for each key
(`Entries.get?_eq_some_iff`), and writing them one after the other gives them back
(`Entries.ofPairs_of_nodup`).

Where one value is put in the place of another, whatever the keys, the other keys find what they
found (`Entries.get?_replace`).
-/

namespace QueryScript

/-- The keys of every object in a value are distinct. -/
def Json.KeysDistinct (value : Json) : Prop :=
  ∀ es, Json.Part (.obj es) value → (Entries.keys es).Nodup

namespace Json

/-- An array has distinct keys if its items do. -/
@[simp]
theorem keysDistinct_arr {xs : List Json} : (arr xs).KeysDistinct ↔ ∀ x ∈ xs, x.KeysDistinct := by
  constructor
  · exact fun h x hx es hes => h es (.item hx hes)
  · intro h es hes
    cases hes with
    | item hx hes => exact h _ hx es hes

/-- An object has distinct keys if its own are distinct, and its values have distinct keys. -/
@[simp]
theorem keysDistinct_obj {es : Entries} :
    (obj es).KeysDistinct ↔ (Entries.keys es).Nodup ∧ ∀ entry ∈ es, entry.2.KeysDistinct := by
  constructor
  · exact fun h => ⟨h es .self, fun entry hentry es' hes' => h es' (.entry hentry hes')⟩
  · intro h es' hes'
    cases hes' with
    | self => exact h.1
    | entry hv hes' => exact h.2 _ hv es' hes'

@[simp]
theorem keysDistinct_null : null.KeysDistinct := fun _ h => nomatch h

@[simp]
theorem keysDistinct_bool (b : Bool) : (bool b).KeysDistinct := fun _ h => nomatch h

@[simp]
theorem keysDistinct_num (n : Number) : (num n).KeysDistinct := fun _ h => nomatch h

@[simp]
theorem keysDistinct_str (s : String) : (str s).KeysDistinct := fun _ h => nomatch h

end Json

namespace Entries

variable {es : Entries} {key : String} {v : Json}

/-- A key is looked up in vain exactly if it does not occur. -/
theorem get?_eq_none_iff : get? es key = none ↔ key ∉ keys es := by
  induction es with
  | nil => exact ⟨fun _ => List.not_mem_nil, fun _ => rfl⟩
  | cons entry es ih =>
    obtain ⟨k, v⟩ := entry
    have hkeys : keys ((k, v) :: es) = k :: keys es := rfl
    rw [get?, hkeys, List.mem_cons, not_or, ← ih]
    by_cases hk : k = key
    · rw [if_pos hk]
      exact ⟨fun h => (by cases h), fun h => absurd hk.symm h.1⟩
    · rw [if_neg hk]
      exact ⟨fun h => ⟨fun h' => hk h'.symm, h⟩, And.right⟩

/-- The entries under a key are what the key finds, if keys are distinct. -/
theorem filter_key (h : (keys es).Nodup) (key : String) :
    (es.filter (·.1 = key)).map Prod.snd = (get? es key).toList := by
  induction es with
  | nil => rfl
  | cons entry es ih =>
    obtain ⟨k, v⟩ := entry
    obtain ⟨hfresh, hrest⟩ := List.nodup_cons.mp h
    have ih := ih hrest
    rw [get?]
    by_cases hk : k = key
    · have hnone : get? es key = none := get?_eq_none_iff.mpr (hk ▸ hfresh)
      rw [hnone] at ih
      rw [List.filter_cons_of_pos (by simpa using hk), List.map_cons, ih, if_pos hk]
      rfl
    · rw [List.filter_cons_of_neg (by simpa using hk), ih, if_neg hk]

/-- Where keys are distinct, every entry is found under its key. -/
theorem get?_eq_some_iff (h : (keys es).Nodup) : get? es key = some v ↔ (key, v) ∈ es := by
  constructor
  · exact mem_of_get?
  · intro hmem
    have hv : v ∈ (es.filter (·.1 = key)).map Prod.snd :=
      List.mem_map.mpr ⟨(key, v), List.mem_filter.mpr ⟨hmem, by simp⟩, rfl⟩
    rw [filter_key h] at hv
    exact Option.mem_toList.mp hv

/-- Distinct keys find the values of the entries, in their order. -/
theorem map_get?_keys (h : (keys es).Nodup) :
    (keys es).map (fun key => (get? es key).getD .null) = es.map Prod.snd := by
  rw [keys, List.map_map]
  refine List.map_congr_left fun entry hentry => ?_
  show (get? es entry.1).getD .null = entry.2
  rw [(get?_eq_some_iff h).mpr hentry]
  rfl

/-- A new key goes to the end. -/
theorem insert_of_not_mem (h : key ∉ keys es) : insert es key v = es ++ [(key, v)] := by
  induction es with
  | nil => rfl
  | cons entry es ih =>
    obtain ⟨k, w⟩ := entry
    have hkeys : keys ((k, w) :: es) = k :: keys es := rfl
    rw [hkeys, List.mem_cons, not_or] at h
    rw [insert, if_neg fun heq => h.1 heq.symm, ih h.2, List.cons_append]

/-- Pairs with new and distinct keys are written to the end. -/
theorem foldl_insert_of_nodup (before : Entries) {after : Entries}
    (h : (keys (before ++ after)).Nodup) :
    after.foldl (fun es (k, v) => insert es k v) before = before ++ after := by
  induction after generalizing before with
  | nil => rw [List.foldl_nil, List.append_nil]
  | cons entry after ih =>
    obtain ⟨k, v⟩ := entry
    have hk : k ∉ keys before := by
      intro hmem
      rw [keys, List.map_append, List.nodup_append] at h
      exact h.2.2 k hmem k (by simp) rfl
    rw [List.append_cons] at h ⊢
    rw [List.foldl_cons]
    dsimp only
    rw [insert_of_not_mem hk, ih _ h]

/-- Pairs with distinct keys are written as they are. -/
theorem ofPairs_of_nodup (h : (keys es).Nodup) : ofPairs es = es :=
  foldl_insert_of_nodup [] h

/-- What a key finds among names that each have a value. -/
theorem get?_map (names : List String) (f : String → Json) (key : String) :
    get? (names.map fun name => (name, f name)) key =
      if key ∈ names then some (f key) else none := by
  induction names with
  | nil => rfl
  | cons name names ih =>
    rw [List.map_cons, get?, ih]
    by_cases hname : name = key
    · simp [hname]
    · simp [hname, Ne.symm hname]

/-- Keys find the same in every order of the entries, if they are distinct. -/
theorem get?_of_perm {fs : Entries} (h : es.Perm fs) (hfs : (keys fs).Nodup) (key : String) :
    get? es key = get? fs key := by
  have hes : (keys es).Nodup := (h.map Prod.fst).nodup_iff.mpr hfs
  ext v
  rw [get?_eq_some_iff hes, get?_eq_some_iff hfs, h.mem_iff]

/-! ## Another value under a key -/

variable {before after : Entries} {k : String} {w : Json}

/-- Replacing a value keeps the keys. -/
theorem keys_replace : keys (before ++ (key, v) :: after) = keys (before ++ (key, w) :: after) := by
  simp only [keys, List.map_append, List.map_cons]

/-- Under another key there is what was there before. -/
theorem get?_replace (h : k ≠ key) :
    get? (before ++ (key, v) :: after) k = get? (before ++ (key, w) :: after) k := by
  induction before with
  | nil =>
    rw [List.nil_append, List.nil_append, get?, get?, if_neg h.symm, if_neg h.symm]
  | cons entry before ih =>
    obtain ⟨k', u⟩ := entry
    rw [List.cons_append, List.cons_append, get?, get?, ih]

/-- Under the key itself there are the two values, unless another one is before both. -/
theorem get?_replace_self (before after : Entries) (key : String) (v w : Json) :
    (key ∈ keys before ∧
      get? (before ++ (key, v) :: after) key = get? (before ++ (key, w) :: after) key) ∨
    get? (before ++ (key, v) :: after) key = some v ∧
      get? (before ++ (key, w) :: after) key = some w := by
  induction before with
  | nil =>
    right
    rw [List.nil_append, List.nil_append, get?, get?, if_pos rfl, if_pos rfl]
    exact ⟨rfl, rfl⟩
  | cons entry before ih =>
    obtain ⟨k', u⟩ := entry
    rw [List.cons_append, List.cons_append, get?, get?]
    by_cases hk : k' = key
    · rw [if_pos hk, if_pos hk]
      exact .inl ⟨List.mem_cons.mpr (.inl hk.symm), rfl⟩
    · rw [if_neg hk, if_neg hk]
      exact ih.imp_left fun h => ⟨List.mem_cons_of_mem _ h.1, h.2⟩

/-- The replaced value is found under its key if the key has not occurred before. -/
theorem get?_replace_fresh (h : key ∉ keys before) :
    get? (before ++ (key, v) :: after) key = some v := by
  rcases get?_replace_self before after key v v with
    ⟨hmem, -⟩ | ⟨hv, -⟩
  · exact absurd hmem h
  · exact hv

/-- Under a key there is what was there before, or the two values. -/
theorem get?_replace_or (before after : Entries) (key : String) (v w : Json) (k : String) :
    get? (before ++ (key, v) :: after) k = get? (before ++ (key, w) :: after) k ∨
      k = key ∧ get? (before ++ (key, v) :: after) k = some v ∧
        get? (before ++ (key, w) :: after) k = some w := by
  by_cases hk : k = key
  · subst hk
    rcases get?_replace_self before after k v w with
      ⟨-, hsame⟩ | hvalues
    · exact .inl hsame
    · exact .inr ⟨rfl, hvalues⟩
  · exact .inl (get?_replace hk)

end Entries

end QueryScript
