import QueryScript.Proofs.Checks
import QueryScript.Proofs.Json.Part
import QueryScript.Recorder.Argument

/-!
# Screened arguments

An argument is screened when the text of every raw expression in it has passed the check
and no plain value in it has a raw marker left (`Screened`).  Whatever value an argument
is made of, resolving it leaves a screened one or fails (`screened_of_ofJson`): a marker
becomes a raw expression only after its text has passed, and only values without any
marker stay plain.  How a value is resolved depends on nothing but itself, whatever it is
resolved beside (`resolveAll_eq_mapM`).
-/

namespace QueryScript.Argument

/-- The argument `inner` occurs in an argument. -/
inductive Within (inner : Argument) : Argument → Prop where
  | self : Within inner inner
  | item {a : Argument} {items : List Argument} (ha : a ∈ items) (h : Within inner a) :
      Within inner (.list items)
  | entry {key : String} {a : Argument} {entries : List (String × Argument)}
      (ha : (key, a) ∈ entries) (h : Within inner a) : Within inner (.map entries)

/-- Every raw expression in the argument has passed the check, and every plain value in it is
free of raw markers. -/
structure Screened (check : String → Except Error Unit) (a : Argument) : Prop where
  raw : ∀ r, Within (.raw r) a → check r.sql = .ok ()
  plain : ∀ v, Within (.value v) a → v.containsRaw = false

variable {check : String → Except Error Unit} {a : Argument} {v : Json}

/-- A plain value without raw SQL needs no screening. -/
theorem screened_value (h : v.containsRaw = false) : Screened check (.value v) where
  raw r hr := by cases hr
  plain w hw := by
    cases hw with
    | self => exact h

theorem screened_raw {r : RawSql} (h : check r.sql = .ok ()) : Screened check (.raw r) where
  raw r' hr := by
    cases hr with
    | self => exact h
  plain w hw := by cases hw

theorem screened_list {items : List Argument} (h : ∀ a ∈ items, Screened check a) :
    Screened check (.list items) where
  raw r hr := by
    cases hr with
    | item ha hin => exact (h _ ha).raw r hin
  plain w hw := by
    cases hw with
    | item ha hin => exact (h _ ha).plain w hin

theorem screened_map {entries : List (String × Argument)}
    (h : ∀ entry ∈ entries, Screened check entry.2) : Screened check (.map entries) where
  raw r hr := by
    cases hr with
    | entry ha hin => exact (h _ ha).raw r hin
  plain w hw := by
    cases hw with
    | entry ha hin => exact (h _ ha).plain w hin

/-! ## Resolving -/

/-- The items of a list are made arguments one by one, up to the first failure. -/
theorem ofItems_eq_mapM (xs : List Json) : ofItems check xs = xs.mapM (ofJson check) := by
  induction xs with
  | nil => rfl
  | cons x xs ih =>
    rw [ofItems, List.mapM_cons, ih]
    cases ofJson check x with
    | error e => rfl
    | ok a => cases xs.mapM (ofJson check) <;> rfl

/-- So are the values of a map. -/
theorem ofEntries_eq_mapM (es : Entries) :
    ofEntries check es = es.mapM fun entry => (ofJson check entry.2).map (entry.1, ·) := by
  induction es with
  | nil => rfl
  | cons entry es ih =>
    obtain ⟨key, v⟩ := entry
    rw [ofEntries, List.mapM_cons, ih]
    cases ofJson check v with
    | error e => rfl
    | ok a => cases es.mapM fun entry => (ofJson check entry.2).map (entry.1, ·) <;> rfl

/-- A value without raw markers stays plain. -/
theorem ofJson_of_plain (h : v.containsRaw = false) : ofJson check v = .ok (.value v) := by
  cases v with
  | arr xs =>
    rw [Json.containsRaw] at h
    rw [ofJson, h]
    rfl
  | obj es =>
    rw [Json.containsRaw, Bool.or_eq_false_iff, Entries.has, Option.isSome_eq_false_iff,
      Option.isNone_iff_eq_none] at h
    rw [ofJson, h.1, h.2]
    rfl
  | _ => rfl

/-- An array with a marker in it has its items resolved one by one. -/
theorem ofJson_arr_of_marked {xs : List Json} (h : (Json.arr xs).containsRaw ≠ false) :
    ofJson check (.arr xs) = (xs.mapM (ofJson check)).map .list := by
  rw [Json.containsRaw] at h
  rw [ofJson, ← ofItems_eq_mapM]
  exact if_pos (Bool.of_not_eq_false h)

/-- An object with a marker below it has its entries resolved one by one. -/
theorem ofJson_obj_of_marked {es : Entries} (hnone : Entries.get? es Json.rawKey = none)
    (h : (Json.obj es).containsRaw ≠ false) :
    ofJson check (.obj es) = (ofEntries check es).map .map := by
  have hentries : Json.containsRawEntries es = true := by
    rw [Json.containsRaw, Entries.has, hnone, Option.isSome_none, Bool.false_or] at h
    exact Bool.of_not_eq_false h
  rw [ofJson, hnone]
  exact if_pos hentries

/-- Looking for markers first changes nothing: the arguments are resolved as each of them alone
is. -/
theorem resolveAll_eq_mapM (args : List Json) :
    resolveAll check args = args.mapM (ofJson check) := by
  rw [resolveAll]
  by_cases hraw : Json.containsRawItems args = true
  · rw [if_pos hraw, ofItems_eq_mapM]
  · have hplain : ∀ v ∈ args, ofJson check v = .ok (.value v) := by
      intro v hv
      refine ofJson_of_plain (Bool.eq_false_iff.mpr fun h => ?_)
      exact hraw (Json.containsRawItems_iff.mpr ⟨v, hv, h⟩)
    rw [if_neg hraw, eq_comm, Checks.mapM_eq_ok, List.map_congr_left hplain, List.map_map]
    rfl

/-- Every entry of a resolved map is a resolved entry. -/
theorem exists_of_mem_ofEntries {es : Entries} {entries : List (String × Argument)}
    (h : ofEntries check es = .ok entries) {key : String} (ha : (key, a) ∈ entries) :
    ∃ v, (key, v) ∈ es ∧ ofJson check v = .ok a := by
  rw [ofEntries_eq_mapM] at h
  obtain ⟨⟨key', v⟩, hv, hentry⟩ := Checks.exists_of_mem_mapM h ha
  obtain ⟨a', hresolved, heq⟩ := Checks.map_eq_ok.mp hentry
  cases heq
  exact ⟨v, hv, hresolved⟩

/-- An array stays plain, or its items are resolved one by one. -/
theorem ofJson_arr_eq_ok {xs : List Json} (h : ofJson check (.arr xs) = .ok a) :
    (∃ items, xs.mapM (ofJson check) = .ok items ∧ a = .list items) ∨
      ((Json.arr xs).containsRaw = false ∧ a = .value (.arr xs)) := by
  by_cases hplain : (Json.arr xs).containsRaw = false
  · rw [ofJson_of_plain hplain] at h
    cases h
    exact .inr ⟨hplain, rfl⟩
  · rw [ofJson_arr_of_marked hplain] at h
    obtain ⟨items, hitems, rfl⟩ := Checks.map_eq_ok.mp h
    exact .inl ⟨items, hitems, rfl⟩

/-- An object is a raw marker, stays plain, or has its entries resolved one by one. -/
theorem ofJson_obj_eq_ok {es : Entries} (h : ofJson check (.obj es) = .ok a) :
    (∃ payload, ofPayload check payload = .ok a) ∨
      (∃ entries, ofEntries check es = .ok entries ∧ a = .map entries) ∨
      ((Json.obj es).containsRaw = false ∧ a = .value (.obj es)) := by
  by_cases hplain : (Json.obj es).containsRaw = false
  · rw [ofJson_of_plain hplain] at h
    cases h
    exact .inr (.inr ⟨hplain, rfl⟩)
  · cases hraw : Entries.get? es Json.rawKey with
    | some payload =>
      rw [ofJson, hraw] at h
      exact .inl ⟨payload, h⟩
    | none =>
      rw [ofJson_obj_of_marked hraw hplain] at h
      obtain ⟨entries, hentries, rfl⟩ := Checks.map_eq_ok.mp h
      exact .inr (.inl ⟨entries, hentries, rfl⟩)

/-- A marker becomes a raw expression whose text has passed the check. -/
theorem ofPayload_eq_ok {payload : Json} (h : ofPayload check payload = .ok a) :
    ∃ r, check r.sql = .ok () ∧ a = .raw r := by
  obtain ⟨sql, -, h⟩ := Checks.bind_eq_ok.mp h
  obtain ⟨bindings, -, h⟩ := Checks.bind_eq_ok.mp h
  obtain ⟨_, hcheck, h⟩ := Checks.bind_eq_ok.mp h
  cases h
  exact ⟨_, hcheck, rfl⟩

/-- **What a value is resolved to is screened.** -/
theorem screened_of_ofJson : ∀ (v : Json) {a : Argument}, ofJson check v = .ok a →
    Screened check a
  | .null, _, h => by
    cases h
    exact screened_value rfl
  | .bool _, _, h => by
    cases h
    exact screened_value rfl
  | .num _, _, h => by
    cases h
    exact screened_value rfl
  | .str _, _, h => by
    cases h
    exact screened_value rfl
  | .arr xs, a, h => by
    rcases ofJson_arr_eq_ok h with ⟨items, hitems, rfl⟩ | ⟨hplain, rfl⟩
    · refine screened_list fun b hb => ?_
      obtain ⟨x, hx, hresolved⟩ := Checks.exists_of_mem_mapM hitems hb
      have hsize := List.sizeOf_lt_of_mem hx
      exact screened_of_ofJson x hresolved
    · exact screened_value hplain
  | .obj es, a, h => by
    rcases ofJson_obj_eq_ok h with ⟨payload, hraw⟩ | ⟨entries, hentries, rfl⟩ | ⟨hplain, rfl⟩
    · obtain ⟨r, hcheck, rfl⟩ := ofPayload_eq_ok hraw
      exact screened_raw hcheck
    · refine screened_map fun (key, b) hb => ?_
      obtain ⟨x, hx, hresolved⟩ := exists_of_mem_ofEntries hentries hb
      have hsize := Json.sizeOf_lt_of_mem_entries hx
      exact screened_of_ofJson x hresolved
    · exact screened_value hplain
termination_by v => sizeOf v

/-- Arguments that were resolved together are screened. -/
theorem screened_of_resolveAll {args : List Json} {out : List Argument}
    (h : resolveAll check args = .ok out) (ha : a ∈ out) : Screened check a := by
  rw [resolveAll_eq_mapM] at h
  obtain ⟨x, -, hx⟩ := Checks.exists_of_mem_mapM h ha
  exact screened_of_ofJson x hx

/-- A value that is resolved to a text is that text. -/
theorem eq_str_of_ofJson {s : String} (h : ofJson check v = .ok (.value (.str s))) :
    v = .str s := by
  cases v with
  | null => cases h
  | bool _ => cases h
  | num _ => cases h
  | str _ =>
    cases h
    rfl
  | arr xs =>
    rcases ofJson_arr_eq_ok h with ⟨_, _, h⟩ | ⟨_, h⟩
    · cases h
    · cases h
  | obj es =>
    rcases ofJson_obj_eq_ok h with ⟨_, h⟩ | ⟨_, _, h⟩ | ⟨_, h⟩
    · obtain ⟨_, _, h⟩ := ofPayload_eq_ok h
      cases h
    · cases h
    · cases h

/-- A text that is handed on as the first argument was given as the first argument. -/
theorem head_of_resolveAll {args : List Json} {s : String} {rest : List Argument}
    (h : resolveAll check args = .ok (.value (.str s) :: rest)) :
    ∃ tail, args = .str s :: tail := by
  rw [resolveAll_eq_mapM] at h
  cases args with
  | nil => cases h
  | cons v tail =>
    rw [List.mapM_cons] at h
    obtain ⟨a, ha, h⟩ := Checks.bind_eq_ok.mp h
    obtain ⟨as, -, h⟩ := Checks.bind_eq_ok.mp h
    cases h
    exact ⟨tail, by rw [eq_str_of_ofJson ha]⟩

/-- A text that is given as the first argument is handed on as the first argument. -/
theorem resolveAll_str {s : String} {tail : List Json} {out : List Argument}
    (h : resolveAll check (.str s :: tail) = .ok out) : ∃ rest, out = .value (.str s) :: rest := by
  rw [resolveAll_eq_mapM, List.mapM_cons] at h
  obtain ⟨a, ha, h⟩ := Checks.bind_eq_ok.mp h
  obtain ⟨as, -, h⟩ := Checks.bind_eq_ok.mp h
  cases ha
  cases h
  exact ⟨as, rfl⟩

end QueryScript.Argument
