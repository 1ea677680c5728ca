import QueryScript.Guard.Preflight
import QueryScript.Proofs.Recorder.Arguments

/-!
# The markers that two walks meet

A raw marker in a value is judged twice: when the definition is checked, and when the
value is resolved into an argument.  Both walks enter the items of an array and the
entries of an object, and stop at a marker, but they are not the same.  Resolving enters
every entry (`Shows`).  The check leaves out the entries under the keys of nested
definitions, wherever such a key stands (`Meets`); so a marker below one of these keys
shows and is not met (`Hides`).
-/

namespace QueryScript

/-- A marker with this payload shows in a value: it is met when the value is resolved. -/
inductive Json.Shows (payload : Json) : Json → Prop where
  | marker {es : Entries} (h : Entries.get? es rawKey = some payload) : Shows payload (.obj es)
  | item {v : Json} {xs : List Json} (hv : v ∈ xs) (h : Shows payload v) : Shows payload (.arr xs)
  | entry {key : String} {v : Json} {es : Entries} (hraw : Entries.get? es rawKey = none)
      (hv : (key, v) ∈ es) (h : Shows payload v) : Shows payload (.obj es)

/-- A marker with this payload shows in a value below a key of nested definitions. -/
inductive Json.Hides (payload : Json) : Json → Prop where
  | under {key : String} {v : Json} {es : Entries} (hraw : Entries.get? es rawKey = none)
      (hv : (key, v) ∈ es) (hkey : Guard.isNestedKey key = true) (h : Shows payload v) :
      Hides payload (.obj es)
  | item {v : Json} {xs : List Json} (hv : v ∈ xs) (h : Hides payload v) : Hides payload (.arr xs)
  | entry {key : String} {v : Json} {es : Entries} (hraw : Entries.get? es rawKey = none)
      (hv : (key, v) ∈ es) (h : Hides payload v) : Hides payload (.obj es)

/-- A marker with this payload is met in a value when the value is checked. -/
inductive Guard.Meets (payload : Json) : Json → Prop where
  | marker {es : Entries} (h : Entries.get? es Json.rawKey = some payload) :
      Meets payload (.obj es)
  | item {v : Json} {xs : List Json} (hv : v ∈ xs) (h : Meets payload v) : Meets payload (.arr xs)
  | entry {key : String} {v : Json} {es : Entries} (hraw : Entries.get? es Json.rawKey = none)
      (hv : (key, v) ∈ es) (hkey : isNestedKey key = false) (h : Meets payload v) :
      Meets payload (.obj es)

/-- Three keys are passed over by the check for markers. -/
theorem Guard.eq_of_isNestedKey {key : String} (h : isNestedKey key = true) :
    key = "query" ∨ key = "else" ∨ key = "clauses" := by
  simpa only [isNestedKey, Bool.or_eq_true, beq_iff_eq, or_assoc] using h

/-- The keys of nested definitions are reserved, so that they name no action. -/
theorem Guard.isReserved_of_isNestedKey {key : String} (h : isNestedKey key = true) :
    Action.isReserved key = true := by
  rcases eq_of_isNestedKey h with rfl | rfl | rfl <;> decide

/-- A marker that shows is met by the check or hidden from it. -/
theorem Json.Shows.meets_or_hides {payload v : Json} (h : Shows payload v) :
    Guard.Meets payload v ∨ Hides payload v := by
  induction h with
  | marker h => exact .inl (.marker h)
  | item hv _ ih =>
    rcases ih with ih | ih
    · exact .inl (.item hv ih)
    · exact .inr (.item hv ih)
  | @entry key v es hraw hv h ih =>
    -- resolving goes on under every key, the check only under some
    cases hkey : Guard.isNestedKey key with
    | true => exact .inr (.under hraw hv hkey h)
    | false =>
      rcases ih with ih | ih
      · exact .inl (.entry hraw hv hkey ih)
      · exact .inr (.entry hraw hv ih)

/-- A marker that is hidden shows. -/
theorem Json.Hides.shows {payload v : Json} (h : Hides payload v) : Shows payload v := by
  induction h with
  | under hraw hv _ h => exact .entry hraw hv h
  | item hv _ ih => exact .item hv ih
  | entry hraw hv _ ih => exact .entry hraw hv ih

/-- A value that shows a marker contains raw SQL. -/
theorem Json.Shows.containsRaw {payload v : Json} (h : Shows payload v) :
    v.containsRaw = true := by
  induction h with
  | marker h =>
    rw [Json.containsRaw, Entries.has, h]
    rfl
  | item hv _ ih =>
    rw [Json.containsRaw]
    exact containsRawItems_iff.mpr ⟨_, hv, ih⟩
  | entry _ hv _ ih =>
    rw [Json.containsRaw, Bool.or_eq_true]
    exact .inr (containsRawEntries_iff.mpr ⟨_, hv, ih⟩)

/-! ## What is met is judged -/

namespace Guard

variable {guard : Guard}

theorem checkMarkers_of_items {xs : List Json} (h : guard.checkMarkersItems xs = .ok ()) :
    ∀ x ∈ xs, guard.checkMarkers x = .ok () := by
  induction xs with
  | nil => exact fun _ h => by cases h
  | cons x xs ih =>
    rw [checkMarkersItems] at h
    split at h
    next => cases h
    next hx => exact List.forall_mem_cons.mpr ⟨hx, ih h⟩

/-- Entries that pass have values that pass, save under the keys that are passed over. -/
theorem checkMarkers_of_entries {es : Entries} (h : guard.checkMarkersEntries es = .ok ()) :
    ∀ entry ∈ es, isNestedKey entry.1 = false → guard.checkMarkers entry.2 = .ok () := by
  induction es with
  | nil => exact fun _ h => by cases h
  | cons entry es ih =>
    obtain ⟨key, v⟩ := entry
    rw [checkMarkersEntries] at h
    split at h
    next hkey =>
      refine List.forall_mem_cons.mpr ⟨fun hnot => ?_, ih h⟩
      rw [hkey] at hnot
      cases hnot
    next =>
      split at h
      next => cases h
      next hv => exact List.forall_mem_cons.mpr ⟨fun _ => hv, ih h⟩

/-- A marker that is met shows. -/
theorem Meets.shows {payload v : Json} (h : Meets payload v) : Json.Shows payload v := by
  induction h with
  | marker h => exact .marker h
  | item hv _ ih => exact .item hv ih
  | entry hraw hv _ _ ih => exact .entry hraw hv ih

/-- In a value that passes the check, the text of every marker that is met has passed. -/
theorem Meets.checkPayload {payload v : Json} (h : Meets payload v)
    (hcheck : guard.checkMarkers v = .ok ()) : guard.checkPayload payload = .ok () := by
  induction h with
  | marker h =>
    rw [checkMarkers, h] at hcheck
    exact hcheck
  | item hv _ ih =>
    rw [checkMarkers] at hcheck
    exact ih (checkMarkers_of_items hcheck _ hv)
  | entry hraw hv hkey _ ih =>
    rw [checkMarkers, hraw] at hcheck
    exact ih (checkMarkers_of_entries hcheck _ hv hkey)

theorem checkMarkersItems_of_forall {xs : List Json}
    (h : ∀ x ∈ xs, guard.checkMarkers x = .ok ()) : guard.checkMarkersItems xs = .ok () := by
  induction xs with
  | nil => rfl
  | cons x xs ih =>
    obtain ⟨hx, hxs⟩ := List.forall_mem_cons.mp h
    rw [checkMarkersItems, hx]
    exact ih hxs

/-- And the other way round. -/
theorem checkMarkersEntries_of_forall {es : Entries}
    (h : ∀ entry ∈ es, isNestedKey entry.1 = false → guard.checkMarkers entry.2 = .ok ()) :
    guard.checkMarkersEntries es = .ok () := by
  induction es with
  | nil => rfl
  | cons entry es ih =>
    obtain ⟨key, v⟩ := entry
    obtain ⟨hv, hes⟩ := List.forall_mem_cons.mp h
    rw [checkMarkersEntries]
    cases hkey : isNestedKey key with
    | true => exact ih hes
    | false =>
      rw [if_neg Bool.false_ne_true, hv hkey]
      exact ih hes

/-- A value passes the check if the text of every marker that is met passes. -/
theorem checkMarkers_of_meets : ∀ v : Json,
    (∀ payload, Meets payload v → guard.checkPayload payload = .ok ()) →
      guard.checkMarkers v = .ok ()
  | .null, _ => rfl
  | .bool _, _ => rfl
  | .num _, _ => rfl
  | .str _, _ => rfl
  | .arr xs, h => by
    rw [checkMarkers]
    refine checkMarkersItems_of_forall fun x hx => ?_
    have hsize := List.sizeOf_lt_of_mem hx
    exact checkMarkers_of_meets x fun payload hmeets => h payload (.item hx hmeets)
  | .obj es, h => by
    rw [checkMarkers]
    cases hraw : Entries.get? es Json.rawKey with
    | some payload => exact h payload (.marker hraw)
    | none =>
      refine checkMarkersEntries_of_forall fun (key, v) hv hkey => ?_
      have hsize := Json.sizeOf_lt_of_mem_entries hv
      exact checkMarkers_of_meets v fun payload hmeets => h payload (.entry hraw hv hkey hmeets)
termination_by v => sizeOf v

/-- **A value passes the check exactly when the text of every marker that is met passes.** -/
theorem checkMarkers_eq_ok_iff {v : Json} : guard.checkMarkers v = .ok () ↔
    ∀ payload, Meets payload v → guard.checkPayload payload = .ok () :=
  ⟨fun h _ hmeets => hmeets.checkPayload h, checkMarkers_of_meets v⟩

end Guard

/-! ## What shows is resolved -/

namespace Argument

variable {check : String → Except Error Unit} {e : Error}

theorem exists_of_ofEntries_eq_error {es : Entries} (h : ofEntries check es = .error e) :
    ∃ entry ∈ es, ofJson check entry.2 = .error e := by
  rw [ofEntries_eq_mapM] at h
  obtain ⟨entry, hentry, hfails⟩ := Checks.exists_of_mapM_eq_error h
  exact ⟨entry, hentry, Checks.eq_error_of_map hfails⟩

/-- A value that cannot be resolved shows a marker that cannot. -/
theorem exists_shows_of_ofJson : ∀ v : Json, ofJson check v = .error e →
    ∃ payload, Json.Shows payload v ∧ ofPayload check payload = .error e
  | .null, h => by cases h
  | .bool _, h => by cases h
  | .num _, h => by cases h
  | .str _, h => by cases h
  | .arr xs, h => by
    by_cases hplain : (Json.arr xs).containsRaw = false
    · rw [ofJson_of_plain hplain] at h
      cases h
    · rw [ofJson_arr_of_marked hplain] at h
      obtain ⟨x, hx, hfails⟩ := Checks.exists_of_mapM_eq_error (Checks.eq_error_of_map h)
      have hsize := List.sizeOf_lt_of_mem hx
      obtain ⟨payload, hshows, hpayload⟩ := exists_shows_of_ofJson x hfails
      exact ⟨payload, .item hx hshows, hpayload⟩
  | .obj es, h => by
    by_cases hplain : (Json.obj es).containsRaw = false
    · rw [ofJson_of_plain hplain] at h
      cases h
    · cases hraw : Entries.get? es Json.rawKey with
      | some payload =>
        rw [ofJson, hraw] at h
        exact ⟨payload, .marker hraw, h⟩
      | none =>
        rw [ofJson_obj_of_marked hraw hplain] at h
        obtain ⟨⟨key, v⟩, hv, hfails⟩ := exists_of_ofEntries_eq_error (Checks.eq_error_of_map h)
        have hsize := Json.sizeOf_lt_of_mem_entries hv
        obtain ⟨payload, hshows, hpayload⟩ := exists_shows_of_ofJson v hfails
        exact ⟨payload, .entry hraw hv hshows, hpayload⟩
termination_by v => sizeOf v

/-- Arguments that cannot be resolved show a marker that cannot. -/
theorem exists_shows_of_resolveAll {args : List Json} (h : resolveAll check args = .error e) :
    ∃ v ∈ args, ∃ payload, Json.Shows payload v ∧ ofPayload check payload = .error e := by
  rw [resolveAll_eq_mapM] at h
  obtain ⟨v, hv, hfails⟩ := Checks.exists_of_mapM_eq_error h
  exact ⟨v, hv, exists_shows_of_ofJson v hfails⟩

theorem exists_ok_of_ofEntries {es : Entries} {entries : List (String × Argument)}
    (h : ofEntries check es = .ok entries) :
    ∀ entry ∈ es, ∃ a, ofJson check entry.2 = .ok a := by
  rw [ofEntries_eq_mapM] at h
  intro entry hentry
  obtain ⟨_, hread⟩ := Checks.exists_ok_of_mapM h hentry
  obtain ⟨a, ha, -⟩ := Checks.map_eq_ok.mp hread
  exact ⟨a, ha⟩

/-- In a value that can be resolved, so can every marker that shows. -/
theorem exists_ofPayload_of_ofJson {payload v : Json} (h : Json.Shows payload v) {a : Argument}
    (hok : ofJson check v = .ok a) : ∃ raw, ofPayload check payload = .ok raw := by
  -- a value without markers stays plain; here one shows, so every part has been resolved
  induction h generalizing a with
  | marker h =>
    rw [ofJson, h] at hok
    exact ⟨a, hok⟩
  | item hv h ih =>
    rcases ofJson_arr_eq_ok hok with ⟨items, hitems, -⟩ | ⟨hplain, -⟩
    · obtain ⟨b, hb⟩ := Checks.exists_ok_of_mapM hitems hv
      exact ih hb
    · rw [(Json.Shows.item hv h).containsRaw] at hplain
      cases hplain
  | @entry key v es hraw hv h ih =>
    have hmarked : (Json.obj es).containsRaw ≠ false := by
      rw [(Json.Shows.entry hraw hv h).containsRaw]
      exact Bool.noConfusion
    rw [ofJson_obj_of_marked hraw hmarked] at hok
    obtain ⟨entries, hentries, -⟩ := Checks.map_eq_ok.mp hok
    obtain ⟨b, hb⟩ := exists_ok_of_ofEntries hentries _ hv
    exact ih hb

/-- In arguments that can be resolved, so can every marker that shows. -/
theorem exists_ofPayload_of_resolveAll {args : List Json} {out : List Argument}
    (hok : resolveAll check args = .ok out) {v : Json} (hv : v ∈ args) {payload : Json}
    (h : Json.Shows payload v) : ∃ raw, ofPayload check payload = .ok raw := by
  rw [resolveAll_eq_mapM] at hok
  obtain ⟨a, ha⟩ := Checks.exists_ok_of_mapM hok hv
  exact exists_ofPayload_of_ofJson h ha

end Argument

end QueryScript
