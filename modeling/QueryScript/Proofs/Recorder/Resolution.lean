import QueryScript.Guard.Basic
import QueryScript.Proofs.Guard.Markers
import QueryScript.Proofs.Recorder.Flattening

/-!
# Resolving raw markers

Resolving a value goes wrong where its markers do and nowhere else: it fails with the failure of
the first marker, in the order in which they are written, that cannot be resolved
(`Argument.failure?_ofJson`).  What a marker needs is said by `RawSql.Written`, what can be wrong
with it by `RawSql.Malformed` and, once it is well formed, by the catalog.

What a value is resolved to, flattened, is the value with its markers spelled out
(`Argument.toJson_of_ofJson`).  That values without markers stay plain saves work and changes
nothing: they have no payloads, and they are spelled out already.
-/

namespace QueryScript

/-! ## Markers in order -/

namespace Json

mutual

/-- The payloads of the raw markers in a value, in the order in which they are written.  What
stands inside a marker is no marker. -/
def payloads : Json → List Json
  | .arr xs => payloadsItems xs
  | .obj es =>
    match Entries.get? es rawKey with
    | some payload => [payload]
    | none => payloadsEntries es
  | _ => []

/-- The payloads of the raw markers in the items. -/
def payloadsItems : List Json → List Json
  | [] => []
  | x :: rest => payloads x ++ payloadsItems rest

/-- The payloads of the raw markers in the values. -/
def payloadsEntries : List (String × Json) → List Json
  | [] => []
  | (_, v) :: rest => payloads v ++ payloadsEntries rest

end

/-- The payload of a raw marker in object form. -/
def objectForm : Json → Json
  | .str sql => .obj [("sql", .str sql), ("bindings", .arr [])]
  | payload =>
    .obj [("sql", (payload.field? "sql").getD .null),
      ("bindings", .arr (((payload.field? "bindings").bind array?).getD []))]

theorem objectForm_obj (es : Entries) :
    objectForm (.obj es) = .obj [("sql", (Entries.get? es "sql").getD .null),
      ("bindings", .arr (((Entries.get? es "bindings").bind array?).getD []))] := rfl

mutual

/-- The value with each raw marker in object form. -/
def spelledOut : Json → Json
  | .arr xs => .arr (spelledOutItems xs)
  | .obj es =>
    match Entries.get? es rawKey with
    | some payload => .obj [(rawKey, payload.objectForm)]
    | none => .obj (spelledOutEntries es)
  | v => v

/-- The items with each raw marker in object form. -/
def spelledOutItems : List Json → List Json
  | [] => []
  | x :: rest => spelledOut x :: spelledOutItems rest

/-- The entries with each raw marker in object form. -/
def spelledOutEntries : List (String × Json) → List (String × Json)
  | [] => []
  | (key, v) :: rest => (key, spelledOut v) :: spelledOutEntries rest

end

variable {v : Json} {payload : Json}

/-- The payloads in items are met item by item. -/
theorem payloadsItems_eq_flatMap (xs : List Json) : payloadsItems xs = xs.flatMap payloads := by
  induction xs with
  | nil => rfl
  | cons x xs ih => rw [payloadsItems, ih, List.flatMap_cons]

/-- The payloads in entries are met value by value. -/
theorem payloadsEntries_eq_flatMap (es : Entries) :
    payloadsEntries es = es.flatMap fun entry => payloads entry.2 := by
  induction es with
  | nil => rfl
  | cons entry es ih =>
    obtain ⟨key, v⟩ := entry
    rw [payloadsEntries, ih, List.flatMap_cons]

theorem spelledOutItems_eq_map (xs : List Json) : spelledOutItems xs = xs.map spelledOut := by
  induction xs with
  | nil => rfl
  | cons x xs ih => rw [spelledOutItems, ih, List.map_cons]

theorem spelledOutEntries_eq_map (es : Entries) :
    spelledOutEntries es = es.map fun entry => (entry.1, spelledOut entry.2) := by
  induction es with
  | nil => rfl
  | cons entry es ih =>
    obtain ⟨key, v⟩ := entry
    rw [spelledOutEntries, ih, List.map_cons]

/-- The payloads are those of the markers that show. -/
theorem mem_payloads_iff : payload ∈ v.payloads ↔ Shows payload v := by
  constructor
  · intro h
    induction v using Json.induction with
    | null => cases h
    | bool b => cases h
    | num n => cases h
    | str s => cases h
    | arr xs ih =>
      rw [payloads, payloadsItems_eq_flatMap] at h
      obtain ⟨x, hx, h⟩ := List.mem_flatMap.mp h
      exact .item hx (ih x hx h)
    | obj es ih =>
      rw [payloads] at h
      cases hraw : Entries.get? es rawKey with
      | some p =>
        rw [hraw] at h
        obtain rfl := List.mem_singleton.mp h
        exact .marker hraw
      | none =>
        rw [hraw] at h
        dsimp only at h
        rw [payloadsEntries_eq_flatMap] at h
        obtain ⟨entry, hentry, h⟩ := List.mem_flatMap.mp h
        exact .entry hraw hentry (ih entry hentry h)
  · intro h
    induction h with
    | marker hraw =>
      rw [payloads, hraw]
      exact List.mem_singleton_self _
    | item hx _ ih =>
      rw [payloads, payloadsItems_eq_flatMap]
      exact List.mem_flatMap.mpr ⟨_, hx, ih⟩
    | entry hraw hentry _ ih =>
      rw [payloads, hraw]
      dsimp only
      rw [payloadsEntries_eq_flatMap]
      exact List.mem_flatMap.mpr ⟨_, hentry, ih⟩

/-- A value without raw markers has no payloads. -/
theorem payloads_of_plain (h : v.containsRaw = false) : v.payloads = [] := by
  rw [List.eq_nil_iff_forall_not_mem]
  intro payload hmem
  rw [(mem_payloads_iff.mp hmem).containsRaw] at h
  cases h

/-- A value without raw markers is spelled out already. -/
theorem spelledOut_of_plain (h : v.containsRaw = false) : v.spelledOut = v := by
  induction v using Json.induction with
  | null => rfl
  | bool b => rfl
  | num n => rfl
  | str s => rfl
  | arr xs ih =>
    have hitems : ∀ x ∈ xs, x.spelledOut = x := fun x hx =>
      ih x hx (containsRaw_arr_eq_false.mp h x hx)
    rw [spelledOut, spelledOutItems_eq_map, List.map_congr_left hitems, List.map_id']
  | obj es ih =>
    obtain ⟨hnone, hplain⟩ := containsRaw_obj_eq_false.mp h
    have hentries : ∀ entry ∈ es, (entry.1, entry.2.spelledOut) = entry := by
      intro entry hentry
      rw [ih entry hentry (hplain entry hentry)]
    rw [spelledOut, hnone]
    dsimp only
    rw [spelledOutEntries_eq_map, List.map_congr_left hentries, List.map_id']

end Json

/-! ## What a marker needs -/

/-- The raw SQL that a payload writes: a text, or an object with a text under `sql` and with
bindings that are absent, `null` or an array. -/
inductive RawSql.Written : Json → RawSql → Prop where
  | text (sql : String) : Written (.str sql) ⟨sql, []⟩
  | unbound {es : Entries} {sql : String} (hsql : Entries.get? es "sql" = some (.str sql))
      (hnone : Entries.get? es "bindings" = none ∨ Entries.get? es "bindings" = some .null) :
      Written (.obj es) ⟨sql, []⟩
  | bound {es : Entries} {sql : String} {bindings : List Json}
      (hsql : Entries.get? es "sql" = some (.str sql))
      (hbindings : Entries.get? es "bindings" = some (.arr bindings)) :
      Written (.obj es) ⟨sql, bindings⟩

/-- What is wrong with the form of a payload.  The bindings are looked at only if the text is
there. -/
inductive RawSql.Malformed : Json → Error → Prop where
  | kind {payload : Json} (htext : payload.string? = none) (hobject : payload.isObject = false) :
      Malformed payload (.rawMarker ("expected a string or an object, got " ++ payload.kindName))
  | sql {es : Entries} (h : (Entries.get? es "sql").bind Json.string? = none) :
      Malformed (.obj es) (.rawMarker "object form requires a string 'sql' field")
  | bindings {es : Entries} {sql : String} {v : Json}
      (hsql : Entries.get? es "sql" = some (.str sql)) (hv : Entries.get? es "bindings" = some v)
      (hnull : v ≠ .null) (harray : v.isArray = false) :
      Malformed (.obj es) (.rawMarker "'bindings' must be an array")

/-- A marker that the guard lets through: it is well formed, and no rule matches its text. -/
def Guard.Accepts (guard : Guard) (payload : Json) : Prop :=
  ∃ r, RawSql.Written payload r ∧ guard.catalog.findMatch? r.sql = none

/-- Why the guard does not let a marker through: for its form, or for its text. -/
inductive Guard.Rejects (guard : Guard) (payload : Json) : Error → Prop where
  | malformed {e : Error} (h : RawSql.Malformed payload e) : Rejects guard payload e
  | dangerous {r : RawSql} {hit : Hit} (h : RawSql.Written payload r)
      (hhit : guard.catalog.findMatch? r.sql = some hit) :
      Rejects guard payload (.dangerousSql hit.category.name hit.name)

namespace RawSql

variable {payload : Json} {r : RawSql} {e : Error}

/-- A payload writes raw SQL or is malformed in some way. -/
theorem written_or_malformed (payload : Json) :
    (∃ r, Written payload r) ∨ ∃ e, Malformed payload e := by
  cases payload with
  | str sql => exact .inl ⟨_, .text sql⟩
  | obj es =>
    cases hsql : (Entries.get? es "sql").bind Json.string? with
    | none => exact .inr ⟨_, .sql hsql⟩
    | some sql =>
      obtain ⟨v, hv, hstr⟩ := Option.bind_eq_some_iff.mp hsql
      obtain rfl : v = .str sql := by cases v <;> simp_all [Json.string?]
      cases hbindings : Entries.get? es "bindings" with
      | none => exact .inl ⟨_, .unbound hv (.inl hbindings)⟩
      | some b =>
        cases b with
        | null => exact .inl ⟨_, .unbound hv (.inr hbindings)⟩
        | arr items => exact .inl ⟨_, .bound hv hbindings⟩
        | _ => exact .inr ⟨_, .bindings hv hbindings nofun rfl⟩
  | _ => exact .inr ⟨_, .kind rfl rfl⟩

/-- The object form of a payload shows the text and the bindings that it writes. -/
theorem Written.objectForm (h : Written payload r) :
    payload.objectForm = .obj [("sql", .str r.sql), ("bindings", .arr r.bindings)] := by
  cases h with
  | text sql => rfl
  | unbound hsql hnone =>
    rw [Json.objectForm_obj, hsql]
    rcases hnone with hnone | hnone <;> rw [hnone] <;> rfl
  | bound hsql hbindings =>
    rw [Json.objectForm_obj, hsql, hbindings]
    rfl

end RawSql

namespace Argument

variable {check : String → Except Error Unit} {payload : Json} {r : RawSql} {e : Error}

/-- A well-formed marker is resolved if its text passes. -/
theorem ofPayload_of_written (h : RawSql.Written payload r) :
    ofPayload check payload = (check r.sql).map fun _ => .raw r := by
  have hpass : ∀ sql bindings, payloadSql payload = .ok sql →
      payloadBindings payload = .ok bindings →
      ofPayload check payload = (check sql).map fun _ => .raw ⟨sql, bindings⟩ := by
    intro sql bindings hsql hbindings
    rw [ofPayload, hsql]
    show (payloadBindings payload >>= _) = _
    rw [hbindings]
    show (check sql >>= _) = _
    cases check sql <;> rfl
  cases h with
  | text sql => exact hpass sql [] rfl rfl
  | unbound hsql hnone =>
    refine hpass _ [] (by rw [payloadSql, hsql]; rfl) ?_
    rcases hnone with hnone | hnone <;> rw [payloadBindings, Json.field?, hnone]
  | bound hsql hbindings =>
    refine hpass _ _ (by rw [payloadSql, hsql]; rfl) ?_
    rw [payloadBindings, Json.field?, hbindings]

/-- A malformed marker fails before its text is looked at. -/
theorem ofPayload_of_malformed (h : RawSql.Malformed payload e) :
    ofPayload check payload = .error e := by
  have hfail : payloadSql payload = .error e → ofPayload check payload = .error e := by
    intro hsql
    rw [ofPayload, hsql]
    rfl
  cases h with
  | kind htext hobject =>
    refine hfail ?_
    cases payload <;> simp_all [payloadSql, Json.string?, Json.isObject]
  | sql h => exact hfail (by rw [payloadSql, h])
  | @bindings es sql v hsql hv hnull harray =>
    have hrefused :
        payloadBindings (.obj es) = .error (.rawMarker "'bindings' must be an array") := by
      rw [payloadBindings, Json.field?, hv]
      cases v <;> simp_all [Json.isArray]
    rw [ofPayload, show payloadSql (.obj es) = .ok sql by rw [payloadSql, hsql]; rfl]
    show (payloadBindings (.obj es) >>= _) = _
    rw [hrefused]
    rfl

/-! ## Resolving values -/

/-- **Resolving a value fails as the first of its markers that cannot be resolved.** -/
theorem failure?_ofJson (check : String → Except Error Unit) (v : Json) :
    Checks.failure? (ofJson check v) =
      v.payloads.findSome? fun payload => Checks.failure? (ofPayload check payload) := by
  induction v using Json.induction with
  | null => rfl
  | bool b => rfl
  | num n => rfl
  | str s => rfl
  | arr xs ih =>
    by_cases hplain : (Json.arr xs).containsRaw = false
    · rw [ofJson_of_plain hplain, Json.payloads_of_plain hplain]
      rfl
    · rw [ofJson_arr_of_marked hplain, Checks.failure?_map, Json.payloads,
        Json.payloadsItems_eq_flatMap]
      exact Checks.failure?_mapM ih
  | obj es ih =>
    by_cases hplain : (Json.obj es).containsRaw = false
    · rw [ofJson_of_plain hplain, Json.payloads_of_plain hplain]
      rfl
    · cases hraw : Entries.get? es Json.rawKey with
      | some payload =>
        rw [ofJson, Json.payloads, hraw, List.findSome?_singleton]
      | none =>
        rw [ofJson_obj_of_marked hraw hplain, Checks.failure?_map, ofEntries_eq_mapM,
          Json.payloads, hraw]
        dsimp only
        rw [Json.payloadsEntries_eq_flatMap]
        refine Checks.failure?_mapM fun entry hentry => ?_
        rw [Checks.failure?_map, ih entry hentry]

/-- A marker that is resolved is flattened to its object form. -/
theorem toJson_of_ofPayload {a : Argument} (h : ofPayload check payload = .ok a) :
    a.toJson = .obj [(Json.rawKey, payload.objectForm)] := by
  rcases RawSql.written_or_malformed payload with ⟨r, hr⟩ | ⟨e, he⟩
  · rw [ofPayload_of_written hr] at h
    cases hcheck : check r.sql with
    | error e =>
      rw [hcheck] at h
      cases h
    | ok _ =>
      rw [hcheck] at h
      cases h
      rw [toJson, hr.objectForm]
  · rw [ofPayload_of_malformed he] at h
    cases h

/-- **What a value is resolved to, flattened, is the value with its markers spelled out.** -/
theorem toJson_of_ofJson {v : Json} {a : Argument} (h : ofJson check v = .ok a)
    (hkeys : v.KeysDistinct) : a.toJson = v.spelledOut := by
  induction v using Json.induction generalizing a with
  | null =>
    cases h
    rfl
  | bool b =>
    cases h
    rfl
  | num n =>
    cases h
    rfl
  | str s =>
    cases h
    rfl
  | arr xs ih =>
    have hvalues := Json.keysDistinct_arr.mp hkeys
    rcases ofJson_arr_eq_ok h with ⟨items, hitems, rfl⟩ | ⟨hplain, rfl⟩
    · have hflat : items.map toJson = xs.map Json.spelledOut :=
        Checks.map_eq_of_mapM hitems fun x hx a ha => ih x hx ha (hvalues x hx)
      rw [toJson, toJsonItems_eq_map, hflat, Json.spelledOut, Json.spelledOutItems_eq_map]
    · rw [Json.spelledOut_of_plain hplain, toJson]
  | obj es ih =>
    obtain ⟨hnames, hvalues⟩ := Json.keysDistinct_obj.mp hkeys
    by_cases hplain : (Json.obj es).containsRaw = false
    · rw [ofJson_of_plain hplain] at h
      cases h
      rw [Json.spelledOut_of_plain hplain, toJson]
    · cases hraw : Entries.get? es Json.rawKey with
      | some payload =>
        rw [ofJson, hraw] at h
        rw [Json.spelledOut, hraw]
        exact toJson_of_ofPayload h
      | none =>
        rw [ofJson_obj_of_marked hraw hplain] at h
        obtain ⟨entries, hentries, rfl⟩ := Checks.map_eq_ok.mp h
        rw [ofEntries_eq_mapM] at hentries
        have hread : ∀ entry ∈ es, ∀ entry', (ofJson check entry.2).map (entry.1, ·) = .ok entry' →
            (entry'.1, toJson entry'.2) = (entry.1, entry.2.spelledOut) := by
          intro entry hentry entry' hok
          obtain ⟨a, ha, rfl⟩ := Checks.map_eq_ok.mp hok
          rw [ih entry hentry ha (hvalues entry hentry)]
        -- the keys are those of the object, so no entry of the map is written over another
        have hflat := Checks.map_eq_of_mapM hentries hread
        have hnodup : (entries.map Prod.fst).Nodup := by
          have hfst := congrArg (List.map Prod.fst) hflat
          rw [List.map_map, List.map_map] at hfst
          exact hfst ▸ hnames
        rw [toJson_map hnodup, hflat, Json.spelledOut, hraw]
        dsimp only
        rw [Json.spelledOutEntries_eq_map]

/-! ## What the guard lets through -/

section Guarded

variable {guard : Guard}

/-- A payload that is accepted is resolved. -/
theorem exists_ofPayload_of_accepts (h : guard.Accepts payload) :
    ∃ a, ofPayload guard.checkSql payload = .ok a := by
  obtain ⟨r, hr, hnone⟩ := h
  rw [ofPayload_of_written hr, Guard.checkSql, Catalog.check, hnone]
  exact ⟨_, rfl⟩

/-- A payload that is rejected fails with the reason. -/
theorem ofPayload_of_rejects (h : guard.Rejects payload e) :
    ofPayload guard.checkSql payload = .error e := by
  cases h with
  | malformed h => exact ofPayload_of_malformed h
  | dangerous h hhit =>
    rw [ofPayload_of_written h, Guard.checkSql, Catalog.check, hhit]
    rfl

/-- There is nothing between accepting and rejecting. -/
theorem accepts_or_rejects (guard : Guard) (payload : Json) :
    guard.Accepts payload ∨ ∃ e, guard.Rejects payload e := by
  rcases RawSql.written_or_malformed payload with ⟨r, hr⟩ | ⟨e, he⟩
  · cases hhit : guard.catalog.findMatch? r.sql with
    | none => exact .inl ⟨r, hr, hhit⟩
    | some hit => exact .inr ⟨_, .dangerous hr hhit⟩
  · exact .inr ⟨e, .malformed he⟩

theorem failure?_ofPayload_eq_none :
    Checks.failure? (ofPayload guard.checkSql payload) = none ↔ guard.Accepts payload := by
  rw [Checks.failure?_eq_none]
  constructor
  · intro ⟨a, ha⟩
    rcases accepts_or_rejects guard payload with h | ⟨e, h⟩
    · exact h
    · rw [ofPayload_of_rejects h] at ha
      cases ha
  · exact exists_ofPayload_of_accepts

theorem failure?_ofPayload_eq_some :
    Checks.failure? (ofPayload guard.checkSql payload) = some e ↔ guard.Rejects payload e := by
  rw [Checks.failure?_eq_some]
  constructor
  · intro he
    rcases accepts_or_rejects guard payload with h | ⟨e', h⟩
    · obtain ⟨a, ha⟩ := exists_ofPayload_of_accepts h
      rw [ha] at he
      cases he
    · rw [ofPayload_of_rejects h] at he
      exact Except.error.inj he ▸ h
  · exact ofPayload_of_rejects

/-- Resolving fails with the failure of the first payload that has one. -/
theorem failure?_resolveAll (guard : Guard) (args : List Json) :
    Checks.failure? (resolveAll guard.checkSql args) =
      (args.flatMap Json.payloads).findSome? fun payload =>
        Checks.failure? (ofPayload guard.checkSql payload) := by
  rw [resolveAll_eq_mapM]
  exact Checks.failure?_mapM fun v _ => failure?_ofJson guard.checkSql v

/-- **Resolving raw markers is exact.**  Looking for markers first changes nothing: the arguments
are resolved as each of them alone is.  They are resolved exactly when the guard accepts every
marker that shows in them, and otherwise fail as the first marker, in the order in which they
are written, that the guard rejects.  What they are resolved to, flattened, is what was given,
with every marker in object form. -/
theorem resolveAll_resolvesMarkers (guard : Guard) (args : List Json) :
    resolveAll guard.checkSql args = args.mapM (ofJson guard.checkSql) ∧
    ((∃ out, resolveAll guard.checkSql args = .ok out) ↔
      ∀ v ∈ args, ∀ payload, Json.Shows payload v → guard.Accepts payload) ∧
    (∀ e, resolveAll guard.checkSql args = .error e ↔
      ∃ before payload after, args.flatMap Json.payloads = before ++ payload :: after ∧
        (∀ p ∈ before, guard.Accepts p) ∧ guard.Rejects payload e) ∧
    ∀ out, resolveAll guard.checkSql args = .ok out → (∀ v ∈ args, v.KeysDistinct) →
      out.map toJson = args.map Json.spelledOut := by
  refine ⟨resolveAll_eq_mapM args, ?_, ?_, ?_⟩
  · rw [← Checks.failure?_eq_none, failure?_resolveAll, List.findSome?_eq_none_iff]
    simp only [failure?_ofPayload_eq_none, List.mem_flatMap, Json.mem_payloads_iff]
    exact ⟨fun h v hv payload hshows => h payload ⟨v, hv, hshows⟩,
      fun h payload ⟨v, hv, hshows⟩ => h v hv payload hshows⟩
  · intro e
    rw [← Checks.failure?_eq_some, failure?_resolveAll, List.findSome?_eq_some_iff]
    simp only [failure?_ofPayload_eq_none, failure?_ofPayload_eq_some]
    exact ⟨fun ⟨before, payload, after, hsplit, hrejects, haccepts⟩ =>
        ⟨before, payload, after, hsplit, haccepts, hrejects⟩,
      fun ⟨before, payload, after, hsplit, haccepts, hrejects⟩ =>
        ⟨before, payload, after, hsplit, hrejects, haccepts⟩⟩
  · intro out hout hkeys
    rw [resolveAll_eq_mapM] at hout
    exact Checks.map_eq_of_mapM hout fun v hv a ha => toJson_of_ofJson ha (hkeys v hv)

/-- Settings that refuse SQL with the word `drop`. -/
def noDrops : SecuritySettings where
  replaceDefaultPatterns := true
  rawPatterns := [⟨.statement, "drop", "drop", ["drop"]⟩]

/-- A list with a marker among plain items, and a marker with a binding below a key. -/
def markedArgs : List Json :=
  [.str "age", .arr [.obj [("$raw", .str "now()")], .arr [.nat 3]],
    .obj [("by", .obj [("$raw", .obj [("sql", .str "? > 1"), ("bindings", .arr [.nat 2])])]),
      ("note", .null)]]

theorem resolveAll_resolvesMarkers_markedArgs : ∃ guard, Guard.ofSettings noDrops = .ok guard ∧
    ∃ out, resolveAll guard.checkSql markedArgs = .ok out ∧
      (∀ v ∈ markedArgs, v.KeysDistinct) ∧
      out.map toJson = markedArgs.map Json.spelledOut := by
  have hresolved : ∃ guard, Guard.ofSettings noDrops = .ok guard ∧
      ∃ out, resolveAll guard.checkSql markedArgs = .ok out := ⟨_, rfl, _, rfl⟩
  have hkeys : ∀ v ∈ markedArgs, v.KeysDistinct := by
    simp [markedArgs, Json.nat, Entries.keys]
  obtain ⟨guard, hguard, out, hout⟩ := hresolved
  obtain ⟨-, -, -, hflat⟩ := resolveAll_resolvesMarkers guard markedArgs
  exact ⟨guard, hguard, out, hout, hkeys, hflat out hout hkeys⟩

end Guarded

end Argument

end QueryScript
