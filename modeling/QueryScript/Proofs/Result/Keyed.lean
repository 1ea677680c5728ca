import QueryScript.Proofs.Checks
import QueryScript.Proofs.Json.Keys
import QueryScript.Proofs.Json.Pairs
import QueryScript.Result.Keyed

/-!
# Rows under keys

The columns that a caller names are looked for in the first row only (`Keyed.Refuses`), while every
row that has the key column takes part, whatever else it lacks.  A row with a key that was met
before takes the place of the earlier one (`Entries.lastWins_ofPairs`), so the object has the keys
in the order in which they first occur, and under each what the last row with this key stands for
(`Keyed.ofRows_lastWins`).

What a row stands for is told apart from how it is made (`Keyed.Projects`): of several columns it is
an object whose keys are these columns, each once, also if one is named twice.
-/

namespace QueryScript.Keyed

variable {column : String} {valueKeys : List String}

/-- The key that a row gives, if it has the column: the text of its cell. -/
def keyOf? (column : String) (es : Entries) : Option String :=
  (Entries.get? es column).map keyText

/-- What a row has in a column, and `null` if it lacks the column. -/
def cellOf (es : Entries) (column : String) : Json :=
  (Entries.get? es column).getD .null

/-- What a row stands for: all of it, the cell of one column, or an object with the cells of
several columns. -/
inductive Projects (es : Entries) : List String → Json → Prop where
  | row : Projects es [] (.obj es)
  | cell (key : String) : Projects es [key] (cellOf es key)
  | cells {keys : List String} {fs : Entries} (hkeys : 2 ≤ keys.length)
      (hseen : FirstSeen (Entries.keys fs) keys) (hcells : ∀ key v, (key, v) ∈ fs → v = cellOf es key) :
      Projects es keys (.obj fs)

/-- Why rows are refused: the first one lacks the column of the keys, or else one of the columns of
the values, of which the first in the caller's order is named. -/
inductive Refuses (column : String) (valueKeys : List String) : List Entries → Error → Prop where
  | column {first : Entries} {rest : List Entries} (h : column ∉ Entries.keys first) :
      Refuses column valueKeys (first :: rest) (.columnKey column)
  | value {first : Entries} {rest : List Entries} {before after : List String} {key : String}
      (hcolumn : column ∈ Entries.keys first) (hkeys : valueKeys = before ++ key :: after)
      (hbefore : ∀ k ∈ before, k ∈ Entries.keys first) (hkey : key ∉ Entries.keys first) :
      Refuses column valueKeys (first :: rest) (.valueKey key)

/-! ## Refusals -/

theorem isNone_field?_iff {es : Entries} {key : String} :
    ((Json.obj es).field? key).isNone = true ↔ key ∉ Entries.keys es := by
  rw [Option.isNone_iff_eq_none]
  exact Entries.get?_eq_none_iff

/-- The first column of the values that a row lacks. -/
theorem find?_missing_iff {es : Entries} {key : String} :
    (valueKeys.find? fun key => ((Json.obj es).field? key).isNone) = some key ↔
      ∃ before after, valueKeys = before ++ key :: after ∧ (∀ k ∈ before, k ∈ Entries.keys es) ∧
        key ∉ Entries.keys es := by
  have hpresent : ∀ k, (!((Json.obj es).field? k).isNone) = true ↔ k ∈ Entries.keys es := by
    intro k
    rw [Bool.not_eq_true', ← Bool.not_eq_true, isNone_field?_iff, Classical.not_not]
  simp only [List.find?_eq_some_iff_append, isNone_field?_iff, hpresent]
  constructor
  · rintro ⟨hkey, before, after, hkeys, hbefore⟩
    exact ⟨before, after, hkeys, hbefore, hkey⟩
  · rintro ⟨before, after, hkeys, hbefore, hkey⟩
    exact ⟨hkey, before, after, hkeys, hbefore⟩

/-- The columns of the first row are refused for the same reasons as the rows. -/
theorem checkColumns_eq_error_iff {first : Entries} {rest : List Entries} {e : Error} :
    checkColumns column valueKeys (.obj first) = .error e ↔
      Refuses column valueKeys (first :: rest) e := by
  unfold checkColumns
  by_cases hcolumn : column ∈ Entries.keys first
  · rw [if_neg fun hnone => isNone_field?_iff.mp hnone hcolumn]
    constructor
    · intro h
      split at h
      next key hfind =>
        cases h
        obtain ⟨before, after, hkeys, hbefore, hkey⟩ := find?_missing_iff.mp hfind
        exact .value hcolumn hkeys hbefore hkey
      next => cases h
    · intro h
      cases h with
      | column hnot => exact absurd hcolumn hnot
      | value _ hkeys hbefore hkey =>
        rw [find?_missing_iff.mpr ⟨_, _, hkeys, hbefore, hkey⟩]
  · rw [if_pos (isNone_field?_iff.mpr hcolumn)]
    constructor
    · intro h
      cases h
      exact .column hcolumn
    · intro h
      cases h with
      | column => rfl
      | value hmem => exact absurd hmem hcolumn

/-- **Rows are refused exactly if the first one lacks a column that the caller names.** -/
theorem ofRows_eq_error_iff {rows : List Entries} {e : Error} :
    ofRows (rows.map .obj) column valueKeys = .error e ↔ Refuses column valueKeys rows e := by
  cases rows with
  | nil =>
    constructor
    · intro h
      cases h
    · intro h
      cases h
  | cons first rest =>
    rw [← checkColumns_eq_error_iff, List.map_cons, ofRows]
    constructor
    · intro h
      rcases Checks.bind_eq_error.mp h with hcolumns | ⟨_, -, hpure⟩
      · exact hcolumns
      · cases hpure
    · exact fun h => Checks.bind_eq_error.mpr (.inl h)

/-! ## What is under the keys -/

/-- The model's projection of a row is what the row stands for. -/
theorem projects_projection (valueKeys : List String) (es : Entries) :
    Projects es valueKeys (projection valueKeys es) := by
  match valueKeys with
  | [] => exact .row
  | [key] => exact .cell key
  | key :: key' :: keys =>
    have hlast := Entries.lastWins_ofPairs ((key :: key' :: keys).map fun k => (k, cellOf es k))
    refine .cells (by simp) ?_ fun k v hmem => ?_
    · have hkeys : ((key :: key' :: keys).map fun k => (k, cellOf es k)).map Prod.fst =
          key :: key' :: keys := by
        rw [List.map_map]
        exact List.map_id' _
      have hseen := hlast.keys
      rwa [hkeys] at hseen
    · obtain ⟨before, after, hsplit, -⟩ := hlast.value k v hmem
      have hpair : (k, v) ∈ (key :: key' :: keys).map fun k => (k, cellOf es k) := by
        rw [hsplit]
        simp
      obtain ⟨k', -, heq⟩ := List.mem_map.mp hpair
      obtain ⟨rfl, rfl⟩ := Prod.mk.inj heq
      rfl

theorem pairOf?_obj (column : String) (valueKeys : List String) (es : Entries) :
    pairOf? column valueKeys (.obj es) =
      (keyOf? column es).map fun key => (key, projection valueKeys es) := by
  rw [pairOf?, keyOf?, Option.map_map]
  rfl

/-- The rows as pairs of a key and what stands for the row. -/
def pairs (column : String) (valueKeys : List String) (rows : List Entries) : Entries :=
  rows.filterMap fun es => (keyOf? column es).map fun key => (key, projection valueKeys es)

theorem ofRows_eq_ok {rows : List Entries} (h : ∀ e, ¬ Refuses column valueKeys rows e) :
    ofRows (rows.map .obj) column valueKeys =
      .ok (Entries.ofPairs (pairs column valueKeys rows)) := by
  cases hrun : ofRows (rows.map .obj) column valueKeys with
  | error e => exact absurd (ofRows_eq_error_iff.mp hrun) (h e)
  | ok es =>
    cases rows with
    | nil =>
      cases hrun
      rfl
    | cons first rest =>
      obtain ⟨_, -, hpure⟩ := Checks.bind_eq_ok.mp hrun
      cases hpure
      rw [List.filterMap_map, pairs]
      simp only [Function.comp_def, pairOf?_obj]

theorem keys_pairs (column : String) (valueKeys : List String) (rows : List Entries) :
    (pairs column valueKeys rows).map Prod.fst = rows.filterMap (keyOf? column) := by
  rw [pairs, List.map_filterMap]
  refine List.filterMap_congr fun es _ => ?_
  rw [Option.map_map]
  exact Option.map_id'

/-- **Of the rows with one key the last counts.**  Putting rows under keys fails exactly if the
first row lacks the column of the keys, or else a column of the values.  Otherwise the keys of the
object are the texts of the cells in the key column, each once and in the order in which they first
occur, and under each stands what the last row with that key stands for. -/
theorem ofRows_lastWins (rows : List Entries) (column : String) (valueKeys : List String) :
    (∀ e, ofRows (rows.map .obj) column valueKeys = .error e ↔ Refuses column valueKeys rows e) ∧
    ((∀ e, ¬ Refuses column valueKeys rows e) →
      ∃ es, ofRows (rows.map .obj) column valueKeys = .ok es ∧
        FirstSeen (Entries.keys es) (rows.filterMap (keyOf? column)) ∧
        ∀ key v, (key, v) ∈ es → ∃ before row after, rows = before ++ row :: after ∧
          keyOf? column row = some key ∧ (∀ later ∈ after, keyOf? column later ≠ some key) ∧
          Projects row valueKeys v) := by
  refine ⟨fun e => ofRows_eq_error_iff, fun hrows => ⟨_, ofRows_eq_ok hrows, ?_, ?_⟩⟩
  · have hseen := (Entries.lastWins_ofPairs (pairs column valueKeys rows)).keys
    rwa [keys_pairs] at hseen
  · intro key v hmem
    obtain ⟨before, after, hsplit, hlast⟩ :=
      (Entries.lastWins_ofPairs (pairs column valueKeys rows)).value key v hmem
    obtain ⟨front, rest, rfl, -, hrest⟩ := List.filterMap_eq_append_iff.mp hsplit
    obtain ⟨skipped, row, behind, rfl, -, hrow, hbehind⟩ := List.filterMap_eq_cons_iff.mp hrest
    obtain ⟨key', hkey, heq⟩ := Option.map_eq_some_iff.mp hrow
    obtain ⟨rfl, rfl⟩ := Prod.mk.inj heq
    refine ⟨front ++ skipped, row, behind, by rw [List.append_assoc], hkey, ?_,
      projects_projection valueKeys row⟩
    intro later hlater hsame
    rw [← hbehind] at hlast
    have hmem := List.mem_filterMap.mpr ⟨later, hlater, hsame⟩
    exact hlast ((keys_pairs column valueKeys behind).symm ▸ hmem)

/-- Rows of which two have keys with the same text, a number and a string, and one has no key. -/
def mixedRows : List Entries :=
  [[("id", .nat 1), ("name", .str "ada"), ("role", .str "admin")], [("name", .str "nobody")],
    [("id", .nat 2), ("role", .str "user")], [("role", .str "owner"), ("id", .str "1")]]

theorem ofRows_lastWins_mixedRows :
    (∀ e, ¬ Refuses "id" ["name", "role"] mixedRows e) ∧
      ofRows (mixedRows.map .obj) "id" ["name", "role"] =
        .ok [("1", .obj [("name", .null), ("role", .str "owner")]),
          ("2", .obj [("name", .null), ("role", .str "user")])] ∧
      FirstSeen ["1", "2"] (mixedRows.filterMap (keyOf? "id")) := by
  have hrows : ∀ e, ¬ Refuses "id" ["name", "role"] mixedRows e := by
    intro e h
    rw [← (ofRows_lastWins mixedRows "id" ["name", "role"]).1 e] at h
    cases h
  obtain ⟨es, hes, hseen, -⟩ := (ofRows_lastWins mixedRows "id" ["name", "role"]).2 hrows
  have hrun : ofRows (mixedRows.map .obj) "id" ["name", "role"] =
      .ok [("1", .obj [("name", .null), ("role", .str "owner")]),
        ("2", .obj [("name", .null), ("role", .str "user")])] := by rfl
  rw [hrun] at hes
  cases hes
  exact ⟨hrows, hrun, hseen⟩

end QueryScript.Keyed
