import QueryScript.Proofs.Json.Keys
import QueryScript.Proofs.Result.Inference
import QueryScript.Result.Tabular

/-!
# Tables of rows

One pass over the entries of all rows groups the cells by their keys, and keeps of each group
the tally of its types (`Census.groups_ofRows`).  So the columns of a table can be told without
the pass: their names are the keys in the order in which they first occur
(`Tabular.firstSeen_names`), and the type of each is resolved from the values that its key finds
in the rows (`Tabular.columns_ofRows`), so it is the one that the rules settle for the types of
these values (`Tabular.type_eq_iff_settles`).

A table keeps everything that the rows say: going back gives each row its own entries and `null`
for the rest, and the table of those rows is the same table (`Tabular.restores_rows`).
-/

namespace QueryScript

/-! ## The pass over the entries -/

namespace Census

/-- The cells of some rows, each under its key. -/
def cells (rows : List Json) : Entries :=
  rows.flatMap fun row => row.entries?.getD []

/-- The tally of the types of some cells. -/
def tallyOf (cells : Entries) : Tally :=
  cells.foldl (fun tally cell => tally.addValue cell.2) []

/-- A cell goes to the group of its key. -/
theorem put_addCell (census : Census) (cell : String × Json) :
    Put cell.1 (tallyOf []) (·.addValue cell.2) census (census.addCell cell.1 cell.2) := by
  induction census with
  | nil => exact .opened (by simp)
  | cons entry rest ih =>
    obtain ⟨n, tally⟩ := entry
    rw [addCell]
    by_cases hn : n = cell.1
    · rw [if_pos hn, hn]
      exact .head rest
    · rw [if_neg hn]
      exact ih.cons hn

/-- The pass over the rows is a pass over their cells. -/
theorem ofRows_eq_foldl (rows : List Json) :
    ofRows rows = (cells rows).foldl (fun census cell => addCell census cell.1 cell.2) [] := by
  rw [cells, List.foldl_flatMap, ofRows]
  congr 1
  funext census row
  cases row <;> rfl

/-- **The pass groups the cells by their keys, each group with the tally of its types.** -/
theorem groups_ofRows (rows : List Json) :
    Groups Prod.fst tallyOf (ofRows rows) (cells rows) := by
  have hnil : Groups Prod.fst tallyOf ([] : Census) [] := .nil
  have h := hnil.foldl (fun _ _ => List.foldl_append ..) put_addCell (cells rows)
  rwa [List.nil_append, ← ofRows_eq_foldl] at h

/-- Cells without a type do not count. -/
theorem tallyOf_eq (cells : Entries) :
    tallyOf cells = Tally.ofTypes ((cells.map Prod.snd).filterMap ColumnType.detect) := by
  rw [tallyOf, Tally.ofTypes, List.foldl_filterMap, List.foldl_map]
  congr 1
  funext tally cell
  unfold Tally.addValue
  split <;> simp_all

end Census

namespace Tabular

variable {rows : List Json} {name : String}

/-- What a row has under a name, and `null` if it has nothing there. -/
def cell (row : Json) (name : String) : Json :=
  (row.field? name).getD .null

/-- The types of the values under a name, in row order; `null` has none. -/
def typesUnder (rows : List Json) (name : String) : List ColumnType :=
  rows.filterMap fun row => ColumnType.detect (cell row name)

/-- The keys of each row that is an object are distinct. -/
def DistinctKeys (rows : List Json) : Prop :=
  ∀ es, .obj es ∈ rows → (Entries.keys es).Nodup

/-- The cells of a row under a name are what the name finds in it. -/
theorem types_of_row {row : Json} (h : ∀ es, row = .obj es → (Entries.keys es).Nodup)
    (name : String) :
    (((row.entries?.getD []).filter (·.1 = name)).map Prod.snd).filterMap ColumnType.detect =
      (ColumnType.detect (cell row name)).toList := by
  cases row with
  | obj es =>
    show ((es.filter (·.1 = name)).map Prod.snd).filterMap ColumnType.detect = _
    rw [Entries.filter_key (h es rfl), cell, Json.field?]
    cases Entries.get? es name with
    | none => rfl
    | some v =>
      show [v].filterMap ColumnType.detect = (ColumnType.detect v).toList
      rw [List.filterMap_cons]
      cases ColumnType.detect v <;> rfl
  | _ => rfl

/-- The types of the cells under a name, row by row. -/
theorem types_of_cells (h : DistinctKeys rows) :
    (((Census.cells rows).filter (·.1 = name)).map Prod.snd).filterMap ColumnType.detect =
      typesUnder rows name := by
  induction rows with
  | nil => rfl
  | cons row rows ih =>
    have hrow := types_of_row (fun es hes => h es (hes ▸ List.mem_cons_self ..)) name
    have hrest := ih fun es hes => h es (List.mem_cons_of_mem _ hes)
    rw [Census.cells] at hrest ⊢
    rw [List.flatMap_cons, List.filter_append, List.map_append, List.filterMap_append, hrow, hrest,
      typesUnder, typesUnder, List.filterMap_cons]
    cases ColumnType.detect (cell row name) <;> rfl

/-! ## Columns -/

/-- The names of a table's columns. -/
def names (t : Tabular) : List String :=
  t.columns.map (·.name)

theorem names_ofRows (rows : List Json) : (ofRows rows).names = (Census.ofRows rows).names := by
  simp [names, ofRows, Census.names]

theorem keys_cells (rows : List Entries) :
    (Census.cells (rows.map .obj)).map Prod.fst = rows.flatMap Entries.keys := by
  rw [Census.cells, List.flatMap_map, List.map_flatMap]
  rfl

/-- **The names of the columns are the keys of all rows, in the order in which they first
occur.** -/
theorem firstSeen_names (rows : List Entries) :
    FirstSeen (ofRows (rows.map .obj)).names (rows.flatMap Entries.keys) := by
  rw [names_ofRows, ← keys_cells]
  exact (Census.groups_ofRows _).seen

/-- The columns have distinct names. -/
theorem nodup_names (rows : List Json) : (ofRows rows).names.Nodup := by
  rw [names_ofRows]
  exact (Census.groups_ofRows rows).seen.nodup

/-- **The type of each column is settled by the values under its name.** -/
theorem columns_ofRows (h : DistinctKeys rows) :
    (ofRows rows).columns = (ofRows rows).names.map fun name =>
      ⟨name, (Tally.ofTypes (typesUnder rows name)).resolve⟩ := by
  rw [names_ofRows, Census.names, List.map_map]
  refine List.map_congr_left fun (name, tally) hmem => ?_
  have htally := (Census.groups_ofRows rows).summed name tally hmem
  rw [Census.tallyOf_eq, types_of_cells h] at htally
  rw [htally]
  rfl

/-- The rows of a table, cell by cell. -/
theorem rows_ofRows (rows : List Json) :
    (ofRows rows).rows = rows.map fun row => (ofRows rows).names.map (cell row) := by
  rw [names_ofRows]
  rfl

/-- A key of a row that is an object. -/
def IsKey (rows : List Json) (name : String) : Prop :=
  ∃ es, .obj es ∈ rows ∧ name ∈ Entries.keys es

/-- A table has a column for each key of its rows, and no other column. -/
theorem mem_names_ofRows : name ∈ (ofRows rows).names ↔ IsKey rows name := by
  have hseen : name ∈ (Census.ofRows rows).names ↔ name ∈ (Census.cells rows).map Prod.fst :=
    (Census.groups_ofRows rows).seen.mem_iff name
  rw [names_ofRows, hseen, Census.cells, List.map_flatMap, List.mem_flatMap]
  constructor
  · rintro ⟨row, hrow, hname⟩
    cases row with
    | obj es => exact ⟨es, hrow, hname⟩
    | _ => cases hname
  · rintro ⟨es, hes, hname⟩
    exact ⟨.obj es, hes, hname⟩

/-- **The type of a column is the one that the rules settle for the values under its name.**
There is a column for each key of the rows, and its type depends on the types of these values
alone, in the order of the rows. -/
theorem type_eq_iff_settles (hrows : DistinctKeys rows) :
    (∀ name, IsKey rows name ↔ ∃ column ∈ (ofRows rows).columns, column.name = name) ∧
    ∀ column ∈ (ofRows rows).columns, ∀ type,
      column.type = type ↔ ColumnType.Settles (typesUnder rows column.name) type := by
  refine ⟨fun name => by rw [← mem_names_ofRows, names, List.mem_map], ?_⟩
  intro column hcolumn type
  have htype : column.type = (Tally.ofTypes (typesUnder rows column.name)).resolve := by
    rw [columns_ofRows hrows] at hcolumn
    obtain ⟨name, -, rfl⟩ := List.mem_map.mp hcolumn
    rfl
  have hsettles := Tally.settles_resolve (Tally.counts_ofTypes (typesUnder rows column.name))
  rw [htype]
  constructor
  · intro h
    rwa [← h]
  · exact hsettles.unique

/-- Booleans under a name more often than anything else, and a number beside a text. -/
def codeRows : List Json :=
  [.obj [("code", .bool true)], .obj [("code", .bool false)], .obj [],
    .obj [("id", .nat 1), ("code", .nat 4)], .obj [("code", .str "n/a"), ("id", .null)]]

theorem type_eq_iff_settles_codeRows :
    DistinctKeys codeRows ∧ ⟨"code", .varchar⟩ ∈ (ofRows codeRows).columns ∧
      typesUnder codeRows "code" = [.boolean, .boolean, .integer, .varchar] ∧
      ColumnType.Settles [.boolean, .boolean, .integer, .varchar] .varchar ∧
      IsKey codeRows "id" ∧ ∃ column ∈ (ofRows codeRows).columns, column.name = "id" := by
  have hrows : DistinctKeys codeRows := by
    intro es hes
    simp only [codeRows, List.mem_cons, Json.obj.injEq, List.not_mem_nil, or_false] at hes
    rcases hes with rfl | rfl | rfl | rfl | rfl <;> decide
  have hcolumn : ⟨"code", .varchar⟩ ∈ (ofRows codeRows).columns := List.mem_cons_self ..
  have htypes : typesUnder codeRows "code" = [.boolean, .boolean, .integer, .varchar] := by rfl
  have hkey : IsKey codeRows "id" :=
    ⟨[("id", .nat 1), ("code", .nat 4)], by simp [codeRows], List.mem_cons_self ..⟩
  obtain ⟨hnames, hsettled⟩ := type_eq_iff_settles hrows
  exact ⟨hrows, hcolumn, htypes, htypes ▸ (hsettled _ hcolumn .varchar).mp rfl, hkey,
    (hnames "id").mp hkey⟩

/-! ## Back to rows -/

/-- A row as it comes back from a table with these names. -/
def restored (names : List String) (row : Json) : Entries :=
  names.map fun name => (name, cell row name)

theorem keys_restored (names : List String) (row : Json) :
    Entries.keys (restored names row) = names := by
  simp [Entries.keys, restored, Function.comp_def]

/-- A row that comes back has under each name what it had. -/
theorem cell_restored {names : List String} (row : Json) (h : name ∈ names) :
    cell (.obj (restored names row)) name = cell row name := by
  rw [cell, Json.field?, restored, Entries.get?_map, if_pos h]
  rfl

/-- Each row comes back with a cell under every name. -/
theorem toRows_ofRows (rows : List Json) :
    (ofRows rows).toRows = rows.map fun row => .obj (restored (ofRows rows).names row) := by
  rw [toRows, rows_ofRows, List.map_map]
  refine List.map_congr_left fun row _ => ?_
  show Json.obj (Entries.ofPairs ((ofRows rows).names.zip ((ofRows rows).names.map (cell row)))) = _
  rw [← List.map_prod_left_eq_zip, ← restored, Entries.ofPairs_of_nodup]
  rw [keys_restored]
  exact nodup_names rows

/-- What a row reads when it comes back from a table with these names: its own entries, and
`null` under every name that it lacked, in the order of the names. -/
structure Restores (names : List String) (es es' : Entries) : Prop where
  keys : Entries.keys es' = names
  own : ∀ entry ∈ es, entry ∈ es'
  missing : ∀ name ∈ names, name ∉ Entries.keys es → (name, .null) ∈ es'

/-- A row whose keys are names comes back with all of its entries. -/
theorem restores_restored {names : List String} {es : Entries} (h : (Entries.keys es).Nodup)
    (hnames : ∀ key ∈ Entries.keys es, key ∈ names) :
    Restores names es (restored names (.obj es)) where
  keys := keys_restored names (.obj es)
  own entry hentry := by
    obtain ⟨key, v⟩ := entry
    have hkey := hnames key (List.mem_map.mpr ⟨_, hentry, rfl⟩)
    refine List.mem_map.mpr ⟨key, hkey, ?_⟩
    rw [cell, Json.field?, (Entries.get?_eq_some_iff h).mpr hentry]
    rfl
  missing name hname hnone := by
    refine List.mem_map.mpr ⟨name, hname, ?_⟩
    rw [cell, Json.field?, Entries.get?_eq_none_iff.mpr hnone]
    rfl

/-- The rows that come back have distinct keys, whatever the rows were. -/
theorem distinctKeys_toRows (rows : List Json) : DistinctKeys (ofRows rows).toRows := by
  rw [toRows_ofRows]
  intro es hes
  obtain ⟨row, -, heq⟩ := List.mem_map.mp hes
  rw [← Json.obj.inj heq, keys_restored]
  exact nodup_names rows

/-- The rows that come back have the keys that are the names, in this order. -/
theorem names_toRows (rows : List Json) :
    (ofRows (ofRows rows).toRows).names = (ofRows rows).names := by
  have hfirst := firstSeen_names (rows.map (restored (ofRows rows).names))
  rw [List.map_map, List.flatMap_map] at hfirst
  simp only [keys_restored] at hfirst
  rw [toRows_ofRows]
  refine hfirst.unique ?_
  cases rows with
  | nil => exact .nil
  | cons row rest => exact .flatMap_const (nodup_names _) (List.cons_ne_nil row rest)

/-- **The table of the rows that come back from a table is the same table.** -/
theorem ofRows_toRows (h : DistinctKeys rows) : ofRows (ofRows rows).toRows = ofRows rows := by
  have hcells : ∀ name ∈ (ofRows rows).names,
      (ofRows rows).toRows.map (cell · name) = rows.map (cell · name) := by
    intro name hname
    rw [toRows_ofRows, List.map_map]
    exact List.map_congr_left fun row _ => cell_restored row hname
  have hcolumns : (ofRows (ofRows rows).toRows).columns = (ofRows rows).columns := by
    rw [columns_ofRows (distinctKeys_toRows rows), columns_ofRows h, names_toRows]
    refine List.map_congr_left fun name hname => ?_
    have htypes := congrArg (List.filterMap ColumnType.detect) (hcells name hname)
    rw [List.filterMap_map, List.filterMap_map] at htypes
    show Column.mk name (Tally.resolve (Tally.ofTypes (typesUnder _ name))) = _
    rw [show typesUnder (ofRows rows).toRows name = typesUnder rows name from htypes]
  have hrows : (ofRows (ofRows rows).toRows).rows = (ofRows rows).rows := by
    rw [rows_ofRows, rows_ofRows, names_toRows, toRows_ofRows, List.map_map]
    refine List.map_congr_left fun row _ => ?_
    exact List.map_congr_left fun name hname => cell_restored row hname
  calc ofRows (ofRows rows).toRows
      = ⟨(ofRows (ofRows rows).toRows).columns, (ofRows (ofRows rows).toRows).rows⟩ := rfl
    _ = ofRows rows := by rw [hcolumns, hrows]

/-- **Tables of rows lose nothing.**  The names of the columns are the keys of all rows in the
order in which they first occur, each row of the table has one cell for each column, and every
row comes back with its own entries and `null` for what it lacked.  Whatever the values are, the
table of the rows that come back is the same. -/
theorem ofRows_roundTrip :
    (∀ rows : List Entries, (∀ es ∈ rows, (Entries.keys es).Nodup) →
      (ofRows (rows.map .obj)).names.Nodup ∧
      FirstSeen (ofRows (rows.map .obj)).names (rows.flatMap Entries.keys) ∧
      (ofRows (rows.map .obj)).rows.length = rows.length ∧
      (∀ row ∈ (ofRows (rows.map .obj)).rows,
        row.length = (ofRows (rows.map .obj)).columns.length) ∧
      List.Forall₂
        (fun es row => ∃ es', row = .obj es' ∧ Restores (ofRows (rows.map .obj)).names es es')
        rows (ofRows (rows.map .obj)).toRows) ∧
    ∀ values : List Json, DistinctKeys values → ofRows (ofRows values).toRows = ofRows values := by
  constructor
  · intro rows hrows
    have hfirst := firstSeen_names rows
    refine ⟨nodup_names _, hfirst, ?_, ?_, ?_⟩
    · rw [rows_ofRows, List.length_map, List.length_map]
    · intro row hrow
      rw [rows_ofRows] at hrow
      obtain ⟨_, -, rfl⟩ := List.mem_map.mp hrow
      rw [List.length_map, names, List.length_map]
    · rw [toRows_ofRows, List.map_map, List.forall₂_map_right_iff, List.forall₂_same]
      intro es hes
      refine ⟨_, rfl, restores_restored (hrows es hes) fun key hkey => ?_⟩
      exact (hfirst.mem_iff key).mpr (List.mem_flatMap.mpr ⟨es, hes, hkey⟩)
  · exact fun values hvalues => ofRows_toRows hvalues

/-- Rows with different keys in different orders, one of them empty. -/
def unevenRows : List Entries :=
  [[("id", .nat 1), ("note", .null)], [("flag", .bool true), ("id", .arr [])], []]

theorem ofRows_roundTrip_unevenRows :
    (∀ es ∈ unevenRows, (Entries.keys es).Nodup) ∧
      (ofRows (unevenRows.map .obj)).names = ["id", "note", "flag"] ∧
      List.Forall₂
        (fun es row => ∃ es', row = .obj es' ∧
          Restores (ofRows (unevenRows.map .obj)).names es es')
        unevenRows (ofRows (unevenRows.map .obj)).toRows ∧
      DistinctKeys (.nat 3 :: unevenRows.map .obj) ∧
      ofRows (ofRows (.nat 3 :: unevenRows.map .obj)).toRows =
        ofRows (.nat 3 :: unevenRows.map .obj) := by
  have hkeys : ∀ es ∈ unevenRows, (Entries.keys es).Nodup := by
    intro es hes
    simp only [unevenRows, List.mem_cons, List.not_mem_nil, or_false] at hes
    rcases hes with rfl | rfl | rfl <;> decide
  have hdistinct : DistinctKeys (.nat 3 :: unevenRows.map .obj) := by
    intro es hes
    rcases List.mem_cons.mp hes with hes | hes
    · cases hes
    · obtain ⟨es', hes', heq⟩ := List.mem_map.mp hes
      exact Json.obj.inj heq ▸ hkeys es' hes'
  obtain ⟨-, -, -, -, hback⟩ := ofRows_roundTrip.1 unevenRows hkeys
  exact ⟨hkeys, rfl, hback, hdistinct, ofRows_roundTrip.2 _ hdistinct⟩

end Tabular

end QueryScript
