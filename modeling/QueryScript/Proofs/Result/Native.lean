import QueryScript.Proofs.Result.Tables

/-!
# Tables of a driver's result

A driver's result is turned into a table and into objects by rules of their own: the table cuts a
row off and fills it up, the objects pair the names of the columns with what the row has and with
`null` after its end.  Both give every column the cell at its place (`Tabular.fit_eq_map`,
`NativeSet.cells_eq_map`), so the table and the objects say the same, also where names repeat
(`Tabular.toRows_ofNative`).

If names do not repeat, the table can be made from the objects as well: the columns come in the
same order and the cells are the same (`Tabular.ofNative_agrees`).
-/

namespace QueryScript

/-! ## Cells by their places -/

theorem Tabular.length_fit (width : Nat) (row : List Json) : (fit width row).length = width := by
  rw [fit, List.length_rightpad, List.length_take]
  omega

/-- A fitted row has what the row has at each place, and `null` where it has nothing. -/
theorem Tabular.fit_eq_map (width : Nat) (row : List Json) :
    fit width row = (List.range width).map fun i => row[i]?.getD .null := by
  refine List.ext_getElem ?_ fun i hi hi' => ?_
  · rw [length_fit, List.length_map, List.length_range]
  · have hwidth : i < width := by rwa [length_fit] at hi
    rw [List.getElem_map, List.getElem_range]
    simp only [fit, List.rightpad]
    by_cases hrow : i < row.length
    · rw [List.getElem_append_left (by rw [List.length_take]; omega), List.getElem_take,
        List.getElem?_eq_getElem hrow, Option.getD_some]
    · rw [List.getElem_append_right (by rw [List.length_take]; omega), List.getElem_replicate,
        List.getElem?_eq_none (by omega), Option.getD_none]

namespace NativeSet

variable {α : Type}

/-- A row has a cell for each column, and `null` where it is too short. -/
theorem cells_eq_map (columns : List α) (row : List Json) :
    cells columns row = (List.range columns.length).map fun i => row[i]?.getD .null := by
  induction columns generalizing row with
  | nil => rfl
  | cons column columns ih =>
    rw [List.length_cons, List.range_succ_eq_map, List.map_cons, List.map_map]
    cases row with
    | nil =>
      rw [cells, ih]
      rfl
    | cons v row =>
      rw [cells, ih]
      rfl

theorem length_cells (columns : List α) (row : List Json) :
    (cells columns row).length = columns.length := by
  rw [cells_eq_map, List.length_map, List.length_range]

end NativeSet

namespace Tabular

/-- The table fits a row as the objects pair it with the names. -/
theorem fit_eq_cells (set : NativeSet) (row : List Json) :
    fit set.columns.length row = NativeSet.cells set.columns row := by
  rw [fit_eq_map, NativeSet.cells_eq_map]

theorem names_ofNative (set : NativeSet) :
    (ofNative set).names = set.columns.map (·.name) := by
  rw [names, ofNative, List.map_map]
  rfl

/-- A table of a driver's result has the rows of the result. -/
theorem toRows_ofNative (set : NativeSet) : (ofNative set).toRows = set.toRows := by
  rw [toRows, NativeSet.toRows, show (ofNative set).rows = set.rows.map (fit set.columns.length)
    from rfl, List.map_map]
  refine List.map_congr_left fun row _ => ?_
  show rowObject (ofNative set).columns (fit set.columns.length row) = _
  rw [rowObject, NativeSet.rowObject, fit_eq_cells, ← names, names_ofNative]

/-! ## From the objects to the table -/

variable {set : NativeSet}

/-- The entries of a row under distinct names: each name once, with the cell at its place. -/
def entriesOf (set : NativeSet) (row : List Json) : Entries :=
  (set.columns.map (·.name)).zip (NativeSet.cells set.columns row)

theorem keys_entriesOf (set : NativeSet) (row : List Json) :
    Entries.keys (entriesOf set row) = set.columns.map (·.name) := by
  refine List.map_fst_zip (Nat.le_of_eq ?_)
  rw [List.length_map, NativeSet.length_cells]

/-- The values of a row as an object are its cells. -/
theorem values_entriesOf (set : NativeSet) (row : List Json) :
    (entriesOf set row).map Prod.snd = NativeSet.cells set.columns row := by
  refine List.map_snd_zip (Nat.le_of_eq ?_)
  rw [List.length_map, NativeSet.length_cells]

/-- Where names are distinct, no entry of a row replaces another. -/
theorem toRows_of_nodup (h : (set.columns.map (·.name)).Nodup) :
    set.toRows = (set.rows.map (entriesOf set)).map .obj := by
  rw [NativeSet.toRows, List.map_map]
  refine List.map_congr_left fun row _ => congrArg Json.obj ?_
  exact Entries.ofPairs_of_nodup (by rwa [← keys_entriesOf set row] at h)

/-- The names of a table made from the objects are those of the result, if some row shows them. -/
theorem names_ofRows_toRows (h : (set.columns.map (·.name)).Nodup) (hne : set.rows ≠ []) :
    (ofRows set.toRows).names = set.columns.map (·.name) := by
  have hfirst := firstSeen_names (set.rows.map (entriesOf set))
  rw [← toRows_of_nodup h, List.flatMap_map] at hfirst
  simp only [keys_entriesOf] at hfirst
  exact hfirst.unique (.flatMap_const h hne)

/-- So the table of the rows has the cells of the set. -/
theorem rows_ofRows_toRows (h : (set.columns.map (·.name)).Nodup) (hne : set.rows ≠ []) :
    (ofRows set.toRows).rows = set.rows.map (NativeSet.cells set.columns) := by
  rw [rows_ofRows, names_ofRows_toRows h hne, toRows_of_nodup h, List.map_map, List.map_map]
  refine List.map_congr_left fun row _ => ?_
  rw [← values_entriesOf, ← Entries.map_get?_keys (by rwa [keys_entriesOf]), keys_entriesOf]
  rfl

/-- **The ways to turn a driver's result into rows and tables agree.**  Each row of the table has
one cell for each column, the one at the column's place in the result or `null` after the end of
the row; going back from the table gives the objects of the result; and the table of these objects
has the same names in the same order and the same cells, if the names are distinct and there is a
row to show them. -/
theorem ofNative_agrees (set : NativeSet) :
    (∀ row ∈ (ofNative set).rows, row.length = (ofNative set).columns.length) ∧
    (ofNative set).rows =
      set.rows.map (fun row => (List.range set.columns.length).map fun i => row[i]?.getD .null) ∧
    (ofNative set).toRows = set.toRows ∧
    ((set.columns.map (·.name)).Nodup → set.rows ≠ [] →
      (ofRows set.toRows).names = (ofNative set).names ∧
      (ofRows set.toRows).rows = (ofNative set).rows) := by
  have hrows : (ofNative set).rows = set.rows.map (fit set.columns.length) := rfl
  refine ⟨fun row hrow => ?_, ?_, toRows_ofNative set, fun hnames hne => ⟨?_, ?_⟩⟩
  · rw [hrows] at hrow
    obtain ⟨cells, -, rfl⟩ := List.mem_map.mp hrow
    rw [length_fit, ofNative, List.length_map]
  · rw [hrows]
    exact List.map_congr_left fun row _ => fit_eq_map _ row
  · rw [names_ofRows_toRows hnames hne, names_ofNative]
  · rw [rows_ofRows_toRows hnames hne, hrows]
    exact List.map_congr_left fun row _ => (fit_eq_cells set row).symm

/-- A result whose rows are too short and too long. -/
def raggedSet : NativeSet :=
  ⟨[⟨"id", "INT8"⟩, ⟨"name", "TEXT"⟩],
    [[.nat 1], [.nat 2, .str "ada", .str "spare"], [], [.null, .str "bob"]]⟩

theorem ofNative_agrees_raggedSet :
    (raggedSet.columns.map (·.name)).Nodup ∧ raggedSet.rows ≠ [] ∧
      (ofNative raggedSet).rows =
        [[.nat 1, .null], [.nat 2, .str "ada"], [.null, .null], [.null, .str "bob"]] ∧
      (ofRows raggedSet.toRows).rows = (ofNative raggedSet).rows := by
  have hnames : (raggedSet.columns.map (·.name)).Nodup := by decide
  have hne : raggedSet.rows ≠ [] := List.cons_ne_nil _ _
  obtain ⟨-, hcells, -, hagree⟩ := ofNative_agrees raggedSet
  exact ⟨hnames, hne, hcells, (hagree hnames hne).2⟩

/-- Of two columns with one name the objects keep the later cell, in the place of the first; the
table has both. -/
example : (ofNative ⟨[⟨"a", ""⟩, ⟨"b", ""⟩, ⟨"a", ""⟩], [[.nat 1, .nat 2]]⟩).toRows =
    [.obj [("a", .null), ("b", .nat 2)]] := by
  rfl

end Tabular

end QueryScript
