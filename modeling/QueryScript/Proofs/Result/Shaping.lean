import QueryScript.Proofs.Checks
import QueryScript.Result.Shape

/-!
# Answers that cannot be shaped

Only a format with keys can fail, and only because the first row lacks a column that the format
names.  So a failure to shape an answer, or the rows of a page, names a missing column
(`isShaping_of_shapeAnswer`, `isShaping_of_shapePage`).
-/

namespace QueryScript

/-- Failures to shape an answer: a column that gives keys or values is missing. -/
def Error.isShaping : Error → Bool
  | .columnKey _ => true
  | .valueKey _ => true
  | _ => false

theorem Keyed.isShaping_of_ofRows {rows : List Json} {column : String} {values : List String}
    {e : Error} (h : ofRows rows column values = .error e) : e.isShaping = true := by
  cases rows with
  | nil => cases h
  | cons first rest =>
    rcases Checks.bind_eq_error.mp h with hcolumns | ⟨_, -, hpure⟩
    · unfold checkColumns at hcolumns
      split at hcolumns
      · cases hcolumns
        rfl
      · split at hcolumns <;> cases hcolumns
        rfl
    · cases hpure

namespace Format

variable {format : Format} {e : Error}

theorem isShaping_of_shape {v : Json} (h : format.shape v = .error e) : e.isShaping = true := by
  have hrows : ∀ rows, format.shapeRows rows = .error e → e.isShaping = true := by
    intro rows h
    cases format with
    | struct column values => exact Keyed.isShaping_of_ofRows (Checks.eq_error_of_map h)
    | _ => cases h
  unfold shape at h
  split at h
  · split at h
    · exact hrows _ h
    · cases h
  · cases h

/-- An answer that cannot be shaped fails with an error of shaping. -/
theorem isShaping_of_shapeAnswer {answer : Answer} (h : format.shapeAnswer answer = .error e) :
    e.isShaping = true := by
  unfold shapeAnswer at h
  split at h
  · split at h
    · cases h
    · exact isShaping_of_shape h
  · exact isShaping_of_shape h

/-- A page that cannot be shaped fails with an error of shaping. -/
theorem isShaping_of_shapePage {key : String} {page : Json}
    (h : format.shapePage key page = .error e) : e.isShaping = true := by
  unfold shapePage at h
  split at h
  · split at h
    · rcases Checks.bind_eq_error.mp h with hrows | ⟨_, -, hpure⟩
      · exact isShaping_of_shape hrows
      · cases hpure
    · cases h
  · cases h

/-- Rows that are not to be shaped stay as they are. -/
theorem shape_array (rows : List Json) : Format.array.shape (.arr rows) = .ok (.arr rows) := by
  unfold shape
  split <;> simp_all [shapeRows]

end Format

end QueryScript
