import Mathlib.Logic.Basic
import QueryScript.Condition.Basic

/-!
# Which arrays the emptiness flags look at

`{"notEmpty": true}` and `{"isEmpty": true}` name no argument, and there may be several arrays
among the arguments.  The first of them decides, as it does for the words `notEmpty` and `isEmpty`
(`evaluate_filledFlag`, `evaluate_filledWord`); the arrays behind it are not looked at.  Without
any array the one flag holds and the other does not, so each is the opposite of the other for all
arguments.

That some array is filled is another thing as soon as an empty array stands before a filled one.
`evaluate_flags_iff` says that this is the only difference, and `not_evaluate_anyFilled` that it
is one.
-/

namespace QueryScript.Condition

/-- The flag that asks for a filled array. -/
def filledFlag : Json := .obj [("notEmpty", .bool true)]

/-- The flag that asks for an empty array. -/
def emptyFlag : Json := .obj [("isEmpty", .bool true)]

/-- No argument is an array, or some array among the arguments is filled. -/
def AnyFilled (args : List Json) : Prop :=
  (∀ v ∈ args, v.isArray = false) ∨ ∃ v ∈ args, v.isArray = true ∧ v.isEmpty = false

/-- The first array among the arguments is empty and another one is filled. -/
def Eclipsed (args : List Json) : Prop :=
  firstArray? args = some (.arr []) ∧ ∃ v ∈ args, v.isArray = true ∧ v.isEmpty = false

variable {args : List Json} {params : Params} {v : Json}

/-! ## The first array -/

theorem eq_arr_nil (harray : v.isArray = true) (hempty : v.isEmpty = true) : v = .arr [] := by
  cases v with
  | arr xs =>
    obtain rfl := List.isEmpty_iff.mp hempty
    rfl
  | _ => cases harray

theorem isArray_of_firstArray? (h : firstArray? args = some v) : v.isArray = true :=
  List.find?_some h

theorem forall_of_firstArray?_eq_none (h : firstArray? args = none) :
    ∀ v ∈ args, v.isArray = false := by
  intro v hv
  exact Bool.eq_false_iff.mpr (List.find?_eq_none.mp h v hv)

/-! ## The flags -/

/-- The flag looks at the first array, and holds if there is none. -/
theorem evaluate_filledFlag (args : List Json) (params : Params) :
    evaluate filledFlag args params = (firstArray? args).all fun v => !v.isEmpty := by
  show holds args params (.argEmptiness none false) = _
  rw [holds]
  cases firstArray? args with
  | none => rfl
  | some v =>
    show (v.isEmpty == false) = !v.isEmpty
    cases v.isEmpty <;> rfl

/-- Each flag is the opposite of the other. -/
theorem evaluate_emptyFlag (args : List Json) (params : Params) :
    evaluate emptyFlag args params = !evaluate filledFlag args params := by
  rw [evaluate_filledFlag]
  show holds args params (.argEmptiness none true) = _
  rw [holds]
  cases firstArray? args with
  | none => rfl
  | some v =>
    show (v.isEmpty == true) = !!v.isEmpty
    cases v.isEmpty <;> rfl

/-- The flag says no more than the word. -/
theorem evaluate_filledWord (args : List Json) (params : Params) :
    evaluate (.str "notEmpty") args params = evaluate filledFlag args params := by
  rw [evaluate_filledFlag]
  show holds args params .hasValues = _
  rw [holds]
  cases firstArray? args <;> rfl

/-- **When the flag tells whether any array is filled.**  It does so, and the opposite flag the
opposite, exactly if no empty array stands before all filled ones. -/
theorem evaluate_flags_iff (args : List Json) (params : Params) :
    ((evaluate filledFlag args params = true ↔ AnyFilled args) ↔ ¬ Eclipsed args) ∧
      ((evaluate emptyFlag args params = true ↔ ¬ AnyFilled args) ↔ ¬ Eclipsed args) ∧
      evaluate emptyFlag args params = !evaluate filledFlag args params := by
  have hflag : (evaluate filledFlag args params = true ↔ AnyFilled args) ↔ ¬ Eclipsed args := by
    rw [evaluate_filledFlag]
    cases hfirst : firstArray? args with
    | none =>
      have hany : AnyFilled args := .inl (forall_of_firstArray?_eq_none hfirst)
      have hnot : ¬ Eclipsed args := by
        rintro ⟨h, -⟩
        rw [hfirst] at h
        cases h
      exact iff_of_true (iff_of_true rfl hany) hnot
    | some v =>
      have harray := isArray_of_firstArray? hfirst
      have hmem : v ∈ args := List.mem_of_find?_eq_some hfirst
      cases hempty : v.isEmpty with
      | false =>
        have hany : AnyFilled args := .inr ⟨v, hmem, harray, hempty⟩
        have hnot : ¬ Eclipsed args := by
          rintro ⟨h, -⟩
          rw [hfirst] at h
          cases h
          cases hempty
        rw [Option.all_some, hempty]
        exact iff_of_true (iff_of_true rfl hany) hnot
      | true =>
        obtain rfl := eq_arr_nil harray hempty
        -- there is an array, so that some array is filled means that another one is
        have hany : AnyFilled args ↔ Eclipsed args := by
          constructor
          · rintro (hnone | hfilled)
            · rw [hnone _ hmem] at harray
              cases harray
            · exact ⟨hfirst, hfilled⟩
          · exact fun h => .inr h.2
        rw [Option.all_some, hempty, hany]
        exact ⟨fun h hE => Bool.false_ne_true (h.mpr hE), fun hE => iff_of_false (by decide) hE⟩
  refine ⟨hflag, ?_, evaluate_emptyFlag args params⟩
  rw [evaluate_emptyFlag, ← hflag, Bool.not_eq_true', ← Bool.not_eq_true, not_iff_not]

/-- The flag does not look at every array: with an empty array before a filled one it fails. -/
theorem not_evaluate_anyFilled :
    ¬ ∀ (args : List Json) (params : Params),
      (evaluate filledFlag args params = true ↔ AnyFilled args) ∧
        evaluate emptyFlag args params = !evaluate filledFlag args params := by
  intro h
  have hany : AnyFilled [.arr [], .arr [.int 1]] :=
    .inr ⟨.arr [.int 1], by simp, rfl, rfl⟩
  have hflag := (h [.arr [], .arr [.int 1]] .empty).1.mpr hany
  cases hflag

end QueryScript.Condition
