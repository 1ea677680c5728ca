import QueryScript.Proofs.Condition.Spelling
import QueryScript.Proofs.Params.Mentions

/-!
# Conditions of which nothing can be read

A value that cannot be read counts as true, so that it blocks nothing.  This is a rule for a value
on its own: the connectives take what they are given (`evaluate_of_joins`), and a `not` makes of the
true that an unreadable operand counts for a false.  So a condition built with connectives over
unreadable values is decided before any argument is known, by the places of its negations
(`ComesOut`).

`evaluate_of_unread` says that it blocks exactly if it comes out false in this way.  Without a
`not` it never does; `{"not": "sometimes"}` does (`not_evaluate_of_unread`).
-/

namespace QueryScript.Condition

variable {es : Entries} {c : Connective} {xs : List Json} {v x : Json} {b : Bool}
  {args : List Json} {params : Params}

/-- The truth that a connective makes of the truths of its operands. -/
def Connective.truth : Connective → List Bool → Bool
  | .all, bs => bs.all id
  | .any, bs => bs.any id
  | .not, bs => (bs.getLast?.map Bool.not).getD true

/-- An object that is read as a connective holds as its operands say. -/
theorem evaluate_of_joins (h : Joins es c xs) (args : List Json) (params : Params) :
    evaluate (.obj es) args params = c.truth (xs.map fun x => evaluate x args params) := by
  have hoperands : (xs.map ofJson).map (holds args params) =
      xs.map fun x => evaluate x args params := by
    rw [List.map_map]
    rfl
  rw [evaluate, h.ofJson_eq, ← hoperands]
  cases c with
  | all => rw [Connective.join, holds, holdsAll_eq, Connective.truth]
  | any => rw [Connective.join, holds, holdsAny_eq, Connective.truth]
  | not =>
    simp only [Connective.join, Connective.truth, List.getLast?_map]
    cases xs.getLast? with
    | none => rfl
    | some x =>
      show holds args params (.not (ofJson x)) = !holds args params (ofJson x)
      rw [holds]

/-! ## How a condition comes out -/

/-- A condition built with connectives of which no leaf can be read. -/
inductive Unread : Json → Prop where
  | leaf {v : Json} (h : ofJson v = .unreadable) : Unread v
  | join {es : Entries} {c : Connective} {xs : List Json} (h : Joins es c xs) (hne : xs ≠ [])
      (hxs : ∀ x ∈ xs, Unread x) : Unread (.obj es)

/-- What a condition comes to when a leaf that cannot be read counts as true. -/
inductive ComesOut : Json → Bool → Prop where
  | leaf {v : Json} (h : ofJson v = .unreadable) : ComesOut v true
  | all {es : Entries} {xs : List Json} (h : Joins es .all xs) (hxs : ∀ x ∈ xs, ComesOut x true) :
      ComesOut (.obj es) true
  | notAll {es : Entries} {xs : List Json} {x : Json} (h : Joins es .all xs) (hx : x ∈ xs)
      (hfalse : ComesOut x false) : ComesOut (.obj es) false
  | any {es : Entries} {xs : List Json} {x : Json} (h : Joins es .any xs) (hx : x ∈ xs)
      (htrue : ComesOut x true) : ComesOut (.obj es) true
  | notAny {es : Entries} {xs : List Json} (h : Joins es .any xs)
      (hxs : ∀ x ∈ xs, ComesOut x false) : ComesOut (.obj es) false
  | not {es : Entries} {xs : List Json} {x : Json} {b : Bool} (h : Joins es .not xs)
      (hx : xs.getLast? = some x) (hb : ComesOut x b) : ComesOut (.obj es) !b

/-- Some node of a condition is a `not`. -/
inductive Negates : Json → Prop where
  | here {es : Entries} {xs : List Json} (h : Joins es .not xs) : Negates (.obj es)
  | inside {es : Entries} {c : Connective} {xs : List Json} {x : Json} (h : Joins es c xs)
      (hx : x ∈ xs) (hnegates : Negates x) : Negates (.obj es)

/-- What a condition comes to it is for all arguments and parameters. -/
theorem ComesOut.evaluate_eq (h : ComesOut v b) (args : List Json) (params : Params) :
    evaluate v args params = b := by
  induction h with
  | leaf h =>
    rw [evaluate, h]
    rfl
  | all h _ ih =>
    rw [evaluate_of_joins h, Connective.truth, List.all_map, List.all_eq_true]
    exact ih
  | notAll h hx _ ih =>
    rw [evaluate_of_joins h, Connective.truth, List.all_map, List.all_eq_false]
    exact ⟨_, hx, Bool.eq_false_iff.mp ih⟩
  | any h hx _ ih =>
    rw [evaluate_of_joins h, Connective.truth, List.any_map, List.any_eq_true]
    exact ⟨_, hx, ih⟩
  | notAny h _ ih =>
    rw [evaluate_of_joins h, Connective.truth, List.any_map, List.any_eq_false]
    exact fun x hx => Bool.eq_false_iff.mp (ih x hx)
  | not h hx _ ih =>
    rw [evaluate_of_joins h, Connective.truth, List.getLast?_map, hx]
    exact congrArg Bool.not ih

/-- A condition of which nothing can be read comes out in some way. -/
theorem Unread.exists_comesOut (h : Unread v) : ∃ b, ComesOut v b := by
  induction h with
  | leaf h => exact ⟨true, .leaf h⟩
  | @join es c xs h hne _ ih =>
    have hsplit : ∀ b : Bool, (∃ x ∈ xs, ComesOut x b) ∨ ∀ x ∈ xs, ComesOut x !b := by
      intro b
      by_cases hsome : ∃ x ∈ xs, ComesOut x b
      · exact .inl hsome
      · refine .inr fun x hx => ?_
        obtain ⟨b', hb'⟩ := ih x hx
        have hne : b' ≠ b := by
          rintro rfl
          exact hsome ⟨x, hx, hb'⟩
        rwa [Bool.eq_not_of_ne hne] at hb'
    cases c with
    | all =>
      rcases hsplit false with ⟨x, hx, hfalse⟩ | htrue
      · exact ⟨false, .notAll h hx hfalse⟩
      · exact ⟨true, .all h htrue⟩
    | any =>
      rcases hsplit true with ⟨x, hx, htrue⟩ | hfalse
      · exact ⟨true, .any h hx htrue⟩
      · exact ⟨false, .notAny h hfalse⟩
    | not =>
      obtain ⟨b, hb⟩ := ih (xs.getLast hne) (List.getLast_mem hne)
      exact ⟨!b, .not h (List.getLast?_eq_some_getLast hne) hb⟩

/-- Without a `not` it comes out true. -/
theorem Unread.comesOut_true (h : Unread v) (hplain : ¬ Negates v) : ComesOut v true := by
  induction h with
  | leaf h => exact .leaf h
  | @join es c xs h hne _ ih =>
    have htrue : ∀ x ∈ xs, ComesOut x true :=
      fun x hx => ih x hx fun hnegates => hplain (.inside h hx hnegates)
    cases c with
    | all => exact .all h htrue
    | any => exact .any h (List.head_mem hne) (htrue _ (List.head_mem hne))
    | not => exact absurd (.here h) hplain

/-- **When a condition of which nothing can be read blocks.**  It does so for some arguments and
parameters exactly if it does for all of them, and if it comes out false when its leaves count as
true; without a `not` it never does. -/
theorem evaluate_of_unread (h : Unread v) (args : List Json) (params : Params) :
    (evaluate v args params = true ↔ ¬ ComesOut v false) ∧
      (¬ Negates v → evaluate v args params = true) := by
  constructor
  · constructor
    · intro htrue hfalse
      rw [hfalse.evaluate_eq args params] at htrue
      cases htrue
    · intro hnot
      obtain ⟨b, hb⟩ := h.exists_comesOut
      cases b with
      | false => exact absurd hb hnot
      | true => exact hb.evaluate_eq args params
  · exact fun hplain => (h.comesOut_true hplain).evaluate_eq args params

/-! ## A misspelled word under a `not` -/

/-- A `not` around a word that is no condition. -/
def misspelledNot : Json := .obj [("not", .str "sometimes")]

theorem joins_misspelledNot : Joins [("not", .str "sometimes")] .not [.str "sometimes"] :=
  .not rfl rfl rfl rfl

theorem unread_misspelledNot : Unread misspelledNot := by
  refine .join joins_misspelledNot (List.cons_ne_nil _ _) fun x hx => ?_
  obtain rfl := List.mem_singleton.mp hx
  exact .leaf rfl

theorem comesOut_misspelledNot : ComesOut misspelledNot false := by
  have hword : ComesOut (.str "sometimes") true := .leaf rfl
  exact .not joins_misspelledNot rfl hword

/-- A misspelled word under a `not` blocks. -/
theorem evaluate_of_unread_misspelledNot :
    Unread misspelledNot ∧ ComesOut misspelledNot false ∧
      ¬ evaluate misspelledNot [] .empty = true :=
  ⟨unread_misspelledNot, comesOut_misspelledNot, fun h =>
    (evaluate_of_unread unread_misspelledNot [] .empty).1.mp h comesOut_misspelledNot⟩

/-- A condition of which nothing can be read does not always hold. -/
theorem not_evaluate_of_unread :
    ¬ ∀ v, Unread v → ∀ args params, evaluate v args params = true := by
  intro h
  have hholds := h misspelledNot unread_misspelledNot [] .empty
  rw [comesOut_misspelledNot.evaluate_eq] at hholds
  cases hholds

end QueryScript.Condition
