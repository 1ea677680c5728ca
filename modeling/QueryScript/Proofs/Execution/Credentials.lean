import Mathlib.Data.List.Forall2
import QueryScript.Proofs.Agreement
import QueryScript.Proofs.Definition.Written
import QueryScript.Proofs.Execution.Request

/-!
# Other credentials

The step that names an executor may say where to run and as whom.  Two such steps may give other
texts there and be the same in all else (`Json.SameButCredentials`).  These texts stand under keys
of their own, which hold no definition and no argument: what hangs on the two steps is the same
(`Entries.SameButTexts.hanging_eq`), and so is what they ask for, but for the options
(`Request.ofEntries_agree`).
-/

namespace QueryScript

/-- The keys under which a step says where to run and as whom. -/
def Request.credentialKeys : List String :=
  ["datasource", "username", "password"]

/-- Two entries of a step are the same, or give two texts under the key of a credential. -/
inductive Entries.SameButText : String × Json → String × Json → Prop where
  | same (entry : String × Json) : SameButText entry entry
  | text {key : String} (hkey : key ∈ Request.credentialKeys) (s t : String) :
      SameButText (key, .str s) (key, .str t)

/-- Two steps have the same entries but for such texts. -/
def Entries.SameButTexts (es fs : Entries) : Prop :=
  List.Forall₂ SameButText es fs

/-- Two items are the same, or name an executor and are the same but for credentials. -/
inductive Json.SameButCredentials : Json → Json → Prop where
  | same (v : Json) : SameButCredentials v v
  | executor {es fs : Entries} {name : String}
      (hhead : Head.ofEntries? es = some (.executor name)) (h : es.SameButTexts fs) :
      SameButCredentials (.obj es) (.obj fs)

/-- Two requests are the same but for the options declared beside the executor. -/
structure Request.SameButOptions (q q' : Request) : Prop where
  executor : q.executor = q'.executor
  args : q.args = q'.args
  returnFormat : q.returnFormat = q'.returnFormat

theorem Request.SameButOptions.refl (q : Request) : q.SameButOptions q := ⟨rfl, rfl, rfl⟩

/-! ## The entries of two steps -/

/-- No definition hangs in a text. -/
theorem Entries.hangingAt?_str (key s : String) : hangingAt? key (.str s) = none := by
  unfold hangingAt?
  split
  · rfl
  · split
    · rfl
    · cases Action.route? key <;> rfl

namespace Entries.SameButTexts

variable {es fs : Entries}

/-- Entries with the same texts have the same keys. -/
theorem keys_eq (h : es.SameButTexts fs) : keys es = keys fs := by
  induction h with
  | nil => rfl
  | @cons e f _ _ hentry _ ih =>
    have hkey : e.1 = f.1 := by cases hentry <;> rfl
    exact congrArg₂ (· :: ·) hkey ih

theorem head_eq (h : es.SameButTexts fs) : Head.ofEntries? es = Head.ofEntries? fs := by
  rw [Head.ofEntries?_eq, Head.ofEntries?_eq, h.keys_eq]

/-- The same definitions hang on the two steps. -/
theorem hanging_eq (h : es.SameButTexts fs) : hanging es = hanging fs := by
  induction h with
  | nil => rfl
  | cons hentry _ ih =>
    cases hentry with
    | same => rw [hanging_cons, hanging_cons, ih]
    | text => rw [hanging_cons, hanging_cons, hangingAt?_str, hangingAt?_str, ih]

/-- Under a key there is the same, or there are two texts under the key of a credential. -/
theorem get?_cases (h : es.SameButTexts fs) (k : String) :
    get? es k = get? fs k ∨
      k ∈ Request.credentialKeys ∧
        ∃ s t, get? es k = some (.str s) ∧ get? fs k = some (.str t) := by
  induction h with
  | nil => exact .inl rfl
  | @cons e _ _ _ hentry _ ih =>
    cases hentry with
    | same =>
      obtain ⟨key, v⟩ := e
      rw [get?, get?]
      by_cases hk : key = k
      · rw [if_pos hk, if_pos hk]
        exact .inl rfl
      · rw [if_neg hk, if_neg hk]
        exact ih
    | @text key hkey s t =>
      rw [get?, get?]
      by_cases hk : key = k
      · rw [if_pos hk, if_pos hk]
        exact .inr ⟨hk ▸ hkey, s, t, rfl, rfl⟩
      · rw [if_neg hk, if_neg hk]
        exact ih

theorem get?_eq (h : es.SameButTexts fs) {k : String} (hk : k ∉ Request.credentialKeys) :
    get? es k = get? fs k :=
  (h.get?_cases k).resolve_right fun hcredential => hk hcredential.1

theorem refl (es : Entries) : es.SameButTexts es :=
  List.forall₂_same.mpr fun entry _ => .same entry

theorem paramName?_eq (h : es.SameButTexts fs) :
    (Json.obj es).paramName? = (Json.obj fs).paramName? := by
  rw [Json.paramName?, Json.paramName?, h.get?_eq (by decide)]

/-- Steps stay the same but for texts when parameters are filled in. -/
theorem resolve (h : es.SameButTexts fs) (params : Params) :
    SameButTexts ((Json.resolve params (.obj es)).entries?.getD [])
      ((Json.resolve params (.obj fs)).entries?.getD []) := by
  rw [Json.resolve, Json.resolve, ← h.paramName?_eq]
  cases (Json.obj es).paramName? with
  | some name => exact .refl _
  | none =>
    dsimp only
    rw [Json.entries?, Json.entries?, Option.getD_some, Option.getD_some]
    induction h with
    | nil => exact .nil
    | cons hentry _ ih =>
      cases hentry with
      | same => exact .cons (.same _) ih
      | text hkey s t => exact .cons (.text hkey _ _) ih

end Entries.SameButTexts

/-! ## The requests of two steps -/

namespace Request

open Checks (Agree)

variable {es fs : Entries} {params : Params}

/-- A text is declared where another one is. -/
theorem textOption_agree (h : es.SameButTexts fs) (key : String) :
    Agree (fun _ _ => True) (textOption es key) (textOption fs key) := by
  rw [textOption, textOption]
  rcases h.get?_cases key with hsame | ⟨-, s, t, hes, hfs⟩
  · rw [hsame]
    exact .refl (fun _ => trivial) _
  · rw [hes, hfs]
    exact .ok trivial

theorem declaredOptions_agree (h : es.SameButTexts fs) :
    Agree (fun _ _ => True) (declaredOptions es) (declaredOptions fs) := by
  have htimeout : timeoutOption es = timeoutOption fs := by
    rw [timeoutOption, timeoutOption, h.get?_eq (by decide)]
  rw [declaredOptions, declaredOptions, htimeout]
  refine (textOption_agree h _).bind fun _ _ _ => ?_
  refine (Agree.refl (R := fun _ _ => True) (fun _ => trivial) _).bind fun _ _ _ => ?_
  refine (textOption_agree h _).bind fun _ _ _ => ?_
  refine (textOption_agree h _).bind fun _ _ _ => ?_
  exact .ok trivial

/-- The two steps ask for the same, but for the options. -/
theorem ofEntries_agree (h : es.SameButTexts fs) (executor : Executor) :
    Agree SameButOptions (ofEntries executor es) (ofEntries executor fs) := by
  have hformat : declaredFormat es = declaredFormat fs := by
    rw [declaredFormat, declaredFormat, h.get?_eq (by decide)]
  have hvalue : Entries.get? es executor.name = Entries.get? fs executor.name :=
    h.get?_eq (by cases executor <;> decide)
  rw [ofEntries, ofEntries, hformat, hvalue]
  refine (declaredOptions_agree h).bind fun options options' _ => ?_
  refine (Agree.refl (R := Eq) (fun _ => rfl) _).bind fun format _ hsame => ?_
  subst hsame
  exact .ok ⟨rfl, rfl, rfl⟩

end Request

/-! ## Two items -/

namespace Json.SameButCredentials

variable {v w : Json} {xs ys : List Json} {params : Params}

/-- Items differ in no credentials from themselves. -/
theorem refl_items (xs : List Json) : List.Forall₂ SameButCredentials xs xs :=
  List.forall₂_same.mpr fun v _ => .same v

/-- Two items are one, or they are two steps with the same definitions nested in them. -/
theorem cases_ofJson (h : SameButCredentials v w) :
    v = w ∨ ∃ (es fs : Entries) (name : String) (nested : List (Slot × Definition)),
      es.SameButTexts fs ∧ Item.ofJson v = .step es nested ∧ Item.ofJson w = .step fs nested ∧
      Head.ofEntries? es = some (.executor name) ∧ Head.ofEntries? fs = some (.executor name) := by
  cases h with
  | same => exact .inl rfl
  | @executor es fs name hhead h =>
    refine .inr ⟨es, fs, name, _, h, by rw [Item.ofJson], ?_, hhead, ?_⟩
    · rw [Item.ofJson, Item.nestedIn_eq, Item.nestedIn_eq, h.hanging_eq]
    · rw [← h.head_eq, hhead]

/-- The two ask for the same, but for the options, or for nothing. -/
theorem ofItem?_agree (params : Params) (h : SameButCredentials v w) :
    Option.Rel (Checks.Agree Request.SameButOptions) (Request.ofItem? params (Item.ofJson v))
      (Request.ofItem? params (Item.ofJson w)) := by
  rcases h.cases_ofJson with rfl | ⟨es, fs, name, nested, htexts, hv, hw, hes, hfs⟩
  · cases Request.ofItem? params (Item.ofJson v) with
    | none => exact .none
    | some q => exact .some (.refl Request.SameButOptions.refl q)
  · rw [hv, hw, Request.ofItem?, Request.ofItem?, Request.executorOf?, Request.executorOf?, hes,
      hfs]
    dsimp only
    cases Executor.ofName? name with
    | none => exact .none
    | some executor => exact .some (Request.ofEntries_agree (htexts.resolve params) executor)

/-- Credentials reach a request only through its options. -/
theorem ofDefinition_agree (h : List.Forall₂ SameButCredentials xs ys) :
    Checks.Agree Request.SameButOptions (Request.ofDefinition (Item.ofItems xs) params)
      (Request.ofDefinition (Item.ofItems ys) params) := by
  rw [Request.ofDefinition_eq, Request.ofDefinition_eq, Item.ofItems_eq_map, Item.ofItems_eq_map]
  induction h with
  | nil => exact .ok (.refl _)
  | @cons v w xs ys hitem _ ih =>
    rw [List.map_cons, List.map_cons, List.findSome?_cons, List.findSome?_cons]
    have hitem := ofItem?_agree params hitem
    revert hitem
    generalize Request.ofItem? params (Item.ofJson v) = q
    generalize Request.ofItem? params (Item.ofJson w) = q'
    intro hitem
    cases hitem with
    | none => exact ih
    | some hitem => exact hitem

end Json.SameButCredentials

end QueryScript
