import QueryScript.Proofs.Recorder.Executors
import QueryScript.Proofs.Recorder.Resolution

/-!
# What arguments print

An argument without raw expressions prints what the value prints that it is flattened to: both
printers put commas between what they print of the parts, and they agree on the parts
(`Argument.IsData.text_eq_compact`).

A call is shown by the texts of its arguments, so what is recorded does not tell how much of a
value was kept plain (`Passing.recorded_congr`).  Only the limit family reads its arguments before
it records them: a count is a plain value, and a plain value that is no number is refused.
-/

namespace QueryScript

/-! ## Two printers -/

/-- A printer that puts commas between what it prints of the parts. -/
theorem Text.eq_joinWith_map {α : Type} {print : List α → String} {part : α → String}
    (hnil : print [] = "") (hsingle : ∀ a, print [a] = part a)
    (hcons : ∀ a b rest, print (a :: b :: rest) = part a ++ "," ++ print (b :: rest))
    (parts : List α) : print parts = Text.joinWith "," (parts.map part) := by
  induction parts with
  | nil => exact hnil
  | cons a rest ih =>
    cases rest with
    | nil => exact hsingle a
    | cons b rest =>
      rw [hcons, ih]
      rfl

theorem Json.compactItems_eq_joinWith (xs : List Json) :
    compactItems xs = Text.joinWith "," (xs.map compact) :=
  Text.eq_joinWith_map rfl (fun _ => rfl) (fun _ _ _ => rfl) xs

theorem Json.compactEntries_eq_joinWith (es : Entries) :
    compactEntries es =
      Text.joinWith "," (es.map fun entry => quote entry.1 ++ ":" ++ compact entry.2) :=
  Text.eq_joinWith_map rfl (fun _ => rfl) (fun _ _ _ => rfl) es

namespace Argument

theorem textItems_eq_joinWith (items : List Argument) :
    textItems items = Text.joinWith "," (items.map text) :=
  Text.eq_joinWith_map rfl (fun _ => rfl) (fun _ _ _ => rfl) items

theorem textEntries_eq_joinWith (entries : List (String × Argument)) :
    textEntries entries =
      Text.joinWith "," (entries.map fun entry => Json.quote entry.1 ++ ":" ++ text entry.2) :=
  Text.eq_joinWith_map rfl (fun _ => rfl) (fun _ _ _ => rfl) entries

/-- The argument is data: no raw expression occurs in it, and the keys of each map in it are
distinct. -/
inductive IsData : Argument → Prop where
  | value (v : Json) : IsData (.value v)
  | list {items : List Argument} (hitems : ∀ a ∈ items, IsData a) : IsData (.list items)
  | map {entries : List (String × Argument)} (hkeys : (entries.map Prod.fst).Nodup)
      (hentries : ∀ entry ∈ entries, IsData entry.2) : IsData (.map entries)

/-- Data that is flattened to a scalar is that scalar. -/
theorem IsData.eq_value {a : Argument} (h : a.IsData) (harray : a.toJson.isArray = false)
    (hobject : a.toJson.isObject = false) : a = .value a.toJson := by
  cases h with
  | value v => rfl
  | list hitems => cases harray
  | map hkeys hentries => cases hobject

/-- **Data prints the same whichever representation carries it.** -/
theorem IsData.text_eq_compact {a : Argument} (h : a.IsData) : a.text = a.toJson.compact := by
  induction h with
  | value v => rfl
  | @list items _ ih =>
    have hparts : items.map text = (items.map toJson).map Json.compact := by
      rw [List.map_map]
      exact List.map_congr_left ih
    rw [text, textItems_eq_joinWith, hparts, toJson, toJsonItems_eq_map, Json.compact,
      Json.compactItems_eq_joinWith]
  | @map entries hkeys _ ih =>
    have hparts : (entries.map fun entry => Json.quote entry.1 ++ ":" ++ text entry.2) =
        entries.map fun entry => Json.quote entry.1 ++ ":" ++ entry.2.toJson.compact :=
      List.map_congr_left fun entry hentry => by rw [ih entry hentry]
    rw [text, textEntries_eq_joinWith, hparts, toJson_map hkeys, Json.compact,
      Json.compactEntries_eq_joinWith, List.map_map]
    rfl

end Argument

/-! ## Calls that show alike -/

namespace Call

theorem texts_append (calls more : List Call) :
    texts (calls ++ more) = texts calls ++ texts more := by
  induction calls with
  | nil => rfl
  | cons c calls ih => rw [List.cons_append, texts, texts, ih, List.cons_append]

theorem texts_singleton (method : String) (operands : List Operand) :
    texts [.mk method operands] = [application method (operandTexts operands)] := rfl

theorem operandTexts_append (operands more : List Operand) :
    operandTexts (operands ++ more) = operandTexts operands ++ operandTexts more := by
  induction operands with
  | nil => rfl
  | cons o operands ih => rw [List.cons_append, operandTexts, operandTexts, ih, List.cons_append]

theorem operandTexts_args (args : List Argument) :
    operandTexts (args.map .arg) = args.map Argument.text := by
  induction args with
  | nil => rfl
  | cons a args ih => rw [List.map_cons, operandTexts, ih, operandText, List.map_cons]

end Call

namespace Build

variable {α β : Type}

/-- Two builds leave calls that are shown alike, whatever recorder they run on. -/
def RecordsAlike (b b' : Build α) : Prop :=
  ∀ r, Call.texts (b.runOn r).2.calls = Call.texts (b'.runOn r).2.calls

/-- Builds that begin alike record alike if what follows does. -/
theorem RecordsAlike.bind (b : Build α) {f g : α → Build β} (h : ∀ a, (f a).RecordsAlike (g a)) :
    (b >>= f).RecordsAlike (b >>= g) := by
  intro r
  rw [runOn_bind, runOn_bind]
  cases b.runOn r with
  | mk outcome r' =>
    cases outcome with
    | ok a => exact h a r'
    | error e => rfl

/-- Operands that are shown alike are recorded alike. -/
theorem RecordsAlike.record {method : String} {operands operands' : List Operand}
    (h : Call.operandTexts operands = Call.operandTexts operands') :
    (record method operands).RecordsAlike (record method operands') := by
  intro r
  show Call.texts (r.calls ++ [_]) = Call.texts (r.calls ++ [_])
  rw [Call.texts_append, Call.texts_append, Call.texts_singleton, Call.texts_singleton, h]

theorem operandTexts_conditions {cs cs' : List JoinCondition}
    (h : cs.map JoinCondition.text = cs'.map JoinCondition.text) :
    Call.operandTexts (conditionOperands cs) = Call.operandTexts (conditionOperands cs') := by
  cases cs with
  | nil => rw [List.map_eq_nil_iff.mp h.symm]
  | cons c cs =>
    cases cs' with
    | nil => cases h
    | cons c' cs' =>
      show [Call.braced _] = [Call.braced _]
      rw [h]

/-! ## Counts -/

/-- The places of the counts among the arguments of a call of the limit family. -/
def countPlaces (method : String) : List Nat :=
  match method with
  | "limit" | "take" | "offset" | "skip" => [0]
  | "forPage" => [0, 1]
  | _ => []

section Counts

variable {method : String} {args args' before after : List Argument} {i : Nat} {e : Error}

/-- The counts decide what a call of the limit family does. -/
theorem limitChange_congr
    (h : ∀ i ∈ countPlaces method, naturalArgument args i = naturalArgument args' i) :
    limitChange method args = limitChange method args' := by
  unfold limitChange
  split
  all_goals simp_all [countPlaces]

/-- A call of the limit family is refused if one of its counts is. -/
theorem exists_error_of_limitChange (hi : i ∈ countPlaces method)
    (he : naturalArgument args i = .error e) : ∃ e', limitChange method args = .error e' := by
  have hsingle : ∀ change : Option Nat → Recorder → Recorder, i ∈ [0] →
      ∃ e', (do let n ← naturalArgument args 0; return change n) = Except.error e' := by
    intro change hi
    obtain rfl := List.mem_singleton.mp hi
    rw [he]
    exact ⟨e, rfl⟩
  unfold countPlaces at hi
  unfold limitChange
  split at hi
  · exact hsingle _ hi
  · exact hsingle _ hi
  · exact hsingle _ hi
  · exact hsingle _ hi
  · -- the count of the page is read before the size
    cases hpage : naturalArgument args 0 with
    | error e' => exact ⟨e', rfl⟩
    | ok page =>
      rcases List.mem_cons.mp hi with rfl | hi
      · rw [hpage] at he
        cases he
      · obtain rfl := List.mem_singleton.mp hi
        rw [he]
        exact ⟨e, rfl⟩
  · cases hi

/-- Other places are read as they were. -/
theorem naturalArgument_of_ne {a b : Argument} (hi : i ≠ before.length) :
    naturalArgument (before ++ a :: after) i = naturalArgument (before ++ b :: after) i := by
  have hplace : (before ++ a :: after)[i]? = (before ++ b :: after)[i]? := by
    by_cases hlt : i < before.length
    · rw [List.getElem?_append_left hlt, List.getElem?_append_left hlt]
    · obtain ⟨k, rfl⟩ : ∃ k, i = before.length + (k + 1) := ⟨i - before.length - 1, by omega⟩
      rw [List.getElem?_append_right (by omega), List.getElem?_append_right (by omega)]
      simp
  unfold naturalArgument
  rw [hplace]

theorem naturalArgument_length (a : Argument) :
    naturalArgument (before ++ a :: after) before.length = naturalArgument [a] 0 := by
  unfold naturalArgument
  rw [List.getElem?_append_right (Nat.le_refl _), Nat.sub_self, List.getElem?_cons_zero]
  rfl

/-- What is no plain value is read as `null` is. -/
theorem naturalArgument_of_value?_eq_none {a : Argument} (h : a.value? = none) (i : Nat) :
    naturalArgument (before ++ a :: after) i =
      naturalArgument (before ++ .value .null :: after) i := by
  by_cases hi : i = before.length
  · rw [hi, naturalArgument_length, naturalArgument_length]
    show naturalArgument [a] 0 = .ok none
    unfold naturalArgument
    rw [List.getElem?_cons_zero, Option.bind_some, h]
  · exact naturalArgument_of_ne hi

/-- An array or an object is no count. -/
theorem exists_error_of_naturalArgument {v : Json} (h : v.isArray = true ∨ v.isObject = true) :
    ∃ e, naturalArgument (before ++ .value v :: after) before.length = .error e := by
  rw [naturalArgument_length]
  cases v with
  | arr xs => exact ⟨_, rfl⟩
  | obj es => exact ⟨_, rfl⟩
  | _ => simp [Json.isArray, Json.isObject] at h

end Counts

end Build

/-! ## Calls that hand arguments on -/

/-- A call on a builder that hands arguments on, without these arguments. -/
inductive Passing where
  | call (method : String)
  | join (method : String) (on : List JoinCondition)
  /-- One of the conditions of a join. -/
  | joinOn (method : String) (args : List Argument) (first : List JoinCondition)
      (condition : String) (last : List JoinCondition)
  | joinQuery (method name : String) (sub : Build Unit) (on : List JoinCondition)
  /-- One of the conditions of a join of a nested query. -/
  | joinQueryOn (method name : String) (sub : Build Unit) (args : List Argument)
      (first : List JoinCondition) (condition : String) (last : List JoinCondition)
  | whereQuery (method : String) (sub : Build Unit)
  | limit (method : String)
  | execute (executor : Executor) (options : Options)

namespace Passing

open Build

/-- The recorder after the call with arguments. -/
def run (p : Passing) (args : List Argument) (r : Recorder) : Recorder :=
  match p with
  | .call method => ((Build.call method args).runOn r).2
  | .join method on => ((Build.join method args on).runOn r).2
  | .joinOn method joined first condition last =>
    ((Build.join method joined (first ++ ⟨condition, args⟩ :: last)).runOn r).2
  | .joinQuery method name sub on => ((Build.joinQuery method name sub args on).runOn r).2
  | .joinQueryOn method name sub joined first condition last =>
    ((Build.joinQuery method name sub joined (first ++ ⟨condition, args⟩ :: last)).runOn r).2
  | .whereQuery method sub => ((Build.whereQuery method args sub).runOn r).2
  | .limit method => ((Build.limit method args).runOn r).2
  | .execute executor options => ((Build.execute executor args options).runOn r).2

/-- The calls of the recorder after the call with arguments, as they are shown. -/
def recorded (p : Passing) (args : List Argument) (r : Recorder) : List String :=
  Call.texts (p.run args r).calls

/-- The places of arguments that are read before the call is recorded. -/
def countPlaces : Passing → List Nat
  | .limit method => Build.countPlaces method
  | _ => []

variable {p : Passing} {args args' : List Argument}

/-- **Arguments that are shown alike are recorded alike, if they count alike.** -/
theorem recorded_congr (htexts : args.map Argument.text = args'.map Argument.text)
    (hcounts : ∀ i ∈ p.countPlaces, naturalArgument args i = naturalArgument args' i)
    (r : Recorder) : p.recorded args r = p.recorded args' r := by
  have hargs : Call.operandTexts (args.map .arg) = Call.operandTexts (args'.map .arg) := by
    rw [Call.operandTexts_args, Call.operandTexts_args, htexts]
  have hjoined : ∀ on : List JoinCondition,
      Call.operandTexts (args.map .arg ++ conditionOperands on) =
        Call.operandTexts (args'.map .arg ++ conditionOperands on) := fun on => by
    rw [Call.operandTexts_append, Call.operandTexts_append, hargs]
  have hconditions : ∀ first condition last,
      Call.operandTexts (conditionOperands (first ++ ⟨condition, args⟩ :: last)) =
        Call.operandTexts (conditionOperands (first ++ ⟨condition, args'⟩ :: last)) := by
    intro first condition last
    refine operandTexts_conditions ?_
    rw [List.map_append, List.map_append, List.map_cons, List.map_cons, JoinCondition.text,
      JoinCondition.text, htexts]
  cases p with
  | call method => exact RecordsAlike.record hargs r
  | join method on =>
    rw [recorded, recorded, run, run, join_eq, join_eq]
    exact RecordsAlike.record (hjoined on) r
  | joinOn method joined first condition last =>
    rw [recorded, recorded, run, run, join_eq, join_eq]
    refine RecordsAlike.record ?_ r
    rw [Call.operandTexts_append, Call.operandTexts_append, hconditions]
  | joinQuery method name sub on =>
    rw [recorded, recorded, run, run, joinQuery_eq, joinQuery_eq]
    refine RecordsAlike.bind (nested sub) (fun calls => .record ?_) r
    rw [Call.operandTexts, Call.operandTexts, Call.operandTexts, Call.operandTexts, hjoined]
  | joinQueryOn method name sub joined first condition last =>
    rw [recorded, recorded, run, run, joinQuery_eq, joinQuery_eq]
    refine RecordsAlike.bind (nested sub) (fun calls => .record ?_) r
    rw [Call.operandTexts, Call.operandTexts, Call.operandTexts, Call.operandTexts,
      Call.operandTexts_append, Call.operandTexts_append, hconditions]
  | whereQuery method sub =>
    refine RecordsAlike.bind (nested sub) (fun calls => .record ?_) r
    rw [Call.operandTexts_append, Call.operandTexts_append, hargs]
  | limit method =>
    -- the counts decide what is done to the rows, and whether the call is made at all
    show Call.texts ((Build.limit method args).runOn r).2.calls = _
    rw [Build.limit, limitChange_congr hcounts]
    exact RecordsAlike.bind _ (fun change => .bind _ fun _ => .record hargs) r
  | execute executor options =>
    show Call.texts ((Build.execute executor args options).runOn r).2.calls =
      Call.texts ((Build.execute executor args' options).runOn r).2.calls
    rw [runOn_execute, runOn_execute, Recorder.calls_executed, Recorder.calls_executed,
      Call.texts_append, Call.texts_append, Call.texts_singleton, Call.texts_singleton, hargs]

/-- Between these arguments, in the place of a count, the plain value is refused and leaves the
recorder as it is.  Taken apart it is read as `null` is, and the call is recorded. -/
structure CountsApart (method : String) (v : Json) (a : Argument) (before after : List Argument)
    (r : Recorder) : Prop where
  refused : ∃ e, (Build.limit method (before ++ .value v :: after)).runOn r = (.error e, r)
  taken : a ≠ .value v → ∀ change,
    limitChange method (before ++ .value .null :: after) = .ok change →
      (Build.limit method (before ++ a :: after)).runOn r =
        (.ok (), (change r).record (.mk method ((before ++ a :: after).map .arg)))

theorem countsApart {method : String} {a : Argument} {before after : List Argument}
    (hcount : before.length ∈ Build.countPlaces method)
    (hparts : a.toJson.isArray = true ∨ a.toJson.isObject = true) (r : Recorder) :
    CountsApart method a.toJson a before after r where
  refused := by
    obtain ⟨e, he⟩ := exists_error_of_naturalArgument hparts
    obtain ⟨e', hrefused⟩ := exists_error_of_limitChange hcount he
    exact ⟨e', runOn_lift_bind_of_error hrefused r⟩
  taken hne change hchange := by
    have hnone : a.value? = none := by
      cases a with
      | value v => exact absurd rfl hne
      | _ => rfl
    have hsame : limitChange method (before ++ a :: after) = .ok change := by
      rw [← hchange]
      exact limitChange_congr fun i _ => naturalArgument_of_value?_eq_none hnone i
    exact runOn_lift_bind_of_ok hsame r

/-- **How much of a value is kept plain does not show.**  Data prints the compact text of the value
that it is flattened to.  A value without raw markers is resolved to itself, and a call that hands
it on records what it would record of the value taken apart into lists and maps.  The exception
are the counts of the limit family, where an array or an object is refused unless it is taken
apart. -/
theorem records_apart :
    (∀ a : Argument, a.IsData → a.text = a.toJson.compact) ∧
    ∀ v : Json, v.containsRaw = false →
      (∀ check, Argument.ofJson check v = .ok (.value v)) ∧
      ∀ a : Argument, a.IsData → a.toJson = v →
        ∀ (p : Passing) (before after : List Argument) (r : Recorder),
          ((before.length ∈ p.countPlaces → v.isArray = false ∧ v.isObject = false) →
            p.recorded (before ++ .value v :: after) r = p.recorded (before ++ a :: after) r) ∧
          ∀ method, p = .limit method → before.length ∈ Build.countPlaces method →
            (v.isArray = true ∨ v.isObject = true) → CountsApart method v a before after r := by
  refine ⟨fun a h => h.text_eq_compact, fun v hplain =>
    ⟨fun check => Argument.ofJson_of_plain hplain, ?_⟩⟩
  rintro a hdata rfl p before after r
  constructor
  · intro hscalar
    -- a count is a scalar here, and a scalar cannot be taken apart
    by_cases hcount : before.length ∈ p.countPlaces
    · obtain ⟨harray, hobject⟩ := hscalar hcount
      rw [← hdata.eq_value harray hobject]
    · have htexts : (before ++ .value a.toJson :: after).map Argument.text =
          (before ++ a :: after).map Argument.text := by
        rw [List.map_append, List.map_append, List.map_cons, List.map_cons,
          hdata.text_eq_compact]
        rfl
      refine recorded_congr htexts (fun i hi => naturalArgument_of_ne fun heq => ?_) r
      exact hcount (heq ▸ hi)
  · rintro method - hcount hparts
    exact countsApart hcount hparts r

/-- An object with an array in it. -/
def rangeValue : Json :=
  .obj [("between", .arr [.nat 1, .str "x,y"])]

/-- The object taken apart, the array in it kept plain. -/
def rangeArgument : Argument :=
  .map [("between", .value (.arr [.nat 1, .str "x,y"]))]

theorem records_apart_range :
    rangeValue.containsRaw = false ∧ rangeArgument.IsData ∧ rangeArgument.toJson = rangeValue ∧
      rangeArgument.text = rangeValue.compact ∧
      recorded (.call "where") [.value (.str "id"), .value rangeValue] .fresh =
        recorded (.call "where") [.value (.str "id"), rangeArgument] .fresh ∧
      CountsApart "take" rangeValue rangeArgument [] [] .fresh := by
  have hdata : rangeArgument.IsData := by
    refine .map (by decide) fun entry hentry => ?_
    rw [List.mem_singleton.mp hentry]
    exact .value _
  obtain ⟨hprints, hrecords⟩ := records_apart
  obtain ⟨-, hapart⟩ := hrecords rangeValue rfl
  obtain ⟨hsame, -⟩ :=
    hapart rangeArgument hdata rfl (.call "where") [.value (.str "id")] [] .fresh
  obtain ⟨-, hcounts⟩ := hapart rangeArgument hdata rfl (.limit "take") [] [] .fresh
  exact ⟨rfl, hdata, rfl, hprints rangeArgument hdata, hsame nofun,
    hcounts "take" rfl (by decide) (.inr rfl)⟩

/-- A count in brackets is refused as it is, but recorded if it is taken apart. -/
theorem recorded_limit_bracketed :
    (Json.arr [.nat 1]).containsRaw = false ∧ (Argument.list [.value (.nat 1)]).IsData ∧
      (Argument.list [.value (.nat 1)]).toJson = .arr [.nat 1] ∧
      recorded (.limit "limit") [.value (.arr [.nat 1])] .fresh = [] ∧
      recorded (.limit "limit") [.list [.value (.nat 1)]] .fresh = ["limit([1])"] := by
  refine ⟨rfl, .list fun a ha => ?_, rfl, rfl, rfl⟩
  rw [List.mem_singleton.mp ha]
  exact .value _

end Passing

end QueryScript
