import Mathlib.Data.List.Permutation
import Mathlib.Logic.Relation
import QueryScript.Condition.Basic
import QueryScript.Proofs.Json.Keys

/-!
# The spellings of a condition

A connective is written under a key of its own or under `op` with `operands`, a comparison under
its name or under `op`, and a truth value as a boolean or as a word.  What is written is one node
(`Node`) in each spelling (`Spells`), with the operands, positions and values as they are given;
these may be any values, so nothing is assumed to be read.

The reader finds its way by a fixed order of the keys.  `Joins` tells when an object is taken for
a connective, whatever other keys it has, and `Spells.ofJson_eq` that both spellings of a node are
read as the same condition, a malformed one as well as any other.

A node inside a condition stands under `and`, `or`, `not` or `operands`.  An object asks for the
values under these keys only to read them as conditions (`ofJson_replace`), so one node spelled
another way, at whatever depth, leaves the reading alone (`ofJson_of_respells`); and so does any
chain of such changes (`evaluate_of_respelled`).
-/

namespace QueryScript.Condition

/-! ## Reading by keys -/

/-- Operands are read one by one. -/
theorem ofItems_eq_map (xs : List Json) : ofItems xs = xs.map ofJson := by
  induction xs with
  | nil => rfl
  | cons x xs ih => rw [ofItems, ih, List.map_cons]

/-- The array under a key, if there is one. -/
def itemsUnder? (es : Entries) (key : String) : Option (List Json) :=
  (Entries.get? es key).bind Json.array?

theorem operandsUnder_eq (key : String) (es : Entries) :
    operandsUnder key es = (itemsUnder? es key).map (List.map ofJson) := by
  induction es with
  | nil => rfl
  | cons entry es ih =>
    obtain ⟨k, v⟩ := entry
    rw [itemsUnder?, Entries.get?]
    cases v with
    | arr xs =>
      rw [operandsUnder]
      split
      · rw [ofItems_eq_map]
        rfl
      · exact ih
    | _ =>
      rw [operandsUnder]
      split
      · rfl
      · exact ih
      · exact fun _ h => by cases h

theorem operandUnder_eq (key : String) (es : Entries) :
    operandUnder key es = (Entries.get? es key).map ofJson := by
  induction es with
  | nil => rfl
  | cons entry es ih =>
    obtain ⟨k, v⟩ := entry
    rw [operandUnder, Entries.get?]
    split
    · rfl
    · exact ih

/-- An object with an `op` and none of the keys that are looked at before it. -/
theorem ofJson_of_op {es : Entries} {op : String} (hparam : textUnder? es "param" = none)
    (hand : itemsUnder? es "and" = none) (hor : itemsUnder? es "or" = none)
    (hnot : Entries.get? es "not" = none) (hop : textUnder? es "op" = some op) :
    ofJson (.obj es) = operation op ((itemsUnder? es "operands").map (List.map ofJson)) es := by
  rw [ofJson, hparam, operandsUnder_eq, operandsUnder_eq, operandUnder_eq, operandsUnder_eq, hand,
    hor, hnot, hop]
  rfl

/-! ## Connectives -/

/-- A logical connective. -/
inductive Connective where
  | all
  | any
  | not
deriving DecidableEq

namespace Connective

/-- The name of a connective, as a key and under `op`. -/
def name : Connective → String
  | .all => "and"
  | .any => "or"
  | .not => "not"

/-- The condition that a connective makes of its operands: `not` looks at the last one, and makes
nothing of none. -/
def join : Connective → List Condition → Condition
  | .all, operands => .all operands
  | .any, operands => .any operands
  | .not, operands => (operands.getLast?.map Condition.not).getD .unreadable

end Connective

variable {es : Entries} {c : Connective} {xs : List Json}

/-- The reader takes an object for a connective of the values `xs`, whatever other keys it has.  A
parameter's name comes before the connectives, and these are looked for in turn. -/
inductive Joins (es : Entries) : Connective → List Json → Prop where
  | and {xs : List Json} (hparam : textUnder? es "param" = none)
      (h : itemsUnder? es "and" = some xs) : Joins es .all xs
  | or {xs : List Json} (hparam : textUnder? es "param" = none)
      (hand : itemsUnder? es "and" = none) (h : itemsUnder? es "or" = some xs) : Joins es .any xs
  | not {v : Json} (hparam : textUnder? es "param" = none) (hand : itemsUnder? es "and" = none)
      (hor : itemsUnder? es "or" = none) (h : Entries.get? es "not" = some v) :
      Joins es .not [v]
  | op {c : Connective} {xs : List Json} (hparam : textUnder? es "param" = none)
      (hand : itemsUnder? es "and" = none) (hor : itemsUnder? es "or" = none)
      (hnot : Entries.get? es "not" = none) (hop : textUnder? es "op" = some c.name)
      (h : itemsUnder? es "operands" = some xs) : Joins es c xs

/-- An object that joins operands is read as their connective. -/
theorem Joins.ofJson_eq (h : Joins es c xs) : ofJson (.obj es) = c.join (xs.map ofJson) := by
  cases h with
  | and hparam h =>
    rw [ofJson, hparam, operandsUnder_eq, h]
    rfl
  | or hparam hand h =>
    rw [ofJson, hparam, operandsUnder_eq, operandsUnder_eq, hand, h]
    rfl
  | not hparam hand hor h =>
    rw [ofJson, hparam, operandsUnder_eq, operandsUnder_eq, operandUnder_eq, hand, hor, h]
    rfl
  | op hparam hand hor hnot hop h =>
    rw [ofJson_of_op hparam hand hor hnot hop, h]
    cases c <;> rfl

/-! ## Nodes -/

/-- What one node of a condition says, in either spelling. -/
inductive Node where
  | literal (value : Bool)
  | join (connective : Connective) (operands : List Json)
  /-- A comparison of the argument at a position, which may be none, with a value. -/
  | argCompare (comparison : Comparison) (position expected : Json)
  | paramCompare (name : String) (comparison : Comparison) (expected : Json)

/-- A value spells a node.  The keys of an object may be in any order. -/
inductive Spells : Json → Node → Prop where
  | flag (b : Bool) : Spells (.bool b) (.literal b)
  | yes : Spells (.str "true") (.literal true)
  | no : Spells (.str "false") (.literal false)
  | and (xs : List Json) : Spells (.obj [("and", .arr xs)]) (.join .all xs)
  | or (xs : List Json) : Spells (.obj [("or", .arr xs)]) (.join .any xs)
  | not (v : Json) : Spells (.obj [("not", v)]) (.join .not [v])
  | opJoin {es : Entries} {c : Connective} {xs : List Json}
      (h : es.Perm [("op", .str c.name), ("operands", .arr xs)]) : Spells (.obj es) (.join c xs)
  | compare (c : Comparison) (i v : Json) :
      Spells (.obj [(c.name, .arr [i, v])]) (.argCompare c i v)
  | opCompare {es : Entries} {c : Comparison} {i v : Json}
      (h : es.Perm [("op", .str c.name), ("index", i), ("value", v)]) :
      Spells (.obj es) (.argCompare c i v)
  | param {es : Entries} {name : String} {c : Comparison} {v : Json}
      (h : es.Perm [("param", .str name), (c.name, v)]) : Spells (.obj es) (.paramCompare name c v)
  | opParam {es : Entries} {name : String} {c : Comparison} {v : Json}
      (h : es.Perm [("param", .str name), ("op", .str c.name), ("value", v)]) :
      Spells (.obj es) (.paramCompare name c v)

/-- The condition that a node is read as. -/
def Node.condition : Node → Condition
  | .literal b => .literal b
  | .join c xs => c.join (xs.map ofJson)
  | .argCompare c i v => .argCompare c ((position? i).map fun i => (i, v))
  | .paramCompare name c v => .param name (.compare c v)

theorem textUnder?_of_perm {fs : Entries} (h : es.Perm fs) (hfs : (Entries.keys fs).Nodup)
    (key : String) : textUnder? es key = textUnder? fs key := by
  rw [textUnder?, textUnder?, Entries.get?_of_perm h hfs]

theorem itemsUnder?_of_perm {fs : Entries} (h : es.Perm fs) (hfs : (Entries.keys fs).Nodup)
    (key : String) : itemsUnder? es key = itemsUnder? fs key := by
  rw [itemsUnder?, itemsUnder?, Entries.get?_of_perm h hfs]

theorem operation_comparison (c : Comparison) (operands : Option (List Condition)) :
    operation c.name operands es = .argCompare c (keyedTarget? es) := by
  cases c <;> rfl

theorem keyedTarget?_eq {i v : Json} (hindex : Entries.get? es "index" = some i)
    (hvalue : Entries.get? es "value" = some v) :
    keyedTarget? es = (position? i).map fun i => (i, v) := by
  rw [keyedTarget?, hindex, hvalue, Option.bind_some]
  cases position? i <;> rfl

/-- **Both spellings of a node are read as the same condition.** -/
theorem Spells.ofJson_eq {v : Json} {n : Node} (h : Spells v n) : ofJson v = n.condition := by
  cases h with
  | flag => rw [ofJson]; rfl
  | yes => rw [ofJson]; rfl
  | no => rw [ofJson]; rfl
  | and xs => exact (Joins.and rfl rfl).ofJson_eq
  | or xs => exact (Joins.or rfl rfl rfl).ofJson_eq
  | not v => exact (Joins.not rfl rfl rfl rfl).ofJson_eq
  | opJoin h =>
    rcases List.perm_pair.mp h with rfl | rfl
    · exact (Joins.op rfl rfl rfl rfl rfl rfl).ofJson_eq
    · exact (Joins.op rfl rfl rfl rfl rfl rfl).ofJson_eq
  | compare c i v => cases c <;> rfl
  | @opCompare es c i v h =>
    have hkeys : (Entries.keys [("op", Json.str c.name), ("index", i), ("value", v)]).Nodup := by
      show ["op", "index", "value"].Nodup
      decide
    have hparam : textUnder? es "param" = none := (textUnder?_of_perm h hkeys "param").trans rfl
    have hand : itemsUnder? es "and" = none := (itemsUnder?_of_perm h hkeys "and").trans rfl
    have hor : itemsUnder? es "or" = none := (itemsUnder?_of_perm h hkeys "or").trans rfl
    have hnot : Entries.get? es "not" = none := (Entries.get?_of_perm h hkeys "not").trans rfl
    have hop : textUnder? es "op" = some c.name := (textUnder?_of_perm h hkeys "op").trans rfl
    have hindex : Entries.get? es "index" = some i :=
      (Entries.get?_of_perm h hkeys "index").trans rfl
    have hvalue : Entries.get? es "value" = some v :=
      (Entries.get?_of_perm h hkeys "value").trans rfl
    rw [ofJson_of_op hparam hand hor hnot hop, operation_comparison, keyedTarget?_eq hindex hvalue,
      Node.condition]
  | @param es name c v h =>
    rcases List.perm_pair.mp h with rfl | rfl
    · cases c <;> rfl
    · cases c <;> rfl
  | @opParam es name c v h =>
    have hkeys : (Entries.keys
        [("param", Json.str name), ("op", .str c.name), ("value", v)]).Nodup := by
      show ["param", "op", "value"].Nodup
      decide
    have hparam : textUnder? es "param" = some name :=
      (textUnder?_of_perm h hkeys "param").trans rfl
    have hop : textUnder? es "op" = some c.name := (textUnder?_of_perm h hkeys "op").trans rfl
    have hvalue : Entries.get? es "value" = some v :=
      (Entries.get?_of_perm h hkeys "value").trans rfl
    rw [ofJson, hparam]
    dsimp only
    rw [paramTest, hop, hvalue, Option.bind_some, Comparison.ofName?_name]
    rfl

/-! ## Nodes inside a condition -/

/-- The keys under which conditions stand. -/
def operandKeys : List String := ["and", "or", "operands", "not"]

/-- One node of a condition is spelled another way, the condition itself or one that stands in it at
whatever depth. -/
inductive Respells : Json → Json → Prop where
  | node {v w : Json} {n : Node} (hv : Spells v n) (hw : Spells w n) : Respells v w
  | item (before after : Entries) {key : String} (hkey : key ∈ ["and", "or", "operands"])
      (front back : List Json) {v w : Json} (h : Respells v w) :
      Respells (.obj (before ++ (key, .arr (front ++ v :: back)) :: after))
        (.obj (before ++ (key, .arr (front ++ w :: back)) :: after))
  | operand (before after : Entries) {v w : Json} (h : Respells v w) :
      Respells (.obj (before ++ ("not", v) :: after)) (.obj (before ++ ("not", w) :: after))

variable {before after : Entries} {key : String} {v w : Json}

/-- A key of operands is none of the other keys that the reader looks at. -/
theorem ne_of_mem_operandKeys (hkey : key ∈ operandKeys) {k : String} (hk : k ∉ operandKeys) :
    k ≠ key :=
  (ne_of_mem_of_not_mem hkey hk).symm

theorem textUnder?_replace {k : String} (hk : k ≠ key) :
    textUnder? (before ++ (key, v) :: after) k = textUnder? (before ++ (key, w) :: after) k := by
  rw [textUnder?, textUnder?, Entries.get?_replace hk]

/-- A test of a parameter is not asked for under the keys of operands. -/
theorem paramTest_replace (hkey : key ∈ operandKeys) :
    paramTest (before ++ (key, v) :: after) = paramTest (before ++ (key, w) :: after) := by
  have hop : "op" ≠ key := ne_of_mem_operandKeys hkey (by decide)
  have hvalue : "value" ≠ key := ne_of_mem_operandKeys hkey (by decide)
  have hentry : ∀ u, entryTest? key u = none := by
    intro u
    obtain rfl | rfl | rfl | rfl : key = "and" ∨ key = "or" ∨ key = "operands" ∨ key = "not" := by
      simpa [operandKeys] using hkey
    all_goals rfl
  simp only [paramTest, textUnder?_replace hop (w := w), Entries.get?_replace hvalue (w := w),
    List.findSome?_append, List.findSome?_cons, hentry]

/-- The keys of operands are no keys of a plain condition. -/
theorem plain_replace (hkey : key ∈ operandKeys) :
    plain (before ++ (key, v) :: after) = plain (before ++ (key, w) :: after) := by
  have hfilled : "notEmpty" ≠ key := ne_of_mem_operandKeys hkey (by decide)
  have hempty : "isEmpty" ≠ key := ne_of_mem_operandKeys hkey (by decide)
  have hname : ∀ key ∈ operandKeys, Comparison.ofName? key = none := by decide
  simp only [plain, Entries.get?_replace hfilled (w := w), Entries.get?_replace hempty (w := w),
    List.findSome?_append, List.findSome?_cons, hname key hkey, Option.map_none]

theorem keyedTarget?_replace (hkey : key ∈ operandKeys) :
    keyedTarget? (before ++ (key, v) :: after) = keyedTarget? (before ++ (key, w) :: after) := by
  have hindex : "index" ≠ key := ne_of_mem_operandKeys hkey (by decide)
  have hvalue : "value" ≠ key := ne_of_mem_operandKeys hkey (by decide)
  rw [keyedTarget?, keyedTarget?, Entries.get?_replace hindex, Entries.get?_replace hvalue]

theorem operandsUnder_replace (k : String)
    (hitems : k = key → v.array?.map (List.map ofJson) = w.array?.map (List.map ofJson)) :
    operandsUnder k (before ++ (key, v) :: after) =
      operandsUnder k (before ++ (key, w) :: after) := by
  rw [operandsUnder_eq, operandsUnder_eq, itemsUnder?, itemsUnder?]
  rcases Entries.get?_replace_or before after key v w k with hsame | ⟨hk, hv, hw⟩
  · rw [hsame]
  · rw [hv, hw]
    exact hitems hk

theorem operandUnder_replace (k : String) (hvalue : k = key → ofJson v = ofJson w) :
    operandUnder k (before ++ (key, v) :: after) =
      operandUnder k (before ++ (key, w) :: after) := by
  rw [operandUnder_eq, operandUnder_eq]
  rcases Entries.get?_replace_or before after key v w k with hsame | ⟨hk, hv, hw⟩
  · rw [hsame]
  · rw [hv, hw]
    exact congrArg some (hvalue hk)

/-- **What stands under a key of operands counts by its reading.**  Under `not` a value is read,
under the other keys the items of an array are. -/
theorem ofJson_replace (hkey : key ∈ operandKeys)
    (hitems : key ≠ "not" → v.array?.map (List.map ofJson) = w.array?.map (List.map ofJson))
    (hvalue : key = "not" → ofJson v = ofJson w) :
    ofJson (.obj (before ++ (key, v) :: after)) = ofJson (.obj (before ++ (key, w) :: after)) := by
  have hparam : "param" ≠ key := ne_of_mem_operandKeys hkey (by decide)
  have hop : "op" ≠ key := ne_of_mem_operandKeys hkey (by decide)
  have hoperands : ∀ k ≠ "not", operandsUnder k (before ++ (key, v) :: after) =
      operandsUnder k (before ++ (key, w) :: after) :=
    fun k hk => operandsUnder_replace k fun h => hitems (h ▸ hk)
  have hoperand : operandUnder "not" (before ++ (key, v) :: after) =
      operandUnder "not" (before ++ (key, w) :: after) :=
    operandUnder_replace "not" fun h => hvalue h.symm
  have hoperation : ∀ op operands, operation op operands (before ++ (key, v) :: after) =
      operation op operands (before ++ (key, w) :: after) := by
    intro op operands
    simp only [operation, keyedTarget?_replace hkey (w := w)]
  rw [ofJson, ofJson, textUnder?_replace hparam (w := w), textUnder?_replace hop (w := w),
    paramTest_replace hkey (w := w), plain_replace hkey (w := w), hoperands "and" (by decide),
    hoperands "or" (by decide), hoperands "operands" (by decide), hoperand]
  simp only [hoperation]

/-- A node spelled another way is read alike, wherever it stands. -/
theorem ofJson_of_respells (h : Respells v w) : ofJson v = ofJson w := by
  induction h with
  | node hv hw => rw [hv.ofJson_eq, hw.ofJson_eq]
  | item before after hkey front back _ ih =>
    refine ofJson_replace ?_ (fun _ => ?_) fun hnot => ?_
    · exact List.mem_append_left ["not"] hkey
    · simp only [Json.array?, Option.map_some, List.map_append, List.map_cons, ih]
    · exact absurd (hnot ▸ hkey) (by decide)
  | operand before after _ ih => exact ofJson_replace (by decide) (fun h => absurd rfl h) fun _ => ih

/-- **The spellings of the condition language are equivalent.**  However many nodes of a condition
are spelled another way, one after the other and at whatever depth, it is decided alike for all
arguments and parameters. -/
theorem evaluate_of_respelled (h : Relation.EqvGen Respells v w) (args : List Json)
    (params : Params) : evaluate v args params = evaluate w args params := by
  have hread : ofJson v = ofJson w := by
    induction h with
    | rel _ _ h => exact ofJson_of_respells h
    | refl => rfl
    | symm _ _ _ ih => exact ih.symm
    | trans _ _ _ _ _ ih ih' => exact ih.trans ih'
  rw [evaluate, evaluate, hread]

/-- A disjunction is spelled with `op`, and then the comparison in it, whose position is none. -/
theorem evaluate_of_respelled_noPosition :
    Relation.EqvGen Respells
      (.obj [("or", .arr [.bool false, .obj [("gt", .arr [.int 0, .int 10])]])])
      (.obj [("operands", .arr [.bool false, .obj [("op", .str "gt"), ("index", .int 0),
        ("value", .int 10)]]), ("op", .str "or")]) ∧
    evaluate
      (.obj [("operands", .arr [.bool false, .obj [("op", .str "gt"), ("index", .int 0),
        ("value", .int 10)]]), ("op", .str "or")]) [.int 18] .empty = false := by
  let short := Json.obj [("gt", .arr [.int 0, .int 10])]
  let long := Json.obj [("op", .str "gt"), ("index", .int 0), ("value", .int 10)]
  have hor : Respells (.obj [("or", .arr [.bool false, short])])
      (.obj [("operands", .arr [.bool false, short]), ("op", .str "or")]) :=
    .node (.or _) (.opJoin (c := .any) (List.Perm.swap ..))
  have hgt : Respells short long :=
    .node (.compare .gt _ _) (.opCompare (c := .gt) (List.Perm.refl _))
  have hinner : Respells (.obj [("operands", .arr [.bool false, short]), ("op", .str "or")])
      (.obj [("operands", .arr [.bool false, long]), ("op", .str "or")]) :=
    .item [] _ (by decide) [_] [] hgt
  have h := Relation.EqvGen.trans _ _ _ (.rel _ _ hor) (.rel _ _ hinner)
  refine ⟨h, ?_⟩
  rw [← evaluate_of_respelled h]
  rfl

end QueryScript.Condition
