import QueryScript.Proofs.Assembly.Overlooking
import QueryScript.Proofs.Params.Mentions

/-!
# What assembling a query reads of the parameters

A step reads parameters when its action's value is filled in, when its condition is decided,
and when the conditions of a join are filled in.  All three read names that the step mentions
(`Item.Mentions`), and what they get is handed on as it is.

So a definition is assembled in the same way, call by call and failure by failure, under any
two maps of parameters that agree on the names its steps mention (`assemble_congr`).  The
statement is an equation between builds, which is why nothing has to be said about
definitions that are nested: a nested build under one map is the nested build under the
other.
-/

namespace QueryScript

/-- A step mentions a parameter: something in it refers to the parameter, or its condition asks
for it. -/
inductive Item.Mentions (name : String) : Item → Prop where
  | refers {es : Entries} {nested : List (Slot × Definition)} (h : (Json.obj es).Refers name) :
      Mentions name (.step es nested)
  | asks {es : Entries} {nested : List (Slot × Definition)} {condition : Json}
      (hwhen : Entries.get? es "when" = some condition)
      (h : (Condition.ofJson condition).Asks name) : Mentions name (.step es nested)

/-- An operand of a written condition occurs in the value that writes the conditions. -/
theorem WrittenCondition.part_of_mem_args {on v : Json} {c : WrittenCondition}
    {cs : List WrittenCondition} (h : ofJson on = .ok cs) (hc : c ∈ cs) (hv : v ∈ c.args) :
    Json.Part v on :=
  (meets_or_beside h hc hv).1

namespace Scope

/-- The scope of the same query for another caller. -/
def withParams (scope : Scope) (params : Params) : Scope :=
  { scope with params := params }

variable {scope : Scope} {params params' : Params} {item : Item} {items : Definition}
  {a : Application}

/-- The parameters are given the same values for all names that an item mentions. -/
def Agree (params params' : Params) (item : Item) : Prop :=
  ∀ name, item.Mentions name → params.get? name = params'.get? name

/-- What occurs in a step is filled in in the same way. -/
theorem Agree.resolve {es : Entries} {nested : List (Slot × Definition)} {v : Json}
    (h : Agree params params' (.step es nested)) (hpart : Json.Part v (.obj es)) :
    v.resolve params = v.resolve params' :=
  Json.resolve_congr v fun name hname => h name (.refers (hname.part hpart))

/-- The conditions of a join are filled in in the same way. -/
theorem conditions_congr {nested : List (Slot × Definition)}
    (hagree : Agree params params' (.step a.entries nested))
    (hwritten : Entries.get? a.entries a.method = some a.written) :
    a.conditions (scope.withParams params) = a.conditions (scope.withParams params') := by
  rw [Application.conditions, Application.conditions]
  cases hon : Entries.get? a.entries "on" <|> a.written.field? "on" with
  | none => rfl
  | some on =>
    have hpart : Json.Part on (.obj a.entries) := by
      rcases Application.mem_entries_or_get?_written hon with hown | ⟨es, hobject, hget⟩
      · exact .entry hown .self
      · refine .entry (Entries.mem_of_get? hwritten) ?_
        rw [hobject]
        exact .entry (Entries.mem_of_get? hget) .self
    refine Checks.bind_congr fun cs hread => Checks.mapM_congr fun c hc => ?_
    have hargs : ∀ v ∈ c.args, v.resolve params = v.resolve params' := fun v hv =>
      hagree.resolve ((WrittenCondition.part_of_mem_args hread hc hv).trans hpart)
    rw [condition, condition, withParams, withParams, List.map_congr_left hargs]
    rfl

/-- An action is applied in the same way where its conditions are. -/
theorem apply_congr
    (h : a.conditions (scope.withParams params) = a.conditions (scope.withParams params')) :
    a.apply (scope.withParams params) = a.apply (scope.withParams params') := by
  have hjoin : a.applyJoin (scope.withParams params) = a.applyJoin (scope.withParams params') := by
    rw [Application.applyJoin, Application.applyJoin, h]
    rfl
  have hquery : a.applyJoinQuery (scope.withParams params) =
      a.applyJoinQuery (scope.withParams params') := by
    rw [Application.applyJoinQuery, Application.applyJoinQuery, h]
    rfl
  rw [Application.apply, Application.apply, hjoin, hquery]
  rfl

/-- The condition of an action is decided in the same way. -/
theorem admits_congr {nested : List (Slot × Definition)}
    (hagree : Agree params params' (.step a.entries nested)) :
    (scope.withParams params).admits a = (scope.withParams params').admits a := by
  rw [admits, admits, isEnabled, isEnabled]
  cases hwhen : Entries.get? a.entries "when" with
  | none => rfl
  | some condition =>
    exact Condition.holds_congr _ fun name hasks => hagree name (.asks hwhen hasks)

/-- The action of an item is the same, with what it is given, if the definitions nested in the
item are assembled in the same way. -/
theorem application?_congr (hagree : Agree params params' item)
    (hnested : ∀ slot d, (slot, d) ∈ item.nested →
      (scope.withParams params).assemble d = (scope.withParams params').assemble d) :
    (scope.withParams params).application? item =
      (scope.withParams params').application? item := by
  have hbuilds : (scope.withParams params).assembleNested item.nested =
      (scope.withParams params').assembleNested item.nested := by
    rw [assembleNested_eq_map, assembleNested_eq_map]
    refine List.map_congr_left fun (slot, d) hentry => ?_
    dsimp only
    rw [hnested slot d hentry]
  have hsame : (scope.withParams params).application? item =
      ((scope.withParams params').application? item).map
        ({ · with nested := (scope.withParams params).assembleNested item.nested }) := by
    refine application?_of_resolve fun es nested key written hitem hwritten => ?_
    rw [hitem] at hagree
    exact hagree.resolve (.entry (Entries.mem_of_get? hwritten) .self)
  rw [hsame]
  cases happ : (scope.withParams params').application? item with
  | none => rfl
  | some a =>
    rw [Option.map_some, hbuilds, ← (application?_spec happ).2.1]

/-- The step of an item is the same. -/
theorem assembleItem_congr (hagree : Agree params params' item)
    (hnested : ∀ slot d, (slot, d) ∈ item.nested →
      (scope.withParams params).assemble d = (scope.withParams params').assemble d) :
    (scope.withParams params).assembleItem item = (scope.withParams params').assembleItem item := by
  rw [assembleItem_eq, assembleItem_eq, application?_congr hagree hnested]
  cases happ : (scope.withParams params').application? item with
  | none => rfl
  | some a =>
    obtain ⟨-, -, nested, rfl, -, hwritten, -⟩ := application?_spec happ
    have hconditions : a.conditions (scope.withParams params) =
        a.conditions (scope.withParams params') := conditions_congr hagree hwritten
    have happly := apply_congr hconditions
    dsimp only
    rw [perform, perform, admits_congr hagree, happly]
    rfl

/-- **A definition is assembled in the same way** for any two callers whose parameters agree on
the names that its steps mention. -/
theorem assemble_congr (items : Definition)
    (h : ∀ item, items.HasItem item → Agree params params' item) :
    (scope.withParams params).assemble items = (scope.withParams params').assemble items := by
  induction items using Definition.induction with
  | h items ih =>
    have hitems : ∀ item ∈ items, (scope.withParams params).assembleItem item =
        (scope.withParams params').assembleItem item := by
      intro item hitem
      refine assembleItem_congr (h item (.own hitem)) fun slot d hslot => ?_
      exact ih item hitem slot d hslot fun inner hinner => h inner (.nested hitem hslot hinner)
    rw [assemble, assemble, assembleItems_eq_map, assembleItems_eq_map,
      List.map_congr_left hitems]

end Scope

end QueryScript
