import QueryScript.Proofs.Assembly.Runs
import QueryScript.Proofs.Engine.Build
import QueryScript.Proofs.Recorder.Arguments

/-!
# No SQL text reaches the builder unscreened

Raw SQL enters a definition in many ways and leaves it in three: as a raw expression in
an argument, as the first text of an action whose first argument is SQL, and, if a
marker were overlooked, inside a plain value.  `ClearsSql` says of a call that all three
are clear of what the catalog finds.

Every call that an action can make is clear (`clearsSql_of_makes`), because each argument
of it was resolved by the screen and each leading text was judged.  As every call of a
query is made by an action, so is every call of a build, at whatever depth and whether
the build succeeds or stops with an error (`build_clearsSql`).
-/

namespace QueryScript

/-- The arguments handed to a call, those in the conditions of a join among them.  Calls on a
nested builder are handed their own. -/
def Operand.arguments : Operand → List Argument
  | .arg a => [a]
  | .nested _ => []
  | .conditions cs => cs.flatMap (·.args)

/-- The arguments handed to a call. -/
def Call.arguments (c : Call) : List Argument :=
  c.operands.flatMap Operand.arguments

/-- A call is clear of SQL that the catalog finds, and of raw markers that were overlooked. -/
structure Catalog.ClearsSql (catalog : Catalog) (c : Call) : Prop where
  /-- The catalog finds nothing in the text of a raw expression. -/
  raw : ∀ a ∈ c.arguments, ∀ r, Argument.Within (.raw r) a → catalog.findMatch? r.sql = none
  /-- The catalog finds nothing in the first argument if that is SQL text. -/
  text : ∀ route, Action.route? c.method = some route → route.isRaw = true →
    ∀ sql, c.operands.head? = some (.arg (.value (.str sql))) → catalog.findMatch? sql = none
  /-- No object in a plain value has the key of a raw marker. -/
  plain : ∀ a ∈ c.arguments, ∀ v, Argument.Within (.value v) a →
    ∀ es, Json.Part (.obj es) v → Entries.has es Json.rawKey = false

/-- SQL passes exactly if no rule of the catalog finds a match. -/
theorem Catalog.check_eq_ok_iff {catalog : Catalog} {sql : String} :
    catalog.check sql = .ok () ↔ catalog.findMatch? sql = none := by
  rw [Catalog.check]
  cases catalog.findMatch? sql with
  | none => exact ⟨fun _ => rfl, fun _ => rfl⟩
  | some hit =>
    constructor
    · intro h
      cases h
    · intro h
      cases h

namespace Scope

variable {scope : Scope}

/-- The arguments in some operands are screened. -/
def Screens (scope : Scope) (operands : List Operand) : Prop :=
  ∀ arg ∈ operands.flatMap Operand.arguments, Argument.Screened scope.guard.checkSql arg

theorem screens_append {front back : List Operand} (hfront : scope.Screens front)
    (hback : scope.Screens back) : scope.Screens (front ++ back) := by
  intro arg harg
  rw [List.flatMap_append] at harg
  rcases List.mem_append.mp harg with harg | harg
  · exact hfront arg harg
  · exact hback arg harg

theorem screens_nil : scope.Screens [] := by
  intro arg harg
  cases harg

/-- Calls on a nested builder are no arguments of the call around them. -/
theorem screens_nested {inner : List Call} {operands : List Operand}
    (h : scope.Screens operands) : scope.Screens (.nested inner :: operands) := by
  refine @screens_append _ [_] _ ?_ h
  intro arg harg
  cases harg

theorem screens_text {s : String} {operands : List Operand} (h : scope.Screens operands) :
    scope.Screens (Build.textOperand s :: operands) := by
  refine @screens_append _ [_] _ ?_ h
  intro arg harg
  rw [List.mem_singleton.mp harg]
  exact Argument.screened_value rfl

theorem screens_arguments {args : List Json} {out : List Argument}
    (h : scope.arguments args = .ok out) : scope.Screens (out.map .arg) := by
  intro arg harg
  obtain ⟨operand, hoperand, hin⟩ := List.mem_flatMap.mp harg
  obtain ⟨arg', harg', rfl⟩ := List.mem_map.mp hoperand
  rw [List.mem_singleton.mp hin]
  exact Argument.screened_of_resolveAll h harg'

/-- The conditions of a join are resolved by the screen like all other arguments. -/
theorem screens_conditions {a : Application} {on : List JoinCondition}
    (h : a.conditions scope = .ok on) : scope.Screens (Build.conditionOperands on) := by
  have hall : ∀ c ∈ on, ∀ arg ∈ c.args, Argument.Screened scope.guard.checkSql arg := by
    intro c hc arg harg
    rw [Application.conditions] at h
    split at h
    next =>
      cases h
      cases hc
    next written _ =>
      obtain ⟨cs, -, hcs⟩ := Checks.bind_eq_ok.mp h
      obtain ⟨w, -, hw⟩ := Checks.exists_of_mem_mapM hcs hc
      obtain ⟨args, hargs, hpure⟩ := Checks.bind_eq_ok.mp hw
      cases hpure
      exact Argument.screened_of_resolveAll hargs harg
  intro arg harg
  rw [Build.conditionOperands] at harg
  split at harg
  next => cases harg
  next =>
    rw [List.flatMap_singleton] at harg
    obtain ⟨c, hc, hin⟩ := List.mem_flatMap.mp harg
    exact hall c hc arg hin

/-- A text that leads the operands of a call leads the arguments that they were resolved
from. -/
theorem checkSql_of_head {args : List Json} {out : List Argument} {more : List Operand}
    {sql : String} (hsql : scope.checkSql args = .ok ()) (hargs : scope.arguments args = .ok out)
    (hmore : ∀ arg, more.head? ≠ some (.arg arg))
    (hhead : (out.map Operand.arg ++ more).head? = some (.arg (.value (.str sql)))) :
    scope.guard.checkSql sql = .ok () := by
  -- only an argument can be a text; what stands after the arguments is none
  cases out with
  | nil => exact absurd hhead (hmore _)
  | cons arg rest =>
    cases hhead
    obtain ⟨tail, htail⟩ := Argument.head_of_resolveAll hargs
    rw [htail] at hsql
    exact hsql

/-- A call is clear if its arguments are screened and its first text is judged where that is
SQL. -/
theorem clearsSql_of_screens {c : Call} (hscreens : scope.Screens c.operands)
    (htext : ∀ route, Action.route? c.method = some route → route.isRaw = true →
      ∀ sql, c.operands.head? = some (.arg (.value (.str sql))) →
        scope.guard.checkSql sql = .ok ()) :
    scope.guard.catalog.ClearsSql c where
  raw arg harg r hr := Catalog.check_eq_ok_iff.mp ((hscreens arg harg).raw r hr)
  text route hroute hraw sql hsql :=
    Catalog.check_eq_ok_iff.mp (htext route hroute hraw sql hsql)
  plain arg harg v hv es hes := by
    rw [Bool.eq_false_iff]
    intro hhas
    have hcontains := Json.containsRaw_iff.mpr ⟨es, hes, hhas⟩
    rw [(hscreens arg harg).plain v hv] at hcontains
    cases hcontains

/-- **Every call that an action can make is clear.** -/
theorem clearsSql_of_makes {a : Application} (hroute : Action.route? a.method = some a.route)
    {c : Call} (h : a.Makes scope c) : scope.guard.catalog.ClearsSql c := by
  -- the route that the screen asks for is the one that the action was applied by
  have hown : ∀ route, Action.route? c.method = some route → route = a.route := by
    intro route hc
    rw [h.method_eq, hroute] at hc
    exact (Option.some.inj hc).symm
  have hother : a.route.isRaw = false → scope.Screens c.operands →
      scope.guard.catalog.ClearsSql c := by
    intro hnot hscreens
    refine clearsSql_of_screens hscreens fun route hc hraw => ?_
    rw [hown route hc, hnot] at hraw
    cases hraw
  cases h with
  | table hfrom _ => exact hother (by rw [hfrom]; rfl) (screens_text screens_nil)
  | joinTable hjoin _ hon hargs =>
    exact hother (by rw [hjoin]; rfl)
      (screens_append (screens_arguments hargs) (screens_conditions hon))
  | joinSql _ hsql hon hargs =>
    refine clearsSql_of_screens
      (screens_append (screens_arguments hargs) (screens_conditions hon)) ?_
    intro _ _ _ sql hhead
    refine checkSql_of_head hsql hargs ?_ hhead
    intro arg harg
    rw [Build.conditionOperands] at harg
    split at harg
    · cases harg
    · cases harg
  | plain _ _ hsql hargs =>
    refine clearsSql_of_screens (screens_arguments hargs) ?_
    intro route hc hraw sql hhead
    rw [hown route hc] at hraw
    rw [← List.append_nil (List.map _ _)] at hhead
    exact checkSql_of_head (hsql hraw) hargs (fun _ h => by cases h) hhead
  | bare hclear => exact hother (by rw [hclear]; rfl) screens_nil
  | named hnamed _ _ =>
    refine hother ?_ (screens_nested (screens_text screens_nil))
    rcases hnamed with h | h <;> rw [h] <;> rfl
  | joinQuery hjoin _ _ hon hargs =>
    refine hother (by rw [hjoin]; rfl) (screens_nested (screens_text ?_))
    exact screens_append (screens_arguments hargs) (screens_conditions hon)
  | group hplain _ _ => exact hother hplain.2.1 (screens_nested screens_nil)
  | whereQuery hwhere hargs _ _ =>
    exact hother (by rw [hwhere]; rfl)
      (screens_append (screens_arguments hargs) (screens_nested screens_nil))
  | declare hwith _ _ _ =>
    exact hother (by rw [hwith]; rfl) (screens_text (screens_nested screens_nil))

theorem clearsSql_of_madeFrom {items : Definition} {c : Call} (h : scope.MadeFrom items c) :
    scope.guard.catalog.ClearsSql c := by
  obtain ⟨d, a, -, ⟨item, -, happ, -⟩, -, hmakes⟩ := h
  exact clearsSql_of_makes (application?_spec happ).1 hmakes

end Scope

namespace Engine

/-- **No SQL text reaches the builder unscreened.**  Whether a build succeeds or stops with an
error, it only adds calls, and every call that it makes, at whatever depth, is clear.  So are
the calls that a nested definition makes on a builder of its own, even if that builder is given
up because the definition fails. -/
theorem build_clearsSql (engine : Engine) (value : Json) (params : Params) :
    (engine.build value params).Adds engine.guard.catalog.ClearsSql ∧
      ∀ ctes items, (Scope.assemble ⟨engine.guard, params, ctes⟩ items).Adds
        engine.guard.catalog.ClearsSql := by
  have hnested : ∀ ctes items, (Scope.assemble ⟨engine.guard, params, ctes⟩ items).Adds
      engine.guard.catalog.ClearsSql := by
    intro ctes items
    exact (Scope.assemble_adds _ items).mono fun c hc => Scope.clearsSql_of_madeFrom hc
  exact ⟨build_adds fun definition _ => hnested _ definition, hnested⟩

end Engine

end QueryScript
