import QueryScript.Proofs.Assembly.Judging
import QueryScript.Proofs.Assembly.Overlooking
import QueryScript.Proofs.Engine.Tables
import QueryScript.Proofs.TableReference.Characters

/-!
# A literal table is judged once

The check of a definition reads a table from the value as it is written, and an action reads
it from its arguments, which come from the value with parameters filled in.  For a table that
is named literally (`tableLiteral?`) the two read the same text.  The reason is that the check
has accepted this text as a reference, so that it has no template in it to be filled in
(`head_of_tableLiteral?`), and that both judge it under the names of the whole definition.

So once the check has passed, an action with a literal table hands on what the check was
given for it, and cannot be refused for it (`build_judgesTablesOnce`).
-/

namespace QueryScript

/-- The table that an action's value names literally: a string, the string that leads a list, or
the one under `table` in an object without the key of a marker. -/
def Json.tableLiteral? (value : Json) : Option String :=
  match value with
  | .obj es =>
    if Entries.has es paramKey || Entries.has es rawKey then none
    else Guard.literalText? "table" (.obj es)
  | v => Guard.literalText? "table" v

/-- The check reads every literal table. -/
theorem Guard.literalText?_of_tableLiteral? {value : Json} {literal : String}
    (h : value.tableLiteral? = some literal) : literalText? "table" value = some literal := by
  rw [Json.tableLiteral?.eq_def] at h
  split at h
  · split at h
    · cases h
    · exact h
  · exact h

/-! ## The first argument -/

variable {base : String} {route : Route} {value : Json} {literal : String}

/-- A literal table in which no template begins leads the arguments. -/
theorem head_of_tableLiteral? (hroute : Action.baseRoute? base = some route)
    (htakes : route.takesTable = true) (h : value.tableLiteral? = some literal)
    (hplain : '$' ∉ literal.toList) (params : Params) :
    ∃ rest, actionArguments base route (value.resolve params) = .str literal :: rest := by
  have hfill := Json.fillText_of_not_mem params hplain
  cases value with
  | str s =>
    cases h
    rw [Json.resolve, hfill]
    exact ⟨[], rfl⟩
  | arr xs =>
    obtain ⟨x, hx, hstring⟩ := Option.bind_eq_some_iff.mp h
    obtain ⟨rest, rfl⟩ : ∃ rest, xs = x :: rest := ⟨xs.tail, (List.cons_head?_tail hx).symm⟩
    cases x with
    | str s =>
      cases hstring
      have hcolumns : route.takesColumnList = false := by
        revert htakes
        cases route <;> decide
      rw [Json.resolve, Json.resolveItems, Json.resolve, hfill, actionArguments, hcolumns]
      exact ⟨_, rfl⟩
    | _ => cases hstring
  | obj es =>
    rw [Json.tableLiteral?] at h
    split at h
    next => cases h
    next hmarker =>
      simp only [Bool.not_eq_true, Bool.or_eq_false_iff, Entries.has, Option.isSome_eq_false_iff,
        Option.isNone_iff_eq_none] at hmarker
      obtain ⟨hparam, hraw⟩ := hmarker
      obtain ⟨v, hv, hstring⟩ := Option.bind_eq_some_iff.mp h
      cases v with
      | str s =>
        cases hstring
        obtain ⟨rest, hlayout⟩ := Layout.ofAction?_of_takesTable hroute htakes
        -- filling in parameters changes values and keeps keys, so it makes no marker
        have hname : Json.paramName? (.obj es) = none := by
          rw [Json.paramName?, hparam]
          rfl
        have hplainObject : Json.isMarker (.obj (Json.resolveEntries params es)) = false := by
          rw [Json.isMarker, Json.paramName?, Json.rawPayload?, Json.get?_resolveEntries,
            Json.get?_resolveEntries, hparam, hraw]
          rfl
        rw [Json.resolve, hname]
        dsimp only
        rw [actionArguments, hplainObject, hlayout]
        refine Layout.arrange_of_get? ?_
        show Entries.get? (Json.resolveEntries params es) "table" = _
        rw [Json.get?_resolveEntries, hv, Option.map_some, Json.resolve, hfill]
      | _ => cases hstring
  | bool b => cases h
  | null => cases h
  | num n => cases h

/-! ## The two checks -/

/-- The check of a value judges the table that it reads there. -/
theorem Guard.exists_checkTable_of_checkEntry {guard : Guard} {ctes : CteNames} {key : String}
    (h : guard.checkEntry ctes key value = .ok ()) (hreserved : Action.isReserved key = false)
    (hroute : Action.route? key = some route) (htakes : route.takesTable = true)
    (htable : literalText? "table" value = some literal) :
    ∃ t, guard.checkTable ctes literal = .ok t := by
  rw [checkEntry, hreserved, hroute] at h
  simp only [Bool.false_eq_true, ↓reduceIte, htakes, htable] at h
  obtain ⟨_, hpasses, -⟩ := Checks.bind_eq_ok.mp h
  cases hcheck : guard.checkTable ctes literal with
  | ok t => exact ⟨t, rfl⟩
  | error e =>
    rw [hcheck] at hpasses
    cases hpasses

namespace Scope

variable {scope : Scope} {item : Item} {a : Application}

/-- What the check was given for a literal table is what its action reads. -/
theorem table_of_tableLiteral? (happ : scope.application? item = some a)
    (hown : scope.guard.checkOwn scope.ctes item = .ok ()) (htakes : a.route.takesTable = true)
    (hliteral : a.written.tableLiteral? = some literal) :
    ∃ t, scope.guard.checkTable scope.ctes literal = .ok t ∧ scope.table a.args = .ok t := by
  obtain ⟨hroute, -, nested, rfl, hhead, hwritten, hresolved, hargs⟩ := application?_spec happ
  have hentry := Guard.checkEntry_of_checkOwn hown (Entries.mem_of_get? hwritten)
  obtain ⟨t, ht⟩ := Guard.exists_checkTable_of_checkEntry hentry
    (Head.spec_of_ofEntries? hhead).1 hroute htakes (Guard.literalText?_of_tableLiteral? hliteral)
  obtain ⟨reference, hparse, -⟩ := Checks.bind_eq_ok.mp ht
  obtain ⟨rest, hlead⟩ := head_of_tableLiteral? (Action.baseRoute?_of_route? hroute) htakes hliteral
    (TableReference.dollar_not_mem_of_parse hparse) scope.params
  refine ⟨t, ht, ?_⟩
  rw [hargs, hresolved, hlead]
  exact ht

end Scope

namespace Engine

variable {engine : Engine} {value : Json}

/-- **A literal table is judged once.**  Of a definition that the check accepts, whatever the
parameters, take any action on a table that is reached when it is built, at whatever depth.  If
it names its table literally, the check has been given a reference for the name, the action
reads the same one, and applying the action is to make a call that leads with it or to fail
otherwise.  And a build that fails for a table fails for that of an action which does not
name it literally. -/
theorem build_judgesTablesOnce (hvalidate : engine.validate value = .ok ()) (params : Params) :
    ∃ definition, Definition.ofJson value = .ok definition ∧
      (∀ d a literal, (engine.scope params definition).Assembles definition d →
        (engine.scope params definition).Applies d a → a.route.takesTable = true →
        a.written.tableLiteral? = some literal →
        ∃ t, engine.guard.checkTable (CteNames.collect definition) literal = .ok t ∧
          (engine.scope params definition).table a.args = .ok t ∧
          (a.apply (engine.scope params definition)).MakesOne fun c =>
            c.method = a.method ∧ ∃ rest, c.operands = Build.textOperand t :: rest) ∧
      ∀ r reference reason r',
        (engine.build value params).runOn r = (.error (.table reference reason), r') →
        ∃ d a, (engine.scope params definition).Assembles definition d ∧
          (engine.scope params definition).Applies d a ∧ a.route.takesTable = true ∧
          a.written.tableLiteral? = none ∧
          (engine.scope params definition).table a.args = .error (.table reference reason) := by
  obtain ⟨definition, hread, hcheck⟩ := Checks.bind_eq_ok.mp hvalidate
  -- the check has judged every item of the tree, under the names of the whole
  have hown := Guard.checkItems_eq_ok_iff.mp (Guard.checkDefinition_eq_ok_iff.mp hcheck)
  have hjudged : ∀ d a literal, (engine.scope params definition).Assembles definition d →
      (engine.scope params definition).Applies d a → a.route.takesTable = true →
      a.written.tableLiteral? = some literal →
      ∃ t, engine.guard.checkTable (CteNames.collect definition) literal = .ok t ∧
        (engine.scope params definition).table a.args = .ok t := by
    intro d a literal hassembles happlies htakes hliteral
    obtain ⟨item, hitem, happ, -⟩ := happlies
    exact Scope.table_of_tableLiteral? happ (hown item (hassembles.hasItem hitem)) htakes hliteral
  refine ⟨definition, hread, ?_, ?_⟩
  · intro d a literal hassembles happlies htakes hliteral
    obtain ⟨t, hcheck, htable⟩ := hjudged d a literal hassembles happlies htakes hliteral
    refine ⟨t, hcheck, htable, (a.apply_makesOne _).mono fun c hc => ⟨hc.method_eq, ?_⟩⟩
    obtain ⟨t', rest, hoperands, htable'⟩ := Scope.table_of_makes hc htakes
    obtain rfl := Except.ok.inj (htable.symm.trans htable')
    exact ⟨rest, hoperands⟩
  · intro r reference reason r' hrun
    rcases runOn_build_eq_error hrun with ⟨hfails, -⟩ | ⟨definition', hread', -, hrun⟩
    · rw [hvalidate] at hfails
      cases hfails
    · obtain rfl := Except.ok.inj (hread.symm.trans hread')
      have hends : ((engine.scope params definition).assemble definition).Ends (fun _ => True)
          fun e => e = .table reference reason →
            ∃ d a, (engine.scope params definition).Assembles definition d ∧
              (engine.scope params definition).Applies d a ∧ a.route.takesTable = true ∧
              (engine.scope params definition).table a.args = .error e := by
        refine Scope.assemble_ends_of_fails nofun ?_
        rintro d a e hassembles happlies hfails rfl
        cases hfails with
        | form h => cases h
        | table htakes h => exact ⟨d, a, hassembles, happlies, htakes, h⟩
        | sql h => cases h.isRefusal
      obtain ⟨d, a, hassembles, happlies, htakes, htable⟩ := hends.error hrun rfl
      refine ⟨d, a, hassembles, happlies, htakes, ?_, htable⟩
      cases hliteral : a.written.tableLiteral? with
      | none => rfl
      | some literal =>
        obtain ⟨t, -, hpasses⟩ := hjudged d a literal hassembles happlies htakes hliteral
        rw [hpasses] at htable
        cases htable

/-- A friendly name under `table` is judged by the check, and the action on it hands on the actual
name that the check was given. -/
theorem build_judgesTablesOnce_of_friendly :
    ∃ engine, ofSettings .usersOnly = .ok engine ∧
      engine.validate (.arr [.obj [("from", .obj [("table", .str "People p")])]]) = .ok () ∧
      ∃ definition a,
        Definition.ofJson (.arr [.obj [("from", .obj [("table", .str "People p")])]]) =
          .ok definition ∧
        (engine.scope .empty definition).Applies definition a ∧
        a.written.tableLiteral? = some "People p" ∧
        engine.guard.checkTable (CteNames.collect definition) "People p" = .ok "users p" ∧
        (engine.scope .empty definition).table a.args = .ok "users p" := by
  obtain ⟨engine, hengine, hvalidate, hchecks⟩ : ∃ engine, ofSettings .usersOnly = .ok engine ∧
      engine.validate (.arr [.obj [("from", .obj [("table", .str "People p")])]]) = .ok () ∧
      ∀ ctes : CteNames, ctes.names = [] → engine.guard.checkTable ctes "People p" =
        .ok "users p" := by
    refine ⟨_, rfl, rfl, fun ctes hctes => ?_⟩
    obtain ⟨names⟩ := ctes
    cases hctes
    rfl
  obtain ⟨definition, hread, hjudged, -⟩ := build_judgesTablesOnce hvalidate .empty
  cases hread
  refine ⟨engine, hengine, hvalidate, _, _, rfl, ⟨_, List.mem_singleton_self _, rfl, rfl⟩, rfl,
    hchecks _ rfl, ?_⟩
  obtain ⟨t, hcheck, htable, -⟩ :=
    hjudged _ _ _ (.self _) ⟨_, List.mem_singleton_self _, rfl, rfl⟩ rfl rfl
  obtain rfl := Except.ok.inj (hcheck.symm.trans (hchecks _ rfl))
  exact htable

end Engine

end QueryScript
