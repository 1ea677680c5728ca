import QueryScript.Proofs.Assembly.Induction
import QueryScript.Proofs.Definition.CteNames
import QueryScript.Proofs.Engine.Tables

/-!
# Which references are exempt from the table policy

A name of a common table expression is not judged by the table policy.  The names are
collected from the tree, but a builder gets to know one only when an item that declares it
is taken up: when its condition holds, in a definition that is assembled (`Reaches`).  The
two sets differ.  A build that succeeds has registered exactly the names of the items that
it reached (`exists_registers_iff`), and these are collected (`contains_of_registers`).

So a reference that the policy refuses, and that no friendly name stands for, names an
expression that the definition declares, and the build has registered it unless none of
the items that declare it was reached (`build_exempts_declared`).
-/

namespace QueryScript

/-- The call gives a nested query this name, up to the case of ASCII letters. -/
def Call.Registers (c : Call) (name : String) : Prop :=
  Action.route? c.method = some .withQuery ∧
    ∃ declared rest, c.operands = Build.textOperand declared :: rest ∧
      Text.lower declared = Text.lower name

namespace Scope

/-- The item is taken up when the items are assembled, and its condition holds. -/
def Reaches (scope : Scope) (items : Definition) (item : Item) : Prop :=
  ∃ d a, scope.Assembles items d ∧ item ∈ d ∧ scope.application? item = some a ∧
    scope.admits a = true

/-- The call takes rows from a table or joins one, and is made by an action that refers to the
table by this text. -/
def Refers (scope : Scope) (items : Definition) (c : Call) (written : String) : Prop :=
  ∃ d a rest, scope.Assembles items d ∧ scope.Applies d a ∧ a.Makes scope c ∧
    a.route.takesTable = true ∧ a.args = .str written :: rest

/-- A friendly name is replaced, unless a common table expression has it too. -/
def Renames (scope : Scope) (name : String) : Prop :=
  scope.ctes.contains name = false ∧ (scope.guard.actualName? name).isSome = true

variable {scope : Scope} {item : Item} {items : Definition} {a : Application} {c : Call}
  {name : String}

/-- An item that is taken up is one of the tree. -/
theorem Reaches.hasItem (h : scope.Reaches items item) : items.HasItem item := by
  obtain ⟨d, a, hassembles, hitem, -⟩ := h
  exact hassembles.hasItem hitem

/-- An action registers the name that its item declares. -/
theorem registers_iff_declares (happ : scope.application? item = some a) (h : a.Makes scope c) :
    c.Registers name ↔ item.Declares name := by
  obtain ⟨hroute, -, nested, rfl, hhead, hwritten, -⟩ := application?_spec happ
  -- the collection reads the name off the same entries as the action does
  have hdeclared : a.route = .withQuery → CteNames.declared? a.entries = a.target.name := by
    intro hwith
    rw [hwith] at hroute
    rw [CteNames.declared?, hhead]
    dsimp only
    rw [if_pos hroute, hwritten]
    rfl
  constructor
  · intro h
    obtain ⟨hmethod, declared, rest, hoperands, hlower⟩ := h
    rw [h.method_eq, hroute] at hmethod
    have hwith := Option.some.inj hmethod
    obtain ⟨declared', inner, hname, rfl⟩ := h.declares hwith
    cases hoperands
    exact ⟨_, nested, declared, rfl, (hdeclared hwith).trans hname, hlower⟩
  · intro h
    obtain ⟨es, nested', declared, heq, hes, hlower⟩ := h
    cases heq
    have hwith : a.route = .withQuery := by
      rw [CteNames.declared?, hhead] at hes
      dsimp only at hes
      split at hes
      next hwith => exact Option.some.inj (hroute.symm.trans hwith)
      next => cases hes
    obtain ⟨declared', inner, hname, rfl⟩ := h.declares hwith
    rw [hdeclared hwith, hname] at hes
    cases hes
    refine ⟨?_, declared, _, rfl, hlower⟩
    rw [← hwith]
    exact hroute

/-- **A run that succeeds has registered the names of the items that it took up**, and no
others. -/
theorem exists_registers_iff {capped : Bool} {added : List Call}
    (h : (scope.assemble items).Runs capped added) :
    (∃ c, Call.Made c added ∧ c.Registers name) ↔
      ∃ item, scope.Reaches items item ∧ item.Declares name := by
  constructor
  · intro h
    obtain ⟨c, hmade, hregisters⟩ := h
    obtain ⟨d, a, hassembles, ⟨item, hitem, happ, hadmits⟩, -, hmakes⟩ :=
      (scope.assemble_adds items).of_runs h c hmade
    refine ⟨item, ⟨d, a, hassembles, hitem, happ, hadmits⟩, ?_⟩
    exact (registers_iff_declares happ hmakes).mp hregisters
  · intro h
    obtain ⟨item, ⟨d, a, hassembles, hitem, happ, hadmits⟩, hdeclares⟩ := h
    obtain ⟨c, hmade, hmakes⟩ :=
      exists_made_of_applies hassembles ⟨item, hitem, happ, hadmits⟩ h
    exact ⟨c, hmade, (registers_iff_declares happ hmakes).mpr hdeclares⟩

/-- A name that a run registers is one of those collected, so that it may be referred to
anywhere in the definition. -/
theorem contains_of_registers {capped : Bool} {added : List Call}
    (h : (scope.assemble items).Runs capped added) (hmade : Call.Made c added)
    (hregisters : c.Registers name) : (CteNames.collect items).contains name = true := by
  obtain ⟨item, hreaches, hdeclares⟩ := (exists_registers_iff h).mp ⟨c, hmade, hregisters⟩
  exact CteNames.contains_collect_iff.mpr ⟨item, hreaches.hasItem, hdeclares⟩

/-- A call that takes or joins a table is made by an action that refers to the table. -/
theorem exists_refers_of_madeFrom (h : scope.MadeFrom items c) {route : Route}
    (hroute : Action.route? c.method = some route) (htakes : route.takesTable = true) :
    ∃ written, scope.Refers items c written := by
  obtain ⟨d, a, hassembles, ⟨item, hitem, happ, hadmits⟩, -, hmakes⟩ := h
  rw [hmakes.method_eq, (application?_spec happ).1] at hroute
  cases hroute
  obtain ⟨t, _, -, htable⟩ := table_of_makes hmakes htakes
  obtain ⟨written, rest, hargs, -⟩ := table_eq_ok htable
  exact ⟨written, d, a, rest, hassembles, ⟨item, hitem, happ, hadmits⟩, hmakes, htakes, hargs⟩

/-- A reference that the policy refuses, and that no friendly name stands for, passes only as
the name of a common table expression. -/
theorem contains_of_refers {written : String} (h : scope.Refers items c written) :
    ∃ t rest ref, c.operands = Build.textOperand t :: rest ∧
      scope.guard.checkTable scope.ctes written = .ok t ∧
      TableReference.parse written = .ok ref ∧
      (scope.guard.tables.permits ref.name = false → ¬ scope.Renames ref.name →
        scope.ctes.contains ref.name = true) := by
  obtain ⟨d, a, rest, -, -, hmakes, htakes, hargs⟩ := h
  obtain ⟨t, rest', hoperands, htable⟩ := table_of_makes hmakes htakes
  obtain ⟨written', _, hargs', hcheck⟩ := table_eq_ok htable
  rw [hargs] at hargs'
  cases hargs'
  obtain ⟨ref, hparse, hways⟩ := Guard.checkTable_eq_ok hcheck
  refine ⟨t, rest', ref, hoperands, hcheck, hparse, fun hrefused hrenames => ?_⟩
  rcases hways with ⟨hcte, -⟩ | ⟨hcte, actual, hactual, -⟩ | ⟨-, -, hpermits, -⟩
  · exact hcte
  · refine absurd ⟨hcte, ?_⟩ hrenames
    rw [hactual]
    rfl
  · rw [hrefused] at hpermits
    cases hpermits

end Scope

namespace Engine

/-- **Every exempt reference names a declared expression.**  A build that succeeds adds calls,
and each that takes or joins a table is made by an action that refers to the table.  If the
policy refuses the name in that reference and no friendly name stands for it, an item of the
definition declares a common table expression of this name; and the build has registered one
exactly when it took up an item that declares it. -/
theorem build_exempts_declared {engine : Engine} {value : Json} {params : Params}
    {r r' : Recorder} (h : (engine.build value params).runOn r = (.ok (), r')) :
    ∃ definition added, Definition.ofJson value = .ok definition ∧
      r'.calls = r.calls ++ added ∧
      (∀ c, Call.Made c added → ∀ route, Action.route? c.method = some route →
        route.takesTable = true →
          ∃ written, (engine.scope params definition).Refers definition c written) ∧
      ∀ c written, (engine.scope params definition).Refers definition c written →
        ∃ t rest ref, c.operands = Build.textOperand t :: rest ∧
          engine.guard.checkTable (CteNames.collect definition) written = .ok t ∧
          TableReference.parse written = .ok ref ∧
          (engine.guard.tables.permits ref.name = false →
            ¬ (engine.scope params definition).Renames ref.name →
            (∃ item, definition.HasItem item ∧ item.Declares ref.name) ∧
              ((∃ c', Call.Made c' added ∧ c'.Registers ref.name) ↔
                ∃ item, (engine.scope params definition).Reaches definition item ∧
                  item.Declares ref.name)) := by
  obtain ⟨definition, capped, hdefinition, -, hrun⟩ := runOn_build_eq_ok.mp h
  obtain ⟨added, hcalls, hall⟩ := (engine.scope params definition).assemble_adds definition r
  rw [hrun] at hcalls
  refine ⟨definition, added, hdefinition, hcalls, ?_, ?_⟩
  · intro c hc route hroute htakes
    exact Scope.exists_refers_of_madeFrom (hall c hc) hroute htakes
  · intro c written hrefers
    obtain ⟨t, rest, ref, hoperands, hcheck, hparse, hexempt⟩ := Scope.contains_of_refers hrefers
    refine ⟨t, rest, ref, hoperands, hcheck, hparse, fun hrefused hrenames => ⟨?_, ?_⟩⟩
    · exact CteNames.contains_collect_iff.mp (hexempt hrefused hrenames)
    · exact Scope.exists_registers_iff ⟨r, r', hrun, hcalls⟩

/-- A definition that takes rows from a query under the name that another item gives it. -/
def recentUsers : Json :=
  .arr [
    .obj [("with", .str "recent"), ("query", .arr [.obj [("from", .str "users")]])],
    .obj [("from", .str "RECENT r")]]

theorem exists_run_recentUsers :
    ∃ engine definition r', ofSettings .usersOnly = .ok engine ∧
      Definition.ofJson recentUsers = .ok definition ∧
      (engine.build recentUsers .empty).runOn .fresh = (.ok (), r') ∧
      engine.guard.tables.permits "RECENT" = false ∧
      engine.guard.actualName? "RECENT" = none ∧
      (∃ c, Call.Made c r'.calls ∧ c.Registers "RECENT") ∧
      (engine.scope .empty definition).Refers definition
        (.mk "from" [Build.textOperand "RECENT r"]) "RECENT r" := by
  refine ⟨_, _, _, rfl, rfl, rfl, by decide +kernel, by decide +kernel, ?_, ?_⟩
  · refine ⟨.mk "with" [Build.textOperand "recent",
      .nested [.mk "from" [Build.textOperand "users"]]], .here (List.mem_cons_self ..), ?_⟩
    exact ⟨by decide +kernel, _, _, rfl, by decide +kernel⟩
  · refine ⟨_, ⟨"from", .fromTable, [("from", .str "RECENT r")], .str "RECENT r",
      .str "RECENT r", [.str "RECENT r"], []⟩, [], .self _, ?_, .table rfl rfl, rfl, rfl⟩
    refine ⟨.step [("from", .str "RECENT r")] [], ?_, rfl, rfl⟩
    exact List.mem_cons_of_mem _ (List.mem_cons_self ..)

/-- The build of `recentUsers` took up the item that declares the name. -/
theorem build_exempts_declared_of_recentUsers :
    ∃ engine definition r', ofSettings .usersOnly = .ok engine ∧
      Definition.ofJson recentUsers = .ok definition ∧
      (engine.build recentUsers .empty).runOn .fresh = (.ok (), r') ∧
      engine.guard.tables.permits "RECENT" = false ∧
      ∃ item, (engine.scope .empty definition).Reaches definition item ∧
        item.Declares "RECENT" := by
  obtain ⟨engine, definition, r', hengine, hdefinition, hrun, hrefused, hactual, hregisters,
    hrefers⟩ := exists_run_recentUsers
  refine ⟨engine, definition, r', hengine, hdefinition, hrun, hrefused, ?_⟩
  obtain ⟨definition', added, hdefinition', hcalls, -, hall⟩ := build_exempts_declared hrun
  rw [hdefinition] at hdefinition'
  cases hdefinition'
  have hadded : r'.calls = added := hcalls
  rw [hadded] at hregisters
  obtain ⟨t, rest, ref, -, -, hparse, hexempt⟩ := hall _ _ hrefers
  have hname : TableReference.parse "RECENT r" = .ok ⟨"RECENT", some ⟨none, "r"⟩⟩ := rfl
  rw [hname] at hparse
  cases hparse
  refine (hexempt hrefused ?_).2.mp hregisters
  intro h
  obtain ⟨-, hsome⟩ := h
  rw [show (engine.scope .empty definition).guard = engine.guard from rfl, hactual] at hsome
  cases hsome

/-- A name that is declared under a condition which does not hold is exempt, though no builder
was told of it. -/
theorem build_exempts_unregistered :
    ∃ engine r', ofSettings .usersOnly = .ok engine ∧
      (engine.build
        (.arr [
          .obj [("with", .str "secrets"), ("query", .arr [.obj [("from", .str "users")]]),
            ("when", .bool false)],
          .obj [("from", .str "secrets")]]) .empty).runOn .fresh = (.ok (), r') ∧
      r'.calls = [.mk "from" [Build.textOperand "secrets"]] ∧
      TableReference.parse "secrets" = .ok ⟨"secrets", none⟩ ∧
      engine.guard.tables.permits "secrets" = false ∧
      engine.guard.actualName? "secrets" = none ∧
      ¬ ∃ c, Call.Made c r'.calls ∧ c.Registers "secrets" := by
  refine ⟨_, _, rfl, rfl, rfl, rfl, by decide +kernel, by decide +kernel, ?_⟩
  intro h
  obtain ⟨c, hmade, hregisters, -⟩ := h
  have hcalls : Call.Made c [.mk "from" [Build.textOperand "secrets"]] := hmade
  cases hcalls with
  | here h =>
    rw [List.mem_singleton.mp h] at hregisters
    exact absurd hregisters (by decide +kernel)
  | within houter hinner _ =>
    rw [List.mem_singleton.mp houter] at hinner
    cases List.mem_singleton.mp hinner

end Engine

end QueryScript
