import QueryScript.Proofs.Engine.RawSql
import QueryScript.Proofs.Guard.Settings
import QueryScript.Proofs.TableReference

/-!
# No table is named that the deployment does not admit

A table reaches the builder as the text of a reference, from `from` and its like or from
a join.  The guard judges the name in the reference that was written and hands on another
text, in which a friendly name is replaced; `parse_withName` says that this text reads
back as the name that was judged, or as the actual name of a configured alias.

So each of these calls names a table that is admitted (`NamesAdmitted`), wherever in the
value the name came from, since what is judged is the value with parameters filled in.
-/

namespace QueryScript

namespace Policy

/-- A policy gives a reason exactly for the names that it does not permit. -/
theorem refusal?_eq_none_iff {policy : Policy} {name : String} :
    policy.refusal? name = none ↔ policy.permits name = true := by
  rw [refusal?, permits]
  cases policy.mode with
  | none => exact ⟨fun _ => rfl, fun _ => rfl⟩
  | allow =>
    dsimp only
    cases policy.matching? name with
    | none => exact ⟨nofun, nofun⟩
    | some w => exact ⟨fun _ => rfl, fun _ => rfl⟩
  | block =>
    dsimp only
    cases policy.matching? name with
    | none => exact ⟨fun _ => rfl, fun _ => rfl⟩
    | some w => exact ⟨nofun, nofun⟩

end Policy

namespace Guard

variable {guard : Guard} {ctes : CteNames} {reference t : String}

/-- The three ways in which a reference passes. -/
theorem checkTable_eq_ok (h : guard.checkTable ctes reference = .ok t) :
    ∃ ref, TableReference.parse reference = .ok ref ∧
      ((ctes.contains ref.name = true ∧ t = ref.withName ref.name) ∨
        (ctes.contains ref.name = false ∧
          ∃ actual, guard.actualName? ref.name = some actual ∧ t = ref.withName actual) ∨
        (ctes.contains ref.name = false ∧ guard.actualName? ref.name = none ∧
          guard.tables.permits ref.name = true ∧ t = ref.withName ref.name)) := by
  obtain ⟨ref, hparse, h⟩ := Checks.bind_eq_ok.mp h
  refine ⟨ref, hparse, ?_⟩
  cases hcte : ctes.contains ref.name with
  | true =>
    rw [hcte] at h
    cases h
    exact .inl ⟨rfl, rfl⟩
  | false =>
    rw [hcte] at h
    refine .inr ?_
    cases hactual : guard.actualName? ref.name with
    | some actual =>
      rw [if_neg Bool.false_ne_true] at h
      rw [hactual] at h
      cases h
      exact .inl ⟨rfl, actual, rfl, rfl⟩
    | none =>
      rw [if_neg Bool.false_ne_true] at h
      rw [hactual] at h
      cases hreason : guard.tables.refusal? ref.name with
      | some reason =>
        dsimp only at h
        rw [hreason] at h
        cases h
      | none =>
        dsimp only at h
        rw [hreason] at h
        cases h
        exact .inr ⟨rfl, rfl, Policy.refusal?_eq_none_iff.mp hreason, rfl⟩

/-- The guard's friendly names are the configured ones up to case, each with the name of the table
that it is configured for. -/
theorem exists_alias_of_actualName? {settings : SecuritySettings}
    (hguard : ofSettings settings = .ok guard) {name actual : String}
    (h : guard.actualName? name = some actual) :
    ∃ friendly written target, (friendly, written) ∈ settings.tableAliases ∧
      Text.lower friendly = Text.lower name ∧ TableReference.parse written = .ok target ∧
      target.name = actual := by
  have haliases := (ofSettings_eq_ok_iff.mp hguard).tableAliases
  have hmem : (Text.lower name, actual) ∈ guard.tableAliases := mem_of_lookup h
  rw [← List.mem_reverse] at hmem
  obtain ⟨⟨friendly, written⟩, hentry, hread⟩ := Checks.exists_of_mem_mapM haliases hmem
  refine ⟨friendly, written, ?_⟩
  unfold readAlias at hread
  dsimp only at hread
  split at hread
  next => cases hread
  next target hparse =>
    split at hread
    next => cases hread
    next =>
      obtain ⟨hfriendly, hactual⟩ := Prod.mk.inj (Except.ok.inj hread)
      exact ⟨target, hentry, hfriendly, hparse, hactual⟩

end Guard

/-- A deployment that permits one table, which has a friendly name too. -/
def Settings.usersOnly : Settings where
  security :=
    { tables := ⟨.allow, ["users"]⟩
      tableAliases := [("people", "users")]
      replaceDefaultPatterns := true }

/-- A deployment admits a table name: a common table expression of the definition, the actual
name of a configured alias, or a name that the policy permits. -/
def Settings.AdmitsTable (settings : Settings) (tables : Policy) (ctes : CteNames)
    (name : String) : Prop :=
  ctes.contains name = true ∨
    (∃ friendly written target, (friendly, written) ∈ settings.security.tableAliases ∧
      TableReference.parse written = .ok target ∧ target.name = name) ∨
    tables.permits name = true

/-- If the call takes rows from a table or joins one, its first operand is a reference to a
table that the deployment admits. -/
def Settings.AdmitsCall (settings : Settings) (tables : Policy) (ctes : CteNames) (c : Call) :
    Prop :=
  ∀ route, Action.route? c.method = some route → route.takesTable = true →
    ∃ reference rest t, c.operands = Build.textOperand reference :: rest ∧
      TableReference.parse reference = .ok t ∧ settings.AdmitsTable tables ctes t.name

namespace Guard

/-- What the guard hands on reads back as a reference to an admitted table. -/
theorem admits_of_checkTable {settings : Settings} {guard : Guard}
    (hguard : ofSettings settings.security = .ok guard) {ctes : CteNames} {reference t : String}
    (h : guard.checkTable ctes reference = .ok t) :
    ∃ ref, TableReference.parse t = .ok ref ∧ settings.AdmitsTable guard.tables ctes ref.name := by
  obtain ⟨ref, hparse, hways⟩ := checkTable_eq_ok h
  have hform := TableReference.wellFormed_of_parse hparse
  rcases hways with ⟨hcte, rfl⟩ | ⟨-, actual, hactual, rfl⟩ | ⟨-, -, hpermits, rfl⟩
  · exact ⟨_, TableReference.parse_withName hform hform.name, .inl hcte⟩
  · obtain ⟨friendly, written, target, hentry, -, htarget, rfl⟩ :=
      exists_alias_of_actualName? hguard hactual
    have hname := (TableReference.wellFormed_of_parse htarget).name
    exact ⟨_, TableReference.parse_withName hform hname,
      .inr (.inl ⟨friendly, written, target, hentry, htarget, rfl⟩)⟩
  · exact ⟨_, TableReference.parse_withName hform hform.name, .inr (.inr hpermits)⟩

end Guard

namespace Scope

/-- The table that an action hands on has passed the guard. -/
theorem table_eq_ok {scope : Scope} {args : List Json} {t : String} (h : scope.table args = .ok t) :
    ∃ reference rest, args = .str reference :: rest ∧
      scope.guard.checkTable scope.ctes reference = .ok t := by
  rw [table.eq_def] at h
  split at h
  next reference rest => exact ⟨reference, rest, rfl, h⟩
  next => cases h
  next => cases h

/-- A call that names a table leads with the text that the guard has handed on. -/
theorem table_of_makes {scope : Scope} {a : Application} {c : Call} (h : a.Makes scope c)
    (htakes : a.route.takesTable = true) :
    ∃ t rest, c.operands = Build.textOperand t :: rest ∧ scope.table a.args = .ok t := by
  have hother : ∀ route, a.route = route → route.takesTable = true := by
    intro route hroute
    rw [← hroute]
    exact htakes
  cases h with
  | table _ htable => exact ⟨_, [], rfl, htable⟩
  | joinTable _ htable _ hargs =>
    obtain ⟨rest, rfl⟩ := Argument.resolveAll_str hargs
    exact ⟨_, _, rfl, htable⟩
  | joinSql hroute _ _ _ => cases hother _ hroute
  | plain hplain _ _ _ =>
    rw [htakes] at hplain
    cases hplain.1
  | bare hroute => cases hother _ hroute
  | named hroute _ _ =>
    rcases hroute with hroute | hroute
    · cases hother _ hroute
    · cases hother _ hroute
  | joinQuery hroute _ _ _ _ => cases hother _ hroute
  | group hplain _ _ =>
    rw [htakes] at hplain
    cases hplain.1
  | whereQuery hroute _ _ _ => cases hother _ hroute
  | declare hroute _ _ _ => cases hother _ hroute

theorem admits_of_madeFrom {settings : Settings} {scope : Scope}
    (hguard : Guard.ofSettings settings.security = .ok scope.guard) {items : Definition} {c : Call}
    (h : scope.MadeFrom items c) : settings.AdmitsCall scope.guard.tables scope.ctes c := by
  intro route hroute htakes
  obtain ⟨d, a, -, ⟨item, -, happ, -⟩, -, hmakes⟩ := h
  rw [hmakes.method_eq, (application?_spec happ).1] at hroute
  cases hroute
  obtain ⟨t, rest, hoperands, htable⟩ := table_of_makes hmakes htakes
  obtain ⟨reference, _, -, hcheck⟩ := table_eq_ok htable
  obtain ⟨ref, hparse, hadmits⟩ := Guard.admits_of_checkTable hguard hcheck
  exact ⟨t, rest, ref, hoperands, hparse, hadmits⟩

end Scope

namespace Engine

/-- **No table is named that the deployment does not admit**: of all the calls that a build
makes, at whatever depth and whether it succeeds or not, each that takes rows from a table or
joins one names an admitted one, and so do the calls on the builders of nested definitions. -/
theorem build_admitsTables {settings : Settings} {engine : Engine}
    (hengine : ofSettings settings = .ok engine) (value : Json) (params : Params) :
    (engine.build value params).Adds (fun c =>
      ∃ definition, Definition.ofJson value = .ok definition ∧
        settings.AdmitsCall engine.guard.tables (CteNames.collect definition) c) ∧
      ∀ ctes items, (Scope.assemble ⟨engine.guard, params, ctes⟩ items).Adds
        (settings.AdmitsCall engine.guard.tables ctes) := by
  obtain ⟨guard, hguard, hpure⟩ := Checks.bind_eq_ok.mp hengine
  cases hpure
  have hnested : ∀ ctes items, (Scope.assemble ⟨guard, params, ctes⟩ items).Adds
      (settings.AdmitsCall guard.tables ctes) := by
    intro ctes items
    exact (Scope.assemble_adds _ items).mono fun c hc => Scope.admits_of_madeFrom hguard hc
  refine ⟨build_adds fun definition hdefinition => ?_, hnested⟩
  exact (hnested _ definition).mono fun c hc => ⟨definition, hdefinition, hc⟩

/-- A friendly name that comes from a parameter is replaced by the name of its table. -/
theorem build_admitsTables_of_param :
    ∃ engine c, ofSettings .usersOnly = .ok engine ∧
      ((engine.build (.arr [.obj [("from", .obj [("$param", .str "table")])]])
        ⟨[("table", .str "People p")]⟩).runOn .fresh).2.calls = [c] ∧
      c = .mk "from" [Build.textOperand "users p"] ∧
      ∃ definition,
        Definition.ofJson (.arr [.obj [("from", .obj [("$param", .str "table")])]]) =
          .ok definition ∧
        Settings.usersOnly.AdmitsCall engine.guard.tables (CteNames.collect definition) c := by
  refine ⟨_, _, rfl, rfl, rfl, ?_⟩
  obtain ⟨added, hcalls, hall⟩ := (@build_admitsTables .usersOnly _ rfl
    (.arr [.obj [("from", .obj [("$param", .str "table")])]])
    ⟨[("table", .str "People p")]⟩).1 .fresh
  have hadded : [Call.mk "from" [Build.textOperand "users p"]] = added := hcalls
  rw [← hadded] at hall
  exact hall _ (.here (List.mem_singleton.mpr rfl))

end Engine

end QueryScript
