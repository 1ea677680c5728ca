import QueryScript.Proofs.Catalog.BuiltinScreen
import QueryScript.Proofs.Catalog.Settings
import QueryScript.Proofs.Engine.Execution
import QueryScript.Proofs.Engine.RawSql
import QueryScript.Proofs.Guard.Settings

/-!
# The SQL that an execution wraps

An execution wraps text as raw SQL in two places.  A raw marker is wrapped when it is resolved,
and the catalog is asked first.  The projection of an average is put together from a column
and a fallback, and the catalog is not asked: the column has to be an identifier, and the
fallback a number.

So a raw expression in a call of an execution is clear of what the catalog finds, or it is
that projection (`execute_wraps`).  The two tests are not one: an identifier may be a name
that the built-in catalog looks for (`not_execute_wraps`).
-/

namespace QueryScript

/-- The catalog finds nothing in the raw expressions that a call is handed. -/
def Catalog.ClearsRaw (catalog : Catalog) (c : Call) : Prop :=
  ∀ a ∈ c.arguments, ∀ r, Argument.Within (.raw r) a → catalog.findMatch? r.sql = none

/-- The call is the projection of an average of these arguments: of a column that is an identifier,
with a number as the fallback. -/
inductive Average.Projects (args : List Json) : Call → Prop where
  | projection {name : String} {default : Number} (hname : column args = .ok name)
      (hidentifier : isIdentifier name = true) (hdefault : fallback args[1]? = .ok default) :
      Projects args (.mk "selectRaw" [.arg (.raw ⟨sql name default, []⟩)])

theorem Call.arguments_of_args (method : String) (args : List Argument) :
    (Call.mk method (args.map .arg)).arguments = args := by
  rw [Call.arguments, Call.operands, List.flatMap_map]
  exact List.flatMap_singleton' args

namespace Catalog

variable {catalog : Catalog}

/-- A call that is handed plain values wraps nothing. -/
theorem clearsRaw_of_values (method : String) (vs : List Json) :
    catalog.ClearsRaw (.mk method (vs.map fun v => .arg (.value v))) := by
  intro a ha r hr
  rw [show vs.map (fun v => Operand.arg (.value v)) = (vs.map Argument.value).map .arg by
    rw [List.map_map]; rfl, Call.arguments_of_args] at ha
  obtain ⟨v, -, rfl⟩ := List.mem_map.mp ha
  cases hr

/-- A call that is handed screened arguments is clear. -/
theorem clearsRaw_of_resolveAll {method : String} {vs : List Json} {args : List Argument}
    (h : Argument.resolveAll catalog.check vs = .ok args) :
    catalog.ClearsRaw (.mk method (args.map .arg)) := by
  intro a ha r hr
  rw [Call.arguments_of_args] at ha
  exact check_eq_ok_iff.mp ((Argument.screened_of_resolveAll h ha).raw r hr)

/-- A marker is wrapped only if the catalog finds nothing in its text. -/
theorem findMatch?_of_ofPayload {payload : Json} {r : RawSql}
    (h : Argument.ofPayload catalog.check payload = .ok (.raw r)) :
    catalog.findMatch? r.sql = none := by
  obtain ⟨sql, -, h⟩ := Checks.bind_eq_ok.mp h
  obtain ⟨bindings, -, h⟩ := Checks.bind_eq_ok.mp h
  obtain ⟨_, hcheck, hpure⟩ := Checks.bind_eq_ok.mp h
  cases hpure
  exact check_eq_ok_iff.mp hcheck

end Catalog

/-! ## Builds that add plain calls -/

/-- A build that adds calls without nested ones has made just these. -/
theorem Build.adds_of_flat {α : Type} {P : Call → Prop} {b : Build α}
    (h : ∀ r, ∃ added, (b.runOn r).2.calls = r.calls ++ added ∧
      ∀ c ∈ added, P c ∧ ∀ inner, Operand.nested inner ∉ c.operands) : b.Adds P := by
  intro r
  obtain ⟨added, hcalls, hall⟩ := h r
  refine ⟨added, hcalls, fun c hc => ?_⟩
  cases hc with
  | here hc => exact (hall c hc).1
  | within houter hinner _ => exact absurd hinner ((hall _ houter).2 _)

namespace Engine

open Application (not_nested_mem_args)

variable {engine : Engine} {request : Request} {P : Call → Prop}

/-- A page of an average is no page. -/
theorem capPage_of_avg (h : request.executor = .avg) : engine.capPage request = request := by
  unfold capPage Request.capped
  split
  · rw [h]
    rfl
  · rfl

/-- Capping the rows makes a call with a number, or none. -/
theorem capRows_adds (hcap : ∀ n : Nat, P (.mk "limit" [.arg (.value (.nat n))]))
    (request : Request) (isCapped : Bool) : (engine.capRows request isCapped).Adds P := by
  refine Build.adds_of_flat fun r => ?_
  rw [runOn_capRows]
  cases engine.cap? request isCapped with
  | none => exact ⟨[], (List.append_nil _).symm, nofun⟩
  | some n =>
    refine ⟨[.mk "limit" [.arg (.value (.nat n))]], rfl, fun c hc => ?_⟩
    rw [List.mem_singleton.mp hc]
    exact ⟨hcap n, fun inner => @not_nested_mem_args inner [.value (.nat n)]⟩

/-- Asking makes a call with screened arguments, or the two calls of an average. -/
theorem ask_adds (request : Request) (options : Options) :
    (engine.ask request options).Adds fun c => engine.guard.catalog.ClearsRaw c ∨
      (request.executor = .avg ∧ Average.Projects request.args c) := by
  by_cases havg : request.executor = .avg
  · have hask : engine.ask request options = Average.run request.args options := by
      rw [ask, havg]
    refine Build.adds_of_flat fun r => ?_
    rw [hask]
    rcases Average.runOn_run request.args options r with
      ⟨detail, hrun⟩ | ⟨name, default, hname, hdefault⟩
    · exact ⟨[], by rw [hrun, List.append_nil], fun _ hc => absurd hc List.not_mem_nil⟩
    · refine ⟨_, by rw [Average.runOn_run_of_ok hname hdefault], fun c hc => ?_⟩
      rcases List.mem_cons.mp hc with rfl | hc
      · refine ⟨.inr ⟨havg, .projection hname ?_ hdefault⟩, fun inner => ?_⟩
        · exact Average.isIdentifier_of_column hname
        · exact @not_nested_mem_args inner [.raw _]
      · rw [List.mem_singleton.mp hc]
        refine ⟨.inl (Catalog.clearsRaw_of_values _ [.str Average.projection]), fun inner => ?_⟩
        exact @not_nested_mem_args inner [.value _]
  · rw [ask_of_ne havg]
    cases hargs : Argument.resolveAll engine.guard.checkSql request.args with
    | error e => exact Build.adds_of_unchanged fun _ => rfl
    | ok args =>
      refine Build.adds_of_flat fun r => ?_
      rw [Build.runOn_lift_bind_of_ok rfl, Build.runOn_execute]
      refine ⟨_, Recorder.calls_executed, fun c hc => ?_⟩
      rw [List.mem_singleton.mp hc]
      exact ⟨.inl (Catalog.clearsRaw_of_resolveAll hargs), fun inner => not_nested_mem_args⟩

/-- **What an execution wraps is screened, or it is the projection of an average.**  Whatever the
settings, the definition, the parameters and the options, and whether the execution succeeds or
not, the catalog finds nothing in a raw expression that a call is handed, at whatever depth, but
for the projection that the request for an average asks for: of an identifier, with a number as
the fallback.  The same holds without the exception for what is built on the builder of a nested
definition, even if it is given up; and no marker is wrapped at all unless the catalog finds
nothing in its text. -/
theorem execute_wraps (engine : Engine) (value : Json) (caller : CallerOptions) :
    (engine.execute value caller).Adds (fun c => engine.guard.catalog.ClearsRaw c ∨
        ∃ definition request, engine.Requests value caller.params definition request ∧
          request.executor = .avg ∧ Average.Projects request.args c) ∧
      (∀ ctes items, (Scope.assemble ⟨engine.guard, caller.params, ctes⟩ items).Adds
        engine.guard.catalog.ClearsRaw) ∧
      ∀ payload r, Argument.ofPayload engine.guard.checkSql payload = .ok (.raw r) →
        engine.guard.catalog.findMatch? r.sql = none := by
  have hnested : ∀ ctes items, (Scope.assemble ⟨engine.guard, caller.params, ctes⟩ items).Adds
      engine.guard.catalog.ClearsRaw := fun ctes items =>
    ((engine.build_clearsSql value caller.params).2 ctes items).mono fun _ hc => hc.raw
  refine ⟨?_, hnested, fun payload r => Catalog.findMatch?_of_ofPayload⟩
  rcases engine.execute_cases value caller with ⟨definition, request, hrequests⟩ | ⟨e, hrefused, -⟩
  · rw [execute_of_requests hrequests]
    have hbuild : (engine.buildDefinition definition caller.params).Adds
        engine.guard.catalog.ClearsRaw := (Build.adds_lift _).bind fun _ => hnested _ definition
    refine (hbuild.mono fun _ => .inl).bind fun isCapped => ?_
    have hcap : ∀ n : Nat, engine.guard.catalog.ClearsRaw
        (.mk "limit" [.arg (.value (.nat n))]) := fun n =>
      Catalog.clearsRaw_of_values _ [.nat n]
    refine (capRows_adds (fun n => .inl (hcap n)) request isCapped).bind fun _ => ?_
    refine ((engine.ask_adds (engine.capPage request) _).mono fun c hc => ?_).bind fun _ =>
      Build.adds_lift _
    refine hc.imp_right fun hprojects => ?_
    rw [capPage_executor] at hprojects
    obtain ⟨havg, hprojects⟩ := hprojects
    rw [capPage_of_avg havg] at hprojects
    exact ⟨definition, request, hrequests, havg, hprojects⟩
  · exact Build.adds_of_unchanged fun r => by rw [hrefused r]

end Engine

/-! ## An identifier that the catalog looks for -/

namespace Catalog

/-- The built-in rules as a catalog. -/
def standard : Catalog :=
  builtin.toOption.getD .empty

theorem ofSettings_builtinRules : ofSettings builtinRules = .ok standard := by
  obtain ⟨catalog, hcatalog, -⟩ := exists_builtin
  have hread : ofSettings builtinRules = .ok catalog := by rw [← builtin, hcatalog]
  rw [hread, standard, hcatalog]
  rfl

/-- The projection of an average of a column of a system catalog. -/
def systemProjection : String :=
  "COALESCE(AVG(information_schema.x), 0) AS aggregate"

/-- The catalog finds something where a keyword of a rule hits and the rule's pattern matches. -/
theorem isSome_findMatch?_of_rule {fragment keyword : String}
    (hhits : (Screen.Keyword.ofText keyword).Hits fragment)
    (h : ∃ settings ∈ builtinRules, keyword ∈ settings.keywords ∧
      ∀ pattern ∈ Pattern.parse? settings.pattern, (pattern.find? fragment).isSome) :
    (standard.findMatch? fragment).isSome := by
  obtain ⟨settings, hsettings, hkeyword, hfinds⟩ := h
  obtain ⟨rule, hread⟩ := exists_readRule hsettings
  exact isSome_findMatch?_of_mem ofSettings_builtinRules hsettings hkeyword hhits hread
    (Pattern.find?_isSome_iff.mp (hfinds _ (parse?_of_readRule hread)))

theorem isSome_findMatch?_systemProjection : (standard.findMatch? systemProjection).isSome := by
  have hhits : (Screen.Keyword.ofText "information_schema").Hits systemProjection := by
    decide +kernel
  have hrule : ∃ settings ∈ builtinRules, "information_schema" ∈ settings.keywords ∧
      ∀ pattern ∈ Pattern.parse? settings.pattern, (pattern.find? systemProjection).isSome := by
    decide +kernel
  exact isSome_findMatch?_of_rule hhits hrule

end Catalog

namespace Engine

open Catalog (systemProjection)

/-- An average of a column of a system catalog. -/
def systemAverage : Json :=
  .arr [.obj [("from", .str "users")], .obj [("avg", .str "information_schema.x")]]

/-- **The two tests are not one.**  The default settings wrap the projection of an average of a
system catalog, in which the built-in rules find something. -/
theorem not_execute_wraps :
    ∃ engine s, ofSettings {} = .ok engine ∧
      (engine.execute systemAverage {}).runOn .fresh = (.ok .null, s) ∧
      s.calls = [.mk "from" [Build.textOperand "users"],
        .mk "selectRaw" [.arg (.raw ⟨systemProjection, []⟩)],
        .mk "value" [Build.textOperand "aggregate"]] ∧
      (engine.guard.catalog.findMatch? systemProjection).isSome := by
  have hrules : SecuritySettings.rules {} = Catalog.builtinRules := by
    rw [SecuritySettings.rules, if_neg Bool.false_ne_true, List.append_nil]
  have hguard : Guard.ofSettings {} = .ok ⟨.permitAll, .permitAll, .permitAll, [], .standard⟩ :=
    Guard.ofSettings_eq_ok_iff.mpr
      ⟨rfl, by rw [hrules, Catalog.ofSettings_builtinRules], rfl, rfl, rfl⟩
  have hsql : Average.sql "information_schema.x" (.int 0) = systemProjection := by decide +kernel
  refine ⟨⟨⟨.permitAll, .permitAll, .permitAll, [], .standard⟩, {}⟩, _, ?_, rfl, ?_, ?_⟩
  · rw [ofSettings, hguard]
    rfl
  · rw [← hsql]
    rfl
  · dsimp only
    exact Catalog.isSome_findMatch?_systemProjection

end Engine

end QueryScript
