import QueryScript.Proofs.Assembly.Overlooking
import QueryScript.Proofs.Engine.Build
import QueryScript.Proofs.Engine.Tables

/-!
# SQL that is refused before the first call

A definition is checked before it is built, so that what is dangerous in it is refused while
the query is still empty.  For a definition that is written literally the check should find
all SQL that building it would refuse.  It does, but for what it overlooks: if a literal
definition is refused for SQL, then by the check, or for something that an action overlooks
(`build_refusesSql`).

Four definitions, one for each thing that is overlooked, show that nothing can be left out of
the exception (`lateQueries`): all of them pass the check, and all of them are refused after a
first call.
-/

namespace QueryScript

theorem Error.exists_asViolation (e : Error) : ∃ cause, e.asViolation = .violation cause := by
  cases e with
  | violation cause => exact ⟨cause, rfl⟩
  | _ => exact ⟨_, rfl⟩

namespace Scope

variable {scope : Scope} {value : Json} {definition d : Definition} {a : Application}

/-- In a definition that is written literally, an action that is reached is that of a literal
step of the definition. -/
theorem isLiteral_of_applies (hliteral : value.IsLiteral)
    (hread : Definition.ofJson value = .ok definition)
    (hassembles : scope.Assembles definition d) (happlies : scope.Applies d a) :
    a.IsLiteral ∧ ∃ nested, definition.HasItem (.step a.entries nested) := by
  obtain ⟨item, hitem, happ, -⟩ := happlies
  obtain ⟨-, -, nested, rfl, -⟩ := application?_spec happ
  have hmem := hassembles.hasItem hitem
  obtain ⟨xs, hwrites, hx⟩ := Definition.exists_writes_of_hasItem hread hmem
  exact ⟨Application.isLiteral_of_application? happ (hliteral.part (hwrites.part hx)),
    nested, hmem⟩

end Scope

namespace Engine

variable {engine : Engine} {value : Json} {params : Params}

/-- An action overlooks something in the build of a definition: it is reached when the definition
is assembled, and refused for SQL that the check of its step does not judge. -/
def OverlooksIn (engine : Engine) (params : Params) (definition : Definition) (e : Error) : Prop :=
  ∃ d a, (engine.scope params definition).Assembles definition d ∧
    (engine.scope params definition).Applies d a ∧ a.Overlooks (engine.scope params definition) e

/-- What refuses a definition for SQL before it is built is a violation. -/
theorem exists_violation_of_validate {e : Error} (h : engine.validate value = .error e)
    (hsql : e.refusesSql = true) : ∃ cause, e = .violation cause := by
  rcases Checks.bind_eq_error.mp h with h | ⟨definition, -, h⟩
  · unfold Definition.ofJson at h
    split at h
    · cases h
    · cases h
      cases hsql
  · rw [Guard.checkDefinition] at h
    split at h
    · cases h
    next e' _ =>
      cases h
      exact e'.exists_asViolation

/-- **What is refused for SQL is refused before the first call, unless it is overlooked.**
Whatever the settings and the parameters, a build of a literal definition that is refused for SQL
has been refused by the check, with a violation and before any call; or the check has passed,
and an action that is reached is refused for something that the check overlooks.  An action
that is reached and overlooks something keeps the build from succeeding. -/
theorem build_refusesSql (hliteral : value.IsLiteral) (params : Params) :
    (∀ r e r', (engine.build value params).runOn r = (.error e, r') → e.refusesSql = true →
      (engine.validate value = .error e ∧ (∃ cause, e = .violation cause) ∧ r' = r) ∨
      (engine.validate value = .ok () ∧ (∀ cause, e ≠ .violation cause) ∧
        ∃ definition, Definition.ofJson value = .ok definition ∧
          engine.OverlooksIn params definition e)) ∧
    ∀ definition e, Definition.ofJson value = .ok definition →
      engine.OverlooksIn params definition e →
        ∀ r, ((engine.build value params).runOn r).1 ≠ .ok () := by
  constructor
  · intro r e r' hrun hsql
    rcases runOn_build_eq_error hrun with ⟨hvalidate, rfl⟩ | ⟨definition, hread, hcheck, hrun⟩
    · exact .inl ⟨hvalidate, exists_violation_of_validate hvalidate hsql, rfl⟩
    · right
      -- the check has judged every item of the tree, under the names of the whole
      have hown := Guard.checkItems_eq_ok_iff.mp (Guard.checkDefinition_eq_ok_iff.mp hcheck)
      have hends : ((engine.scope params definition).assemble definition).Ends (fun _ => True)
          fun e => e.refusesSql = true →
            (∀ cause, e ≠ .violation cause) ∧ engine.OverlooksIn params definition e := by
        refine Scope.assemble_ends (fun e hother hsql => ?_)
          fun d a e hassembles happlies hrefuses _ => ⟨hrefuses.ne_violation, ?_⟩
        · rw [hother] at hsql
          cases hsql
        · obtain ⟨hstep, nested, hitem⟩ :=
            Scope.isLiteral_of_applies hliteral hread hassembles happlies
          exact ⟨d, a, hassembles, happlies, hstep.overlooks_of_refuses (hown _ hitem) hrefuses⟩
      obtain ⟨hbare, hoverlooks⟩ := hends.error hrun hsql
      refine ⟨?_, hbare, definition, hread, hoverlooks⟩
      rw [validate, Guard.validate, hread]
      exact hcheck
  · rintro definition e hread ⟨d, a, hassembles, happlies, hoverlooks⟩ r hsucceeds
    obtain ⟨hstep, -⟩ := Scope.isLiteral_of_applies hliteral hread hassembles happlies
    -- a build that succeeds has applied every action that is reached
    have hrun : (engine.build value params).runOn r =
        (.ok (), ((engine.build value params).runOn r).2) := Prod.ext hsucceeds rfl
    obtain ⟨definition', capped, hread', -, hassembled⟩ := runOn_build_eq_ok.mp hrun
    obtain rfl := Except.ok.inj (hread.symm.trans hread')
    obtain ⟨added, hcalls, -⟩ := Scope.assemble_adds (engine.scope params definition) definition r
    rw [hassembled] at hcalls
    have hjudges := Scope.judges_of_runs hassembles happlies ⟨r, _, hassembled, hcalls⟩
    exact (hstep.refuses_of_overlooks hoverlooks).not_judges hjudges

/-- A definition with a marker whose payload is no text. -/
def numberMarker : Json :=
  .arr [
    .obj [("from", .str "users")],
    .obj [("where", .arr [.str "id", .obj [("$raw", .nat 5)]])]]

theorem isLiteral_numberMarker : numberMarker.IsLiteral := by
  simp [numberMarker, Json.nat, Entries.has, Entries.get?, Json.paramKey]

/-- A malformed marker is refused with the query still empty, since the check refuses it. -/
theorem build_refusesSql_of_numberMarker :
    ∃ engine e, ofSettings .usersOnly = .ok engine ∧ e.refusesSql = true ∧
      (engine.build numberMarker ⟨[]⟩).runOn .fresh = (.error e, .fresh) ∧
      engine.validate numberMarker = .error e := by
  obtain ⟨engine, cause, hengine, hsql, hrun⟩ :
      ∃ engine cause, ofSettings .usersOnly = .ok engine ∧ Error.refusesSql cause = true ∧
        (engine.build numberMarker ⟨[]⟩).runOn .fresh = (.error (.violation cause), .fresh) :=
    ⟨_, _, rfl, rfl, rfl⟩
  refine ⟨engine, .violation cause, hengine, hsql, hrun, ?_⟩
  rcases (build_refusesSql isLiteral_numberMarker ⟨[]⟩).1 _ _ _ hrun hsql with
    ⟨hvalidate, -⟩ | ⟨-, hbare, -⟩
  · exact hvalidate
  · exact absurd rfl (hbare cause)

end Engine

/-! ## Refusals after the first call -/

/-- A deployment with one rule of its own. -/
def Settings.noDrops : Settings where
  security :=
    { rawPatterns := [⟨.statement, "drop", "drop\\s+table", ["drop"]⟩]
      replaceDefaultPatterns := true }

namespace Engine

/-- Literal definitions with what they are refused for: for the text of a raw join that stands in
the place of a table, for bindings that are no list, for a marker below a key of nested
definitions, and for one beside another marker. -/
def lateQueries : List (Json × Error) :=
  let drop : Json := .str "drop table users"
  let after (step : Entries) : Json := .arr [.obj [("from", .str "users")], .obj step]
  let dropped : Error := .dangerousSql "statement" "drop"
  [(after [("joinRaw", .obj [("table", drop)])], dropped),
    (after [("where", .arr [.str "id",
        .obj [("$raw", .obj [("sql", .str "?"), ("bindings", .nat 1)])]])],
      .rawMarker "'bindings' must be an array"),
    (after [("where", .arr [.str "id", .obj [("query", .obj [("$raw", drop)])]])], dropped),
    (after [("join", .str "users m"), ("on", .obj [("first", .str "users.id"),
        ("second", .obj [("$raw", drop)]), ("$raw", .str "1")])], dropped)]

theorem isLiteral_of_mem_lateQueries : ∀ late ∈ lateQueries, late.1.IsLiteral := by
  simp [lateQueries, Json.nat, Entries.has, Entries.get?, Json.paramKey]

/-- The check passes all of them, and each is refused for its SQL when a call has been made. -/
theorem build_refusesSql_late :
    ∃ engine, ofSettings .noDrops = .ok engine ∧ ∀ late ∈ lateQueries,
      late.1.IsLiteral ∧ engine.validate late.1 = .ok () ∧
        late.2.refusesSql = true ∧ (∀ cause, late.2 ≠ .violation cause) ∧
        ∃ r', (engine.build late.1 ⟨[]⟩).runOn .fresh = (.error late.2, r') ∧ r'.calls ≠ [] := by
  have hruns : ∃ engine ∈ (ofSettings .noDrops).toOption, ∀ late ∈ lateQueries,
      engine.validate late.1 = .ok () ∧
        ((engine.build late.1 ⟨[]⟩).runOn .fresh).1 = .error late.2 ∧
        ((engine.build late.1 ⟨[]⟩).runOn .fresh).2.calls ≠ [] := by
    decide +kernel
  obtain ⟨engine, hengine, hruns⟩ := hruns
  refine ⟨engine, Checks.eq_ok_of_mem_toOption hengine, fun late hlate => ?_⟩
  obtain ⟨hvalidate, hrun, hcalls⟩ := hruns late hlate
  have herrors : ∀ late ∈ lateQueries, late.2.refusesSql = true ∧ late.2.asViolation ≠ late.2 := by
    decide
  obtain ⟨hsql, hbare⟩ := herrors late hlate
  refine ⟨isLiteral_of_mem_lateQueries late hlate, hvalidate, hsql, ?_, _, Prod.ext hrun rfl,
    hcalls⟩
  intro cause hcause
  rw [hcause] at hbare
  exact hbare rfl

end Engine

end QueryScript
