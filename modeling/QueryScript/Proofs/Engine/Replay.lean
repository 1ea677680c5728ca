import QueryScript.Proofs.Assembly.Replay
import QueryScript.Proofs.Engine.Tables

/-!
# The order in which a build replays a definition

A build that succeeds makes the calls that its definition replays, on its own builder and on every
nested one.  The names of common table expressions come first and everything else in the order of
the document, as long as no `else` definition brings a name after an ordinary call or an ordinary
call before one that is written earlier (`build_replays`).  With `lateName` a name comes last
(`not_build_namesFirst`).
-/

namespace QueryScript.Engine

variable {engine : Engine} {value : Json} {params : Params}

/-- **A build replays its definition.**  The calls on its builder are made one by one by the
actions that the definition replays, and those on every builder nested in it by the actions that a
definition assembled for it replays.  In each of them names come first and everything else in the
order of the document exactly if in no definition that it is made of the items get in each other's
way. -/
theorem build_replays {r r' : Recorder} (h : (engine.build value params).runOn r = (.ok (), r')) :
    ∃ definition added, Definition.ofJson value = .ok definition ∧ r'.calls = r.calls ++ added ∧
      (engine.scope params definition).Replays definition added ∧
      (∀ inner, Call.Encloses inner added →
        ∃ d, (engine.scope params definition).Assembles definition d ∧
          (engine.scope params definition).Replays d inner) ∧
      ∀ d, (engine.scope params definition).Assembles definition d →
        ((engine.scope params definition).InOrder d ↔
          (engine.scope params definition).KeepsOrder d) := by
  obtain ⟨definition, capped, hread, -, hrun⟩ := runOn_build_eq_ok.mp h
  obtain ⟨added, hcalls, -⟩ := (engine.scope params definition).assemble_adds definition r
  rw [hrun] at hcalls
  have hruns : ((engine.scope params definition).assemble definition).Runs capped added :=
    ⟨r, r', hrun, hcalls⟩
  exact ⟨definition, added, hread, hcalls, Scope.replays_of_runs hruns,
    fun _ => Scope.exists_replays_of_encloses hruns, fun d _ => Scope.inOrder_iff _ d⟩

/-- A query that names another last, with a step that is replaced by two others. -/
def replacedStep : Json :=
  .arr [.obj [("from", .str "users")],
    .obj [("limit", .nat 1), ("when", .bool false),
      ("else", .arr [.obj [("select", .str "id")], .obj [("orderBy", .str "id")]])],
    .obj [("with", .str "others"), ("query", .arr [.obj [("from", .str "users")]])]]

instance (t t' : Taken) : Decidable (t.Precedes t') :=
  inferInstanceAs (Decidable (_ ∨ _ ∧ _))

theorem exists_runs_replacedStep :
    ∃ engine definition r', ofSettings .usersOnly = .ok engine ∧
      Definition.ofJson replacedStep = .ok definition ∧
      (engine.build replacedStep .empty).runOn .fresh = (.ok (), r') ∧
      r'.calls.map Call.method = ["with", "from", "select", "orderBy"] ∧
      ((engine.scope .empty definition).replay definition).map (·.place) =
        [[2], [0], [1, 0], [1, 1]] ∧
      (engine.scope .empty definition).InOrder definition :=
  ⟨_, _, _, rfl, rfl, rfl, rfl, rfl, by unfold Scope.InOrder; decide⟩

/-- The name comes first, and the two steps in the place of the one that they replace. -/
theorem build_replays_of_replacedStep :
    ∃ engine definition r', ofSettings .usersOnly = .ok engine ∧
      (engine.build replacedStep .empty).runOn .fresh = (.ok (), r') ∧
      r'.calls.map Call.method = ["with", "from", "select", "orderBy"] ∧
      (engine.scope .empty definition).Replays definition r'.calls ∧
      (engine.scope .empty definition).KeepsOrder definition := by
  obtain ⟨engine, definition, r', hengine, hread, hrun, hmethods, -, horder⟩ :=
    exists_runs_replacedStep
  obtain ⟨definition', added, hread', hcalls, hreplays, -, hiff⟩ := build_replays hrun
  obtain rfl := Except.ok.inj (hread.symm.trans hread')
  have hadded : r'.calls = added := hcalls
  exact ⟨engine, definition, r', hengine, hrun, hmethods, hadded ▸ hreplays,
    (hiff definition (.self definition)).mp horder⟩

/-- A query whose limit is replaced by a name. -/
def lateName : Json :=
  .arr [.obj [("from", .str "users")],
    .obj [("limit", .nat 1), ("when", .bool false),
      ("else", .arr [.obj [("with", .str "others"),
        ("query", .arr [.obj [("from", .str "users")]])]])]]

theorem exists_runs_lateName :
    ∃ engine r', ofSettings .usersOnly = .ok engine ∧
      (engine.build lateName .empty).runOn .fresh = (.ok (), r') ∧
      r'.calls.map Call.method = ["from", "with"] :=
  ⟨_, _, rfl, rfl, rfl⟩

/-- The calls that name common table expressions do not come first in every query. -/
theorem not_build_namesFirst :
    ¬ ∀ (engine : Engine) (value : Json) (params : Params) (r' : Recorder),
      (engine.build value params).runOn .fresh = (.ok (), r') →
      (r'.calls.map Call.method).Pairwise fun method method' =>
        Action.route? method' = some .withQuery → Action.route? method = some .withQuery := by
  intro h
  obtain ⟨engine, r', -, hrun, hmethods⟩ := exists_runs_lateName
  have hfirst := h engine lateName .empty r' hrun
  rw [hmethods] at hfirst
  have hfrom := List.rel_of_pairwise_cons hfirst (List.mem_singleton_self "with")
    (by decide +kernel)
  exact absurd hfrom (by decide +kernel)

end QueryScript.Engine
