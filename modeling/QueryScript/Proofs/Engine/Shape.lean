import QueryScript.Proofs.Assembly.Shape
import QueryScript.Proofs.Definition.Written
import QueryScript.Proofs.Engine.Build
import QueryScript.Proofs.Engine.Tables

/-!
# Parameters do not change the shape of a query

A caller's parameters decide which conditions hold, and so which actions are applied.
Where no step has a condition they decide nothing but arguments: in two builds that
succeed the same methods are called in the same order, on builders nested in the same way,
and joins are given conditions by the same methods (`build_keepsShape`).
-/

namespace QueryScript

/-- No item that is written in a value, at whatever depth, has a condition. -/
def Json.Ungated (value : Json) : Prop :=
  ∀ xs, value.Writes xs → ∀ es, .obj es ∈ xs → Entries.has es "when" = false

/-- No item of an ungated definition has a condition. -/
theorem Json.Ungated.has_eq_false {value : Json} {definition : Definition}
    (h : value.Ungated) (hread : Definition.ofJson value = .ok definition) {es : Entries}
    {nested : List (Slot × Definition)} (hitem : definition.HasItem (.step es nested)) :
    Entries.has es "when" = false := by
  obtain ⟨xs, hwrites, hx⟩ := Definition.exists_writes_of_hasItem hread hitem
  exact h xs hwrites es hx

namespace Engine

/-- **Parameters do not change the shape of a query.**  If no item that is written at any depth
has a condition, two builds that succeed make calls of the same shapes, whatever parameters
they are given. -/
theorem build_keepsShape {engine : Engine} {value : Json} (hungated : value.Ungated)
    {params params' : Params} {r s r' s' : Recorder}
    (h : (engine.build value params).runOn r = (.ok (), s))
    (h' : (engine.build value params').runOn r' = (.ok (), s')) :
    ∃ added added', s.calls = r.calls ++ added ∧ s'.calls = r'.calls ++ added' ∧
      Call.shapes added = Call.shapes added' := by
  obtain ⟨definition, capped, hread, -, hrun⟩ := runOn_build_eq_ok.mp h
  obtain ⟨definition', capped', hread', -, hrun'⟩ := runOn_build_eq_ok.mp h'
  obtain rfl := Except.ok.inj (hread.symm.trans hread')
  have hsame := (engine.scope params definition).sameShape_assemble
    (engine.scope params' definition) definition fun _ _ => hungated.has_eq_false hread
  obtain ⟨added, hcalls, -⟩ := hsame.grows r
  obtain ⟨added', hcalls', -⟩ := hsame.grows' r'
  rw [hrun] at hcalls
  rw [hrun'] at hcalls'
  exact ⟨added, added', hcalls, hcalls',
    hsame.shapes _ _ _ _ ⟨r, s, hrun, hcalls⟩ ⟨r', s', hrun', hcalls'⟩⟩

/-- A definition whose parameters stand for a table, for an operand of a join condition, and
for an operand inside a nested query. -/
def staffQuery : Json :=
  .arr [
    .obj [("from", .obj [("$param", .str "table")])],
    .obj [("join", .str "users m"), ("on", .arr [
      .arr [.str "u.boss", .str "m.id"],
      .obj [("orOn", .arr [.str "m.kind", .obj [("$param", .str "kind")]])]])],
    .obj [("whereExists", .bool true), ("query", .arr [
      .obj [("from", .str "users")],
      .obj [("where", .arr [.str "id", .obj [("$param", .str "id")]])]])]]

/-- Plain values for the parameters of `staffQuery`. -/
def staffParams : Params :=
  ⟨[("table", .str "users u"), ("kind", .str "a"), ("id", .nat 1)]⟩

/-- Values for the parameters of `staffQuery` that look like more of the definition: a list of
arguments, a join condition, and a query. -/
def craftedParams : Params :=
  ⟨[("table", .arr [.str "people u"]), ("kind", .obj [("andOn", .str "b")]),
    ("id", .arr [.obj [("from", .str "users")]])]⟩

theorem ungated_staffQuery : staffQuery.Ungated := by
  -- the definition has two lists of items: its own, and the one under `query`
  have hlists : ∀ xs, staffQuery.Writes xs → staffQuery = .arr xs ∨
      xs = [.obj [("from", .str "users")],
        .obj [("where", .arr [.str "id", .obj [("$param", .str "id")]])]] := by
    intro xs h
    induction h with
    | top h => exact .inl h
    | nested _ hitem hhangs ih =>
      rcases ih with h | rfl
      · cases h
        simp only [List.mem_cons, List.not_mem_nil, or_false, Json.obj.injEq] at hitem
        rcases hitem with rfl | rfl | rfl
        · cases hhangs
        · cases hhangs
        · cases List.mem_singleton.mp hhangs
          exact .inr rfl
      · simp only [List.mem_cons, List.not_mem_nil, or_false, Json.obj.injEq] at hitem
        rcases hitem with rfl | rfl
        · cases hhangs
        · cases hhangs
  intro xs hwrites es hitem
  rcases hlists xs hwrites with h | rfl
  · cases h
    simp only [List.mem_cons, List.not_mem_nil, or_false, Json.obj.injEq] at hitem
    rcases hitem with rfl | rfl | rfl <;> rfl
  · simp only [List.mem_cons, List.not_mem_nil, or_false, Json.obj.injEq] at hitem
    rcases hitem with rfl | rfl <;> rfl

theorem exists_runs_staffQuery :
    ∃ engine s s', ofSettings .usersOnly = .ok engine ∧
      (engine.build staffQuery staffParams).runOn .fresh = (.ok (), s) ∧
      (engine.build staffQuery craftedParams).runOn .fresh = (.ok (), s') ∧
      Call.shapes s.calls = [
        .mk "from" [],
        .mk "join" [.conditions [⟨"on", []⟩, ⟨"orOn", []⟩]],
        .mk "whereExists" [.nested [.mk "from" [], .mk "where" []]]] :=
  ⟨_, _, _, rfl, rfl, rfl, rfl⟩

/-- Values that look like a condition and like a query remain operands. -/
theorem build_keepsShape_of_craftedParams :
    ∃ engine s', ofSettings .usersOnly = .ok engine ∧ staffQuery.Ungated ∧
      (engine.build staffQuery craftedParams).runOn .fresh = (.ok (), s') ∧
      Call.shapes s'.calls = [
        .mk "from" [],
        .mk "join" [.conditions [⟨"on", []⟩, ⟨"orOn", []⟩]],
        .mk "whereExists" [.nested [.mk "from" [], .mk "where" []]]] := by
  obtain ⟨engine, s, s', hengine, hrun, hrun', hshapes⟩ := exists_runs_staffQuery
  refine ⟨engine, s', hengine, ungated_staffQuery, hrun', ?_⟩
  obtain ⟨added, added', hcalls, hcalls', hsame⟩ :=
    build_keepsShape ungated_staffQuery hrun hrun'
  have hadded : s.calls = added := hcalls
  have hadded' : s'.calls = added' := hcalls'
  rw [hadded', ← hsame, ← hadded, hshapes]

end Engine

end QueryScript
