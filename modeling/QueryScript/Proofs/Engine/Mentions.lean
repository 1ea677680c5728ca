import QueryScript.Proofs.Assembly.Reading
import QueryScript.Proofs.Engine.Build
import QueryScript.Proofs.Engine.Tables

/-!
# The parameters that a definition mentions

A definition mentions parameters where it is written: by a marker, by a template in a text,
or in the condition of a step at whatever depth (`Json.Mentions`).  Only these parameters
matter to a build (`Engine.build_readsMentioned`): under any two maps that agree on them, a
build from any recorder ends in the same way and makes the same calls.

What a value of a parameter looks like is not read off the definition, so it mentions
nothing.  A value in which `$secret$` or a marker stands is handed on with these in it.
-/

namespace QueryScript

/-- A definition mentions a parameter: something in the value refers to it, or the condition of
a step that is written in the value asks for it. -/
inductive Json.Mentions (value : Json) (name : String) : Prop where
  | refers (h : value.Refers name)
  | asks {xs : List Json} {es : Entries} {condition : Json} (hwrites : value.Writes xs)
      (hitem : .obj es ∈ xs) (hwhen : Entries.get? es "when" = some condition)
      (h : (Condition.ofJson condition).Asks name)

variable {value : Json} {definition : Definition} {item : Item} {name : String}

/-- What a step of the tree mentions is mentioned in the value that the tree is read from. -/
theorem Json.mentions_of_hasItem (h : Definition.ofJson value = .ok definition)
    (hitem : definition.HasItem item) (hmentions : item.Mentions name) : value.Mentions name := by
  cases hmentions with
  | refers hrefers =>
    obtain ⟨xs, hwrites, hmem⟩ := Definition.exists_writes_of_hasItem h hitem
    exact .refers (hrefers.part (hwrites.part hmem))
  | asks hwhen hasks =>
    obtain ⟨xs, hwrites, hmem⟩ := Definition.exists_writes_of_hasItem h hitem
    exact .asks hwrites hmem hwhen hasks

namespace Engine

variable {engine : Engine} {params params' : Params}

theorem withParams_scope (engine : Engine) (definition : Definition) (params params' : Params) :
    (engine.scope params definition).withParams params' = engine.scope params' definition :=
  rfl

/-- **Only the parameters that a definition mentions matter to a build.**  What is put in for a
parameter is never read again, so no parameter is reached through the value of another. -/
theorem build_readsMentioned
    (h : ∀ name, value.Mentions name → params.get? name = params'.get? name) (r : Recorder) :
    (engine.build value params).runOn r = (engine.build value params').runOn r := by
  suffices hbuild : engine.build value params = engine.build value params' by rw [hbuild]
  cases hread : Definition.ofJson value with
  | error e => rw [build_of_unread hread, build_of_unread hread]
  | ok definition =>
    have hassemble : (engine.scope params definition).assemble definition =
        (engine.scope params' definition).assemble definition := by
      rw [← engine.withParams_scope definition params params,
        ← engine.withParams_scope definition params params']
      refine Scope.assemble_congr definition fun item hitem name hmentions => ?_
      exact h name (Json.mentions_of_hasItem hread hitem hmentions)
    rw [build_of_read hread, build_of_read hread, buildDefinition_eq, buildDefinition_eq, hassemble]

/-- A definition that mentions two parameters: the one in a template, and the other by a marker
and in a condition. -/
def notesQuery : Json :=
  .arr [
    .obj [("from", .str "users")],
    .obj [("where", .arr [.str "name", .str "$name$"])],
    .obj [("when", .obj [("param", .str "tag")]),
      ("where", .arr [.str "tag", .obj [("$param", .str "tag")]])]]

/-- Values for the parameters of `notesQuery` that look like a template and like a marker for a
third parameter. -/
def notesParams (secret : Json) : Params :=
  ⟨[("name", .str "$secret$"), ("tag", .obj [("$param", .str "secret")]), ("secret", secret)]⟩

/-- The only list of items in `notesQuery` is the definition itself. -/
theorem writes_notesQuery {xs : List Json} (h : notesQuery.Writes xs) : notesQuery = .arr xs := by
  induction h with
  | top h => exact h
  | nested _ hitem hhangs ih =>
    cases ih
    simp only [List.mem_cons, List.not_mem_nil, or_false, Json.obj.injEq] at hitem
    rcases hitem with rfl | rfl | rfl <;> cases hhangs

theorem eq_of_mentions_notesQuery (h : notesQuery.Mentions name) :
    name = "name" ∨ name = "tag" := by
  cases h with
  | refers h =>
    have hnames : "name" = name ∨ (Json.str "tag").string? = some name := by
      simpa [notesQuery, Template.finds_cons, Template.nameAt?, Template.startsName, Text.isWord,
        Text.isAsciiWord, Json.paramName?, Json.paramKey, Entries.get?] using h
    rcases hnames with rfl | htag
    · exact .inl rfl
    · exact .inr (Option.some.inj htag).symm
  | asks hwrites hitem hwhen h =>
    cases writes_notesQuery hwrites
    simp only [List.mem_cons, List.not_mem_nil, or_false, Json.obj.injEq] at hitem
    rcases hitem with rfl | rfl | rfl
    · cases hwhen
    · cases hwhen
    · cases hwhen
      cases h
      exact .inr rfl

/-- A parameter that is named only in the values of others is not put in. -/
theorem build_readsMentioned_of_secret :
    ∃ engine s, ofSettings .usersOnly = .ok engine ∧
      (engine.build notesQuery (notesParams (.str "a"))).runOn .fresh = (.ok (), s) ∧
      (engine.build notesQuery (notesParams (.str "b"))).runOn .fresh = (.ok (), s) ∧
      s.calls = [
        .mk "from" [.arg (.value (.str "users"))],
        .mk "where" [.arg (.value (.str "name")), .arg (.value (.str "$secret$"))],
        .mk "where" [.arg (.value (.str "tag")),
          .arg (.value (.obj [("$param", .str "secret")]))]] := by
  have hagree : ∀ name, notesQuery.Mentions name →
      (notesParams (.str "b")).get? name = (notesParams (.str "a")).get? name := by
    intro name h
    rcases eq_of_mentions_notesQuery h with rfl | rfl <;> rfl
  refine ⟨_, _, rfl, rfl, ?_, rfl⟩
  rw [build_readsMentioned hagree]
  rfl

end Engine

end QueryScript
