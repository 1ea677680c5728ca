import QueryScript.Proofs.Assembly.Judging
import QueryScript.Proofs.Definition.Written
import QueryScript.Proofs.Guard.Visited
import QueryScript.Proofs.Json.Literal
import QueryScript.Proofs.Vocabulary.Arguments

/-!
# What the check of a definition overlooks

Where no parameter has a part, an action hands on what is written in its step, and the
check of the definition has seen the step.  So most SQL for which an action is refused
would have been refused by the check.  `Overlooks` lists what is left: the text that a raw
join is given by name, bindings that are no list, and markers that the check does not meet
because they stand below a key of nested definitions or beside another marker.

If a step has passed the check on its own, its action is refused for SQL only where the
check overlooks something (`overlooks_of_refuses`), and where it does, the action is never
applied (`not_judges_of_overlooks`).
-/

namespace QueryScript

/-- The objects in a value that writes conditions: each condition that is one, or the value. -/
def WrittenCondition.fieldsIn : Json → List Entries
  | .arr xs => xs.filterMap Json.entries?
  | .obj es => [es]
  | _ => []

namespace Application

/-- The objects from which a join reads entries by name: its value, and its conditions as they
are written. -/
def fields (a : Application) : List Entries :=
  a.written.entries?.toList ++
    (Entries.get? a.entries "on" <|> a.written.field? "on").toList.flatMap
      WrittenCondition.fieldsIn

/-- A join reads the value out of one of its objects, and that object is a marker. -/
def Beside (a : Application) (v : Json) : Prop :=
  ∃ es ∈ a.fields, Entries.has es Json.rawKey = true ∧ Json.Part v (.obj es)

/-- The action is refused for SQL that the check of its step does not judge. -/
inductive Overlooks (a : Application) (scope : Scope) (e : Error) : Prop where
  /-- A raw join takes its text from the place of a table, where no text is looked for. -/
  | table {es : Entries} {sql : String} (hroute : a.route = .joinRaw)
      (hwritten : a.written = .obj es) (hmarker : (Json.obj es).isMarker = false)
      (hsql : Entries.get? es "table" = some (.str sql))
      (h : scope.guard.checkSql sql = .error e)
  /-- Of a marker only the text is judged, and not what is bound in it. -/
  | bindings {v payload : Json} (hv : v ∈ a.fragments scope) (hshows : Json.Shows payload v)
      (hpasses : scope.guard.checkPayload payload = .ok ())
      (h : Argument.payloadBindings payload = .error e)
  /-- A marker stands below a key that elsewhere holds a nested definition. -/
  | hidden {v payload : Json} (hv : v ∈ a.fragments scope) (hhides : Json.Hides payload v)
      (h : Argument.ofPayload scope.guard.checkSql payload = .error e)
  /-- A join reads an object by name that is a marker itself, and a marker stands in what it
  reads. -/
  | beside {v payload : Json} (htakes : a.route.takesConditions = true) (hbeside : a.Beside v)
      (hv : v ∈ a.fragments scope) (hshows : Json.Shows payload v)
      (h : Argument.ofPayload scope.guard.checkSql payload = .error e)

end Application

/-! ## What the check of a step meets -/

namespace Guard

/-- Every marker that the check meets in the value it meets in the entries of a step. -/
def Exposes (es : Entries) (v : Json) : Prop :=
  ∃ key w, (key, w) ∈ es ∧ isNestedKey key = false ∧
    ∀ payload, Meets payload v → Meets payload w

variable {guard : Guard} {ctes : CteNames} {es : Entries} {nested : List (Slot × Definition)}

/-- The check of a step judges the value under each of its keys. -/
theorem checkEntry_of_checkOwn (h : guard.checkOwn ctes (.step es nested) = .ok ()) {key : String}
    {v : Json} (hv : (key, v) ∈ es) : guard.checkEntry ctes key v = .ok () := by
  obtain ⟨_, hentries, -⟩ := Checks.bind_eq_ok.mp h
  exact Checks.forM_eq_ok.mp hentries _ hv

/-- The check of a step judges the text of every marker that it meets. -/
theorem checkPayload_of_checkOwn (h : guard.checkOwn ctes (.step es nested) = .ok ()) {v : Json}
    (hexposes : Exposes es v) {payload : Json} (hmeets : Meets payload v) :
    guard.checkPayload payload = .ok () := by
  obtain ⟨_, -, hmarkers⟩ := Checks.bind_eq_ok.mp h
  obtain ⟨key, w, hw, hkey, hall⟩ := hexposes
  exact (hall payload hmeets).checkPayload (checkMarkers_of_entries hmarkers _ hw hkey)

/-- The check of a step judges the text that is looked for in its action's value. -/
theorem checkSql_of_checkEntry {key : String} {v : Json} {route : Route}
    (h : guard.checkEntry ctes key v = .ok ()) (hreserved : Action.isReserved key = false)
    (hroute : Action.route? key = some route) (hraw : route.isRaw = true) {sql : String}
    (hsql : literalText? "sql" v = some sql) : guard.checkSql sql = .ok () := by
  -- no route that leads with SQL takes a table, so nothing is judged before the text
  have htable : route.takesTable = false := by
    revert hraw
    cases route <;> decide
  rw [checkEntry, hreserved, hroute] at h
  simp only [Bool.false_eq_true, ↓reduceIte, htable, hraw, hsql] at h
  obtain ⟨_, hpasses, -⟩ := Checks.bind_eq_ok.mp h
  exact hpasses

/-- Of a marker whose text passes, only the bindings can be refused. -/
theorem payloadBindings_of_ofPayload {payload : Json} {e : Error}
    (hpasses : guard.checkPayload payload = .ok ())
    (h : Argument.ofPayload guard.checkSql payload = .error e) :
    Argument.payloadBindings payload = .error e := by
  obtain ⟨sql, hsql, hcheck⟩ := Checks.bind_eq_ok.mp hpasses
  rw [Argument.ofPayload, hsql] at h
  rcases Checks.bind_eq_error.mp h with h | ⟨_, heq, h⟩
  · cases h
  · cases heq
    rcases Checks.bind_eq_error.mp h with h | ⟨bindings, -, h⟩
    · exact h
    · rw [hcheck] at h
      cases h

/-- A marker whose bindings are refused is refused. -/
theorem ofPayload_of_payloadBindings {payload : Json} {e : Error}
    (hpasses : guard.checkPayload payload = .ok ())
    (h : Argument.payloadBindings payload = .error e) :
    Argument.ofPayload guard.checkSql payload = .error e := by
  obtain ⟨sql, hsql, -⟩ := Checks.bind_eq_ok.mp hpasses
  rw [Argument.ofPayload, hsql]
  show (Argument.payloadBindings payload >>= _) = _
  rw [h]
  rfl

end Guard

/-! ## Where a join's conditions stand -/

namespace WrittenCondition

variable {on v : Json} {c : WrittenCondition} {cs : List WrittenCondition} {es : Entries}

theorem isNestedKey_of_mem_combinators {key : String} (h : key ∈ combinators) :
    Guard.isNestedKey key = false := by
  revert key
  decide

/-- An operand of a condition that an object writes stands under one of its keys. -/
theorem exists_of_ofEntries (h : ofEntries es = .ok c) (hv : v ∈ c.args) :
    ∃ key w, (key, w) ∈ es ∧ Guard.isNestedKey key = false ∧ Json.Part v w ∧
      ∀ payload, Guard.Meets payload v → Guard.Meets payload w := by
  have hhere : ∀ {key : String}, Guard.isNestedKey key = false → Entries.get? es key = some v →
      ∃ key w, (key, w) ∈ es ∧ Guard.isNestedKey key = false ∧ Json.Part v w ∧
        ∀ payload, Guard.Meets payload v → Guard.Meets payload w := by
    intro key hkey hget
    exact ⟨key, v, Entries.mem_of_get? hget, hkey, .self, fun _ hmeets => hmeets⟩
  rw [ofEntries] at h
  split at h
  -- the operands of a combinator are the items of its value, or the value itself
  next key w hfound =>
    cases h
    obtain ⟨key', hkey', hget⟩ := List.exists_of_findSome?_eq_some hfound
    obtain ⟨w', hw', heq⟩ := Option.map_eq_some_iff.mp hget
    cases heq
    have hkey := isNestedKey_of_mem_combinators hkey'
    cases w with
    | arr items =>
      exact ⟨key, .arr items, Entries.mem_of_get? hw', hkey, .item hv .self,
        fun _ hmeets => .item hv hmeets⟩
    | _ =>
      rw [List.mem_singleton.mp hv] at hhere ⊢
      exact hhere hkey hw'
  -- otherwise they are the columns to compare, with the operator between them
  next =>
    split at h
    next first second hfirst hsecond =>
      cases h
      rcases List.mem_append.mp hv with hv | hv
      · rcases List.mem_append.mp hv with hv | hv
        · rw [List.mem_singleton.mp hv] at hhere ⊢
          exact @hhere "first" (by decide) hfirst
        · exact @hhere "operator" (by decide) (Option.mem_toList.mp hv)
      · rw [List.mem_singleton.mp hv] at hhere ⊢
        exact @hhere "second" (by decide) hsecond
    next => cases h

/-- A marker in an operand of a condition is met in the value that writes the conditions, unless
the condition is a marker itself. -/
theorem meets_or_beside (h : ofJson on = .ok cs) (hc : c ∈ cs) (hv : v ∈ c.args) :
    Json.Part v on ∧ ((∀ payload, Guard.Meets payload v → Guard.Meets payload on) ∨
      ∃ es ∈ fieldsIn on, Entries.has es Json.rawKey = true ∧ Json.Part v (.obj es)) := by
  -- an object that writes a condition, wherever it stands
  have hobject : ∀ {es : Entries}, ofEntries es = .ok c → Json.Part v (.obj es) ∧
      ((∀ payload, Guard.Meets payload v → Guard.Meets payload (.obj es)) ∨
        Entries.has es Json.rawKey = true) := by
    intro es h
    obtain ⟨key, w, hw, hkey, hpart, hmeets⟩ := exists_of_ofEntries h hv
    refine ⟨.entry hw hpart, ?_⟩
    cases hraw : Entries.get? es Json.rawKey with
    | none => exact .inl fun payload hv => .entry hraw hw hkey (hmeets payload hv)
    | some payload =>
      right
      rw [Entries.has, hraw]
      rfl
  cases on with
  | arr items =>
    rw [ofJson] at h
    split at h
    next =>
      cases h
      rw [List.mem_singleton.mp hc] at hv
      exact ⟨.item hv .self, .inl fun _ hmeets => .item hv hmeets⟩
    next =>
      obtain ⟨x, hx, hitem⟩ := Checks.exists_of_mem_mapM h hc
      cases x with
      | arr args =>
        cases hitem
        exact ⟨.item hx (.item hv .self), .inl fun _ hmeets => .item hx (.item hv hmeets)⟩
      | obj es =>
        obtain ⟨hpart, hmeets | hraw⟩ := hobject hitem
        · exact ⟨.item hx hpart, .inl fun payload hv => .item hx (hmeets payload hv)⟩
        · exact ⟨.item hx hpart, .inr ⟨es, List.mem_filterMap.mpr ⟨_, hx, rfl⟩, hraw, hpart⟩⟩
      | _ => cases hitem
  | obj es =>
    obtain ⟨c', hc', hpure⟩ := Checks.bind_eq_ok.mp h
    cases hpure
    obtain rfl := List.mem_singleton.mp hc
    obtain ⟨hpart, hmeets | hraw⟩ := hobject hc'
    · exact ⟨hpart, .inl hmeets⟩
    · exact ⟨hpart, .inr ⟨es, List.mem_singleton_self es, hraw, hpart⟩⟩
  | _ => cases h

end WrittenCondition

/-! ## An action of a literal step -/

namespace Application

/-- What is known of an action whose step is literal: what it is given is what is written. -/
structure IsLiteral (a : Application) : Prop where
  route : Action.route? a.method = some a.route
  unreserved : Action.isReserved a.method = false
  written : Entries.get? a.entries a.method = some a.written
  literal : (Json.obj a.entries).IsLiteral
  resolved : a.resolved = a.written
  args : a.args = actionArguments (Action.normalize a.method).base a.route a.written

variable {a : Application} {scope : Scope} {v : Json}

/-- The base of the name of the action has the same route. -/
theorem IsLiteral.baseRoute? (h : a.IsLiteral) :
    Action.baseRoute? (Action.normalize a.method).base = some a.route :=
  Action.baseRoute?_of_route? h.route

/-- The name of the action is none of the keys of nested definitions. -/
theorem IsLiteral.isNestedKey (h : a.IsLiteral) : Guard.isNestedKey a.method = false := by
  cases hkey : Guard.isNestedKey a.method with
  | false => rfl
  | true => exact absurd (Guard.isReserved_of_isNestedKey hkey) (Bool.eq_false_iff.mp h.unreserved)

/-- What the check meets in the value of a literal step's action it meets in the step. -/
theorem IsLiteral.exposes (h : a.IsLiteral)
    (hmeets : ∀ payload, Guard.Meets payload v → Guard.Meets payload a.written) :
    Guard.Exposes a.entries v :=
  ⟨a.method, a.written, Entries.mem_of_get? h.written, h.isNestedKey, hmeets⟩

/-- A marker in an argument of a literal step is met when the step is checked. -/
theorem IsLiteral.exposes_args (h : a.IsLiteral) (hv : v ∈ a.args) :
    v = .null ∨ Guard.Exposes a.entries v := by
  rw [h.args] at hv
  rcases mem_actionArguments hv with
    hnull | hself | ⟨xs, hwritten, hx⟩ | ⟨es, key, hwritten, hmarker, hkey, hget⟩
  · exact .inl hnull
  · refine .inr (h.exposes fun payload hmeets => ?_)
    rw [← hself]
    exact hmeets
  · refine .inr (h.exposes fun payload hmeets => ?_)
    rw [hwritten]
    exact .item hx hmeets
  · refine .inr (h.exposes fun payload hmeets => ?_)
    -- arguments are read by name only out of what is no marker, where the check goes on
    rw [hwritten, Json.isMarker, Bool.or_eq_false_iff] at hmarker
    rw [hwritten]
    refine .entry ?_ (Entries.mem_of_get? hget) hkey hmeets
    exact Option.isNone_iff_eq_none.mp (Option.isSome_eq_false_iff.mp hmarker.2)

/-- What is read by name out of the value of a literal step's action is met, unless the value is
a marker. -/
theorem IsLiteral.exposes_field (h : a.IsLiteral) {es : Entries} {key : String} {w : Json}
    (hwritten : a.written = .obj es) (hget : Entries.get? es key = some w)
    (hkey : Guard.isNestedKey key = false) (hpart : Json.Part v w)
    (hmeets : ∀ payload, Guard.Meets payload v → Guard.Meets payload w) :
    Guard.Exposes a.entries v ∨ a.Beside v := by
  have hmem := Entries.mem_of_get? hget
  cases hraw : Entries.get? es Json.rawKey with
  | none =>
    refine .inl (h.exposes fun payload hv => ?_)
    rw [hwritten]
    exact .entry hraw hmem hkey (hmeets payload hv)
  | some payload =>
    refine .inr ⟨es, ?_, by rw [Entries.has, hraw]; rfl, .entry hmem hpart⟩
    rw [fields, hwritten]
    exact List.mem_append_left _ (List.mem_singleton_self es)

/-- What the join of a nested query hands on is met, unless its value is a marker. -/
theorem IsLiteral.exposes_joinedAs (h : a.IsLiteral) (hv : v ∈ a.joinedAs.2) :
    Guard.Exposes a.entries v ∨ a.Beside v := by
  rw [joinedAs, h.resolved] at hv
  split at hv
  next es hwritten =>
    obtain ⟨key, hkey, hget⟩ := List.mem_filterMap.mp hv
    have hkeys : ∀ key ∈ ["first", "operator", "second"], Guard.isNestedKey key = false := by
      decide
    exact h.exposes_field hwritten hget (hkeys key hkey) .self fun _ hmeets => hmeets
  next name extra hwritten =>
    refine .inl (h.exposes fun payload hmeets => ?_)
    rw [hwritten]
    exact .item (List.mem_cons_of_mem _ hv) hmeets
  next => cases hv

/-- The conditions of a join are the step's own or stand in its action's value. -/
theorem mem_entries_or_get?_written {on : Json}
    (hon : (Entries.get? a.entries "on" <|> a.written.field? "on") = some on) :
    ("on", on) ∈ a.entries ∨ ∃ es, a.written = .obj es ∧ Entries.get? es "on" = some on := by
  cases hown : Entries.get? a.entries "on" with
  | some own =>
    rw [hown] at hon
    cases hon
    exact .inl (Entries.mem_of_get? hown)
  | none =>
    have hfield : a.written.field? "on" = some on := by
      rw [hown] at hon
      exact hon
    cases hwritten : a.written with
    | obj es =>
      rw [hwritten] at hfield
      exact .inr ⟨es, rfl, hfield⟩
    | _ =>
      rw [hwritten] at hfield
      cases hfield

/-- An operand of a join's conditions is met, unless the join reads it out of a marker. -/
theorem IsLiteral.exposes_operands (h : a.IsLiteral) (hv : v ∈ a.operands scope) :
    Guard.Exposes a.entries v ∨ a.Beside v := by
  rw [operands] at hv
  split at hv
  next =>
    obtain ⟨c, hc, hv⟩ := List.mem_flatMap.mp hv
    obtain ⟨w, hw, rfl⟩ := List.mem_map.mp hv
    rw [writtenConditions] at hc
    split at hc
    next on hon =>
      split at hc
      next cs hcs =>
        obtain ⟨hpart, hmeets⟩ := WrittenCondition.meets_or_beside hcs hc hw
        have hwhere := mem_entries_or_get?_written hon
        have hliteral : w.IsLiteral := by
          refine h.literal.part (hpart.trans ?_)
          rcases hwhere with hown | ⟨es, hwritten, hget⟩
          · exact .entry hown .self
          · refine .entry (Entries.mem_of_get? h.written) ?_
            rw [hwritten]
            exact .entry (Entries.mem_of_get? hget) .self
        rw [Json.resolve_of_isLiteral scope.params w hliteral]
        rcases hmeets with hmeets | ⟨es, hes, hraw, hpart⟩
        · rcases hwhere with hown | ⟨es, hwritten, hget⟩
          · exact .inl ⟨"on", on, hown, by decide, hmeets⟩
          · exact h.exposes_field hwritten hget (by decide) hpart hmeets
        · refine .inr ⟨es, ?_, hraw, hpart⟩
          rw [fields, hon]
          exact List.mem_append_right _ (List.mem_flatMap.mpr ⟨on, List.mem_singleton_self on, hes⟩)
      next => cases hc
    next => cases hc
  next => cases hv

/-- What is handed on are arguments, or what the join of a nested query hands on. -/
theorem mem_handed (hv : v ∈ a.handed) :
    v ∈ a.args ∨ (a.route.takesConditions = true ∧ v ∈ a.joinedAs.2) := by
  unfold handed at hv
  split at hv
  case h_14 => exact .inl (List.mem_of_mem_drop hv)
  case h_15 h => exact .inr ⟨by rw [h]; rfl, hv⟩
  case h_16 | h_17 =>
    -- a filter that is given a group of clauses hands on nothing else
    split at hv
    · cases hv
    · exact .inl hv
  all_goals first | exact .inl hv | cases hv

/-- A marker in what a literal step's action hands on is met when the step is checked, unless a
join reads it out of another marker. -/
theorem IsLiteral.exposes_fragments (h : a.IsLiteral) (hv : v ∈ a.fragments scope) :
    v = .null ∨ Guard.Exposes a.entries v ∨ (a.route.takesConditions = true ∧ a.Beside v) := by
  rcases List.mem_append.mp hv with hv | hv
  · rcases mem_handed hv with hv | ⟨htakes, hv⟩
    · exact (h.exposes_args hv).imp_right .inl
    · exact .inr ((h.exposes_joinedAs hv).imp_right fun hbeside => ⟨htakes, hbeside⟩)
  · have htakes : a.route.takesConditions = true := by
      cases htakes : a.route.takesConditions with
      | true => rfl
      | false =>
        rw [operands_eq_nil htakes] at hv
        cases hv
    exact .inr ((h.exposes_operands hv).imp_right fun hbeside => ⟨htakes, hbeside⟩)

/-- The action of a literal step is given what is written. -/
theorem isLiteral_of_application? {item : Item} (happ : scope.application? item = some a)
    (hliteral : (Json.obj a.entries).IsLiteral) : a.IsLiteral := by
  obtain ⟨hroute, -, nested, -, hhead, hwritten, hresolved, hargs⟩ :=
    Scope.application?_spec happ
  have hvalue : a.resolved = a.written := by
    rw [hresolved]
    refine Json.resolve_of_isLiteral scope.params a.written (hliteral.part ?_)
    exact .entry (Entries.mem_of_get? hwritten) .self
  exact ⟨hroute, (Head.spec_of_ofEntries? hhead).1, hwritten, hliteral, hvalue, hvalue ▸ hargs⟩

/-! ## What is refused after the check -/

variable {nested : List (Slot × Definition)} {e : Error}

/-- **After the check, an action is refused for SQL only where the check overlooks something.** -/
theorem IsLiteral.overlooks_of_refuses (h : a.IsLiteral)
    (hown : scope.guard.checkOwn scope.ctes (.step a.entries nested) = .ok ())
    (hrefuses : a.Refuses scope e) : a.Overlooks scope e := by
  cases hrefuses with
  | text hraw hsql =>
    -- only a text in the first place can have been refused
    obtain ⟨sql, tail, hargs, hcheck⟩ : ∃ sql tail, a.args = .str sql :: tail ∧
        scope.guard.checkSql sql = .error e := by
      unfold Scope.checkSql at hsql
      split at hsql
      next sql tail hargs => exact ⟨sql, tail, hargs, hsql⟩
      next => cases hsql
    rw [h.args] at hargs
    rcases literalText?_of_head h.baseRoute? hraw hargs with
      hliteral | ⟨hjoin, es, hwritten, hmarker, htable⟩
    · have hpasses := Guard.checkSql_of_checkEntry
        (Guard.checkEntry_of_checkOwn hown (Entries.mem_of_get? h.written)) h.unreserved h.route
        hraw hliteral
      rw [hpasses] at hcheck
      cases hcheck
    · exact .table hjoin hwritten (hwritten ▸ hmarker) htable hcheck
  | marker hv hshows hpayload =>
    -- where the check meets the marker, the text has passed and the bindings must be at fault
    rcases h.exposes_fragments hv with rfl | hexposes | ⟨htakes, hbeside⟩
    · cases hshows
    · rcases hshows.meets_or_hides with hmeets | hhides
      · have hpasses := Guard.checkPayload_of_checkOwn hown hexposes hmeets
        exact .bindings hv hshows hpasses (Guard.payloadBindings_of_ofPayload hpasses hpayload)
      · exact .hidden hv hhides hpayload
    · exact .beside htakes hbeside hv hshows hpayload

/-- What the check overlooks in a literal step, its action is refused for. -/
theorem IsLiteral.refuses_of_overlooks (h : a.IsLiteral) (hoverlooks : a.Overlooks scope e) :
    a.Refuses scope e := by
  cases hoverlooks with
  | table hroute hwritten hmarker hsql hcheck =>
    refine .text (by rw [hroute]; rfl) ?_
    have hbase := h.baseRoute?
    rw [hroute] at hbase
    obtain ⟨tail, hargs⟩ := actionArguments_of_table hbase hmarker hsql
    rw [h.args, hroute, hwritten, hargs]
    exact hcheck
  | bindings hv hshows hpasses hbindings =>
    exact .marker hv hshows (Guard.ofPayload_of_payloadBindings hpasses hbindings)
  | hidden hv hhides hpayload => exact .marker hv hhides.shows hpayload
  | beside _ _ hv hshows hpayload => exact .marker hv hshows hpayload

end Application

end QueryScript
