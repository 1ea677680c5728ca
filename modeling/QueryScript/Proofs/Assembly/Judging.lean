import QueryScript.Proofs.Assembly.Induction
import QueryScript.Proofs.Guard.Markers
import QueryScript.Proofs.Recorder.Ends

/-!
# What an action judges as SQL

Before an action makes its call, it judges the SQL that it is about to hand on: the text of
its first argument, if its route says that this is SQL, and every raw marker that shows in
an argument or in an operand of a join condition (`fragments`).  An action that is applied
has judged all of them (`Judges`).  One that is not applied fails for its form, for its
table or for one of these fragments (`Fails`), or its nested query does (`apply_ends`).

So a query that is refused because of SQL is refused for a fragment of some action that was
reached (`assemble_ends`).
-/

namespace QueryScript

/-- Refusals of SQL text and of raw markers, whether on the way or as violations. -/
def Error.refusesSql : Error → Bool
  | .violation cause => cause.refusesSql
  | .dangerousSql _ _ => true
  | .rawMarker _ => true
  | _ => false

/-- Refusals of SQL text and of raw markers on the way. -/
def Error.isRefusal : Error → Bool
  | .dangerousSql _ _ => true
  | .rawMarker _ => true
  | _ => false

/-- Failures of an action for its form: its name, its table, a query or a name that it lacks, its
conditions, or its numbers. -/
def Error.isFormal : Error → Bool
  | .actionDenied _ => true
  | .table _ _ => true
  | .subquery _ _ => true
  | .definition _ => true
  | .builder _ => true
  | _ => false

/-- The same without the failures for a table. -/
def Error.isStructural : Error → Bool
  | .actionDenied _ => true
  | .subquery _ _ => true
  | .definition _ => true
  | .builder _ => true
  | _ => false

/-- Structural failures are failures for the form. -/
theorem Error.isFormal_of_isStructural {e : Error} (h : e.isStructural = true) :
    e.isFormal = true := by
  cases e with
  | actionDenied name => rfl
  | subquery family detail => rfl
  | definition detail => rfl
  | builder detail => rfl
  | _ => cases h

/-- Failures of the builder are structural. -/
theorem Error.isStructural_of_isBuilder {e : Error} (h : e.isBuilder = true) :
    e.isStructural = true := by
  cases e with
  | builder detail => rfl
  | _ => cases h

theorem Error.refusesSql_of_isFormal {e : Error} (h : e.isFormal = true) :
    e.refusesSql = false := by
  cases e with
  | violation cause => cases h
  | dangerousSql category rule => cases h
  | rawMarker detail => cases h
  | _ => rfl

namespace Application

/-- The values that the arguments of an action's call are resolved from. -/
def handed (a : Application) : List Json :=
  match a.route with
  | .fromRaw | .selectRaw | .joinRaw | .whereRaw | .havingRaw | .orderByRaw | .select | .groupBy
  | .orderBy | .limit | .offset | .forPage | .lock => a.args
  | .join => a.args.drop 1
  | .joinSub => a.joinedAs.2
  | .whereClause | .having => if a.group?.isSome then [] else a.args
  | .fromTable | .fromSub | .subSelect | .whereExists | .clearOrders | .union | .withQuery => []

/-- The operands of the conditions that an action hands on. -/
def operands (a : Application) (scope : Scope) : List Json :=
  if a.route.takesConditions then
    a.writtenConditions.flatMap fun c => c.args.map (Json.resolve scope.params)
  else []

/-- The values in which an action resolves raw markers. -/
def fragments (a : Application) (scope : Scope) : List Json :=
  a.handed ++ a.operands scope

/-- All markers that show in some values can be resolved. -/
def Resolves (scope : Scope) (vs : List Json) : Prop :=
  ∀ v ∈ vs, ∀ payload, Json.Shows payload v →
    ∃ raw, Argument.ofPayload scope.guard.checkSql payload = .ok raw

/-- All SQL that the action hands on has passed. -/
structure Judges (a : Application) (scope : Scope) : Prop where
  text : a.route.isRaw = true → scope.checkSql a.args = .ok ()
  handed : Resolves scope a.handed
  operands : Resolves scope (a.operands scope)

/-- The action is refused for SQL that it would hand on. -/
inductive Refuses (a : Application) (scope : Scope) (e : Error) : Prop where
  | text (hroute : a.route.isRaw = true) (h : scope.checkSql a.args = .error e)
  | marker {v payload : Json} (hv : v ∈ a.fragments scope) (hshows : Json.Shows payload v)
      (h : Argument.ofPayload scope.guard.checkSql payload = .error e)

/-- How an action fails of its own account, and not through its nested query. -/
inductive Fails (a : Application) (scope : Scope) (e : Error) : Prop where
  /-- For its form. -/
  | form (h : e.isStructural = true)
  /-- For its table. -/
  | table (htakes : a.route.takesTable = true) (h : scope.table a.args = .error e)
  /-- For its SQL. -/
  | sql (h : a.Refuses scope e)

end Application

/-! ## Refusals on the way are no violations -/

/-- Raw SQL fails its check only with a refusal. -/
theorem Guard.isRefusal_of_checkSql {guard : Guard} {sql : String} {e : Error}
    (h : guard.checkSql sql = .error e) : e.isRefusal = true := by
  rw [checkSql, Catalog.check] at h
  split at h
  · cases h
  · cases h
    rfl

/-- A payload fails only where its SQL is refused. -/
theorem Argument.isRefusal_of_ofPayload {check : String → Except Error Unit} {payload : Json}
    {e : Error} (hcheck : ∀ sql, check sql = .error e → e.isRefusal = true)
    (h : ofPayload check payload = .error e) : e.isRefusal = true := by
  rcases Checks.bind_eq_error.mp h with h | ⟨sql, -, h⟩
  · unfold payloadSql at h
    split at h
    · cases h
    · split at h
      · cases h
      · cases h
        rfl
    · cases h
      rfl
  rcases Checks.bind_eq_error.mp h with h | ⟨bindings, -, h⟩
  · unfold payloadBindings at h
    split at h
    · cases h
    · cases h
    · cases h
    · cases h
      rfl
  rcases Checks.bind_eq_error.mp h with h | ⟨_, -, h⟩
  · exact hcheck sql h
  · cases h

/-- An action that is refused for SQL has not judged all of it. -/
theorem Application.Refuses.not_judges {a : Application} {scope : Scope} {e : Error}
    (h : a.Refuses scope e) : ¬ a.Judges scope := by
  intro hjudges
  cases h with
  | text hroute h =>
    rw [hjudges.text hroute] at h
    cases h
  | @marker v payload hv hshows h =>
    have hresolves : ∃ raw, Argument.ofPayload scope.guard.checkSql payload = .ok raw := by
      rcases List.mem_append.mp hv with hv | hv
      · exact hjudges.handed _ hv _ hshows
      · exact hjudges.operands _ hv _ hshows
    obtain ⟨raw, hraw⟩ := hresolves
    rw [hraw] at h
    cases h

/-- What an action refuses its SQL with is a refusal. -/
theorem Application.Refuses.isRefusal {a : Application} {scope : Scope} {e : Error}
    (h : a.Refuses scope e) : e.isRefusal = true := by
  cases h with
  | text hroute h =>
    unfold Scope.checkSql at h
    split at h
    · exact Guard.isRefusal_of_checkSql h
    · cases h
  | marker hv hshows h =>
    exact Argument.isRefusal_of_ofPayload (fun _ => Guard.isRefusal_of_checkSql) h

/-- An action is refused with the failure itself, not with a violation that wraps it. -/
theorem Application.Refuses.ne_violation {a : Application} {scope : Scope} {e : Error}
    (h : a.Refuses scope e) (cause : Error) : e ≠ .violation cause := by
  rintro rfl
  cases h.isRefusal

/-! ## Failures for the form of an action -/

theorem TableReference.isFormal_of_parse {s : String} {e : Error}
    (h : TableReference.parse s = .error e) : e.isFormal = true := by
  unfold TableReference.parse at h
  dsimp only at h
  generalize dottedName (Text.trimChars s.toList) = name at h
  split at h
  next =>
    cases h
    rfl
  next =>
    generalize alias? _ = found at h
    generalize List.drop _ _ = rest at h
    cases found with
    | none =>
      dsimp only at h
      split at h
      · cases h
      · cases h
        rfl
    | some found =>
      dsimp only at h
      split at h
      · cases h
      · cases h
        rfl

theorem Guard.isFormal_of_checkTable {guard : Guard} {ctes : CteNames} {reference : String}
    {e : Error} (h : guard.checkTable ctes reference = .error e) : e.isFormal = true := by
  rw [checkTable] at h
  rcases Checks.bind_eq_error.mp h with h | ⟨t, -, h⟩
  · exact TableReference.isFormal_of_parse h
  · split at h
    · cases h
    · split at h
      · cases h
      · split at h
        · cases h
          rfl
        · cases h

theorem WrittenCondition.isStructural_of_ofJson {v : Json} {e : Error}
    (h : WrittenCondition.ofJson v = .error e) : e.isStructural = true := by
  have hentries : ∀ {es : Entries}, ofEntries es = .error e → e.isStructural = true := by
    intro es h
    rw [ofEntries] at h
    split at h
    · cases h
    · split at h
      · cases h
      · cases h
        rfl
  unfold ofJson at h
  split at h
  · split at h
    · cases h
    · obtain ⟨x, -, hx⟩ := Checks.exists_of_mapM_eq_error h
      unfold ofItem at hx
      split at hx
      · cases hx
      · exact hentries hx
      · cases hx
        rfl
  · rcases Checks.bind_eq_error.mp h with h | ⟨c, -, h⟩
    · exact hentries h
    · cases h
  · cases h
    rfl

theorem Scope.isFormal_of_table {scope : Scope} {args : List Json} {e : Error}
    (h : scope.table args = .error e) : e.isFormal = true := by
  unfold Scope.table at h
  split at h
  · exact Guard.isFormal_of_checkTable h
  · cases h
    rfl
  · cases h
    rfl

namespace Application

variable {a : Application} {scope : Scope}

theorem isStructural_of_requireQuery {family : SubqueryFamily} {e : Error}
    (h : a.requireQuery family = .error e) : e.isStructural = true := by
  rw [requireQuery] at h
  split at h
  · cases h
  · cases h
    rfl

theorem isStructural_of_requireNamed {family : SubqueryFamily} {what : String} {e : Error}
    (h : a.requireNamed family what = .error e) : e.isStructural = true := by
  rw [requireNamed] at h
  split at h
  · cases h
  · cases h
    rfl

/-- Conditions that are refused cannot be read, or are refused one by one. -/
theorem mapM_writtenConditions_of_error {e : Error} (h : a.conditions scope = .error e) :
    e.isStructural = true ∨ a.writtenConditions.mapM scope.condition = .error e := by
  rw [conditions] at h
  rw [writtenConditions]
  split at h
  next => cases h
  next written hwritten =>
    rw [hwritten]
    dsimp only
    rcases Checks.bind_eq_error.mp h with h | ⟨cs, hcs, h⟩
    · exact .inl (WrittenCondition.isStructural_of_ofJson h)
    · rw [hcs]
      exact .inr h

/-! ## Applying an action -/

variable {Q : Error → Prop}

section

variable (hfails : ∀ e, a.Fails scope e → Q e)
include hfails

/-- Resolving arguments judges the markers in them. -/
theorem arguments_ends {args : List Json}
    (hargs : ∀ v ∈ args, ∀ payload, Json.Shows payload v → v ∈ a.fragments scope) :
    (Build.lift (scope.arguments args)).Ends (fun _ => Resolves scope args) Q := by
  refine Build.ends_lift (fun out hout v hv payload hshows => ?_) fun e he => ?_
  · exact Argument.exists_ofPayload_of_resolveAll hout hv hshows
  · obtain ⟨v, hv, payload, hshows, hpayload⟩ := Argument.exists_shows_of_resolveAll he
    exact hfails e (.sql (.marker (hargs v hv payload hshows) hshows hpayload))

/-- Judging the first argument judges it if it is SQL. -/
theorem checkSql_ends (hraw : a.route.isRaw = true) :
    (Build.lift (scope.checkSql a.args)).Ends (fun _ => scope.checkSql a.args = .ok ()) Q :=
  Build.ends_lift (fun _ hok => hok) fun e he => hfails e (.sql (.text hraw he))

/-- Resolving conditions judges the markers in their operands. -/
theorem conditions_ends (htakes : a.route.takesConditions = true) :
    (Build.lift (a.conditions scope)).Ends (fun _ => Resolves scope (a.operands scope)) Q := by
  have hoperand : ∀ c ∈ a.writtenConditions, ∀ v ∈ c.args.map (Json.resolve scope.params),
      v ∈ a.operands scope := by
    intro c hc v hv
    rw [operands, if_pos htakes]
    exact List.mem_flatMap.mpr ⟨c, hc, hv⟩
  refine Build.ends_lift (fun on hon v hv payload hshows => ?_) fun e he => ?_
  · rw [operands, if_pos htakes] at hv
    obtain ⟨c, hc, hv⟩ := List.mem_flatMap.mp hv
    obtain ⟨c', hc'⟩ := Checks.exists_ok_of_mapM (mapM_writtenConditions hon) hc
    obtain ⟨args, hargs, -⟩ := Checks.bind_eq_ok.mp hc'
    exact Argument.exists_ofPayload_of_resolveAll hargs hv hshows
  · rcases mapM_writtenConditions_of_error he with hformal | hconditions
    · exact hfails e (.form hformal)
    · obtain ⟨c, hc, hcondition⟩ := Checks.exists_of_mapM_eq_error hconditions
      rcases Checks.bind_eq_error.mp hcondition with hargs | ⟨_, -, hpure⟩
      · obtain ⟨v, hv, payload, hshows, hpayload⟩ := Argument.exists_shows_of_resolveAll hargs
        exact hfails e
          (.sql (.marker (List.mem_append_right _ (hoperand c hc v hv)) hshows hpayload))
      · cases hpure

end

theorem resolves_nil : Resolves scope [] := by
  intro v hv
  cases hv

/-- An action that takes no conditions has no operands of its own. -/
theorem operands_eq_nil (h : a.route.takesConditions = false) : a.operands scope = [] := by
  rw [operands, h]
  rfl

/-- An action without conditions judges its text and its arguments. -/
theorem judges_of_resolves (htakes : a.route.takesConditions = false)
    (htext : a.route.isRaw = true → scope.checkSql a.args = .ok ())
    (hhanded : Resolves scope a.handed) : a.Judges scope where
  text := htext
  handed := hhanded
  operands := by
    rw [operands_eq_nil htakes]
    exact resolves_nil

/-- An action that neither joins nor leads with SQL text judges its arguments. -/
theorem judges_of_plain (htakes : a.route.takesConditions = false)
    (hraw : a.route.isRaw = false) (hhanded : Resolves scope a.handed) : a.Judges scope := by
  refine judges_of_resolves htakes (fun h => ?_) hhanded
  rw [hraw] at h
  cases h

/-- An action that hands on no arguments has none to judge. -/
theorem judges_of_handed_eq_nil (htakes : a.route.takesConditions = false)
    (hraw : a.route.isRaw = false) (hhanded : a.handed = []) : a.Judges scope := by
  refine judges_of_plain htakes hraw ?_
  rw [hhanded]
  exact resolves_nil

section

variable (hfails : ∀ e, a.Fails scope e → Q e)
  (hsub : ∀ sub, a.sub? = some sub → sub.Ends (fun _ => True) Q)
include hfails

/-- Resolving the arguments that an action hands on judges them. -/
theorem handed_ends (h : a.handed = a.args) :
    (Build.lift (scope.arguments a.args)).Ends (fun _ => Resolves scope a.handed) Q := by
  rw [h]
  refine arguments_ends hfails fun v hv _ _ => List.mem_append_left _ ?_
  rw [h]
  exact hv

theorem plain_ends (hraw : a.route.isRaw = false) (htakes : a.route.takesConditions = false)
    (h : a.handed = a.args) :
    (do let args ← Build.lift (scope.arguments a.args); Build.call a.method args).Ends
      (fun _ => a.Judges scope) Q := by
  refine (handed_ends hfails h).bind fun args hhanded => Build.ends_record _ _ ?_
  exact judges_of_plain htakes hraw hhanded

theorem sql_ends (hraw : a.route.isRaw = true) (htakes : a.route.takesConditions = false)
    (h : a.handed = a.args) :
    (do let args ← Build.lift (scope.sqlArguments a.args); Build.call a.method args).Ends
      (fun _ => a.Judges scope) Q := by
  have hargs : (Build.lift (scope.sqlArguments a.args)).Ends (fun _ => a.Judges scope) Q := by
    rw [Scope.sqlArguments]
    cases htext : scope.checkSql a.args with
    | error e => exact Build.ends_throw (hfails e (.sql (.text hraw htext)))
    | ok _ =>
      refine (handed_ends hfails h).mono (fun args hhanded => ?_) fun _ he => he
      exact judges_of_resolves htakes (fun _ => htext) hhanded
  exact hargs.bind fun args hjudges => Build.ends_record _ _ hjudges

theorem limit_ends (hraw : a.route.isRaw = false) (htakes : a.route.takesConditions = false)
    (h : a.handed = a.args) :
    (do let args ← Build.lift (scope.arguments a.args); Build.limit a.method args).Ends
      (fun _ => a.Judges scope) Q := by
  refine (handed_ends hfails h).bind fun args hhanded => ?_
  have hjudges : a.Judges scope := judges_of_plain htakes hraw hhanded
  have hchange : (Build.lift (limitChange a.method args)).Ends (fun _ => True) Q :=
    Build.ends_lift (fun _ _ => trivial) fun e he =>
      hfails e (.form (Error.isStructural_of_isBuilder (isBuilder_of_limitChange he)))
  refine hchange.bind fun change _ => ?_
  exact (Build.ends_modify change).bind fun _ _ => Build.ends_record _ _ hjudges

theorem applyJoin_ends (hroute : a.route = .join ∨ a.route = .joinRaw) :
    (a.applyJoin scope).Ends (fun _ => a.Judges scope) Q := by
  have htakes : a.route.takesConditions = true := by
    rcases hroute with h | h <;> rw [h] <;> rfl
  -- what is left once the first argument is judged; only the other arguments show markers
  have hrest : ∀ args, (∀ v ∈ args, ∀ payload, Json.Shows payload v → v ∈ a.handed) →
      (∀ v ∈ a.handed, v ∈ args) → (a.route.isRaw = true → scope.checkSql a.args = .ok ()) →
      (do
        let conditions ← Build.lift (a.conditions scope)
        let args ← Build.lift (scope.arguments args)
        Build.join a.method args conditions).Ends (fun _ => a.Judges scope) Q := by
    intro args hargs hhanded htext
    refine (conditions_ends hfails htakes).bind fun on hon => ?_
    refine (arguments_ends hfails fun v hv payload hshows =>
      List.mem_append_left _ (hargs v hv payload hshows)).bind fun out hout => ?_
    rw [Build.join_eq]
    exact Build.ends_record _ _ ⟨htext, fun v hv => hout v (hhanded v hv), hon⟩
  rw [applyJoin]
  rcases hroute with hroute | hroute
  · have hhanded : a.handed = a.args.drop 1 := by rw [handed, hroute]
    rw [if_pos hroute]
    refine (Build.ends_lift (P := fun _ => True) (fun _ _ => trivial)
      fun e he => hfails e (.table (by rw [hroute]; rfl) he)).bind fun reference _ => ?_
    rw [pure_bind]
    refine hrest _ ?_ ?_ ?_
    · intro v hv payload hshows
      rcases List.mem_cons.mp hv with rfl | hv
      · cases hshows
      · rw [hhanded]
        exact hv
    · intro v hv
      rw [hhanded] at hv
      exact List.mem_cons_of_mem _ hv
    · intro hraw
      rw [hroute] at hraw
      cases hraw
  · have hhanded : a.handed = a.args := by rw [handed, hroute]
    rw [if_neg (by rw [hroute]; decide)]
    refine (checkSql_ends hfails (by rw [hroute]; rfl)).bind fun _ htext => ?_
    rw [pure_bind]
    refine hrest _ ?_ ?_ fun _ => htext
    · intro v hv _ _
      rw [hhanded]
      exact hv
    · intro v hv
      rw [hhanded] at hv
      exact hv

include hsub

theorem applyJoinQuery_ends (hroute : a.route = .joinSub) :
    (a.applyJoinQuery scope).Ends (fun _ => a.Judges scope) Q := by
  rw [applyJoinQuery]
  split
  next name? extra hjoined =>
    split
    next name query hquery =>
      have hhanded : a.handed = extra := by rw [handed, hroute, hjoined]
      refine (conditions_ends hfails (by rw [hroute]; rfl)).bind fun on hon => ?_
      have hextra : (Build.lift (scope.arguments extra)).Ends
          (fun _ => Resolves scope a.handed) Q := by
        rw [hhanded]
        refine arguments_ends hfails fun v hv _ _ => List.mem_append_left _ ?_
        rw [hhanded]
        exact hv
      refine hextra.bind fun args hargs => ?_
      rw [Build.joinQuery_eq]
      refine (hsub query (query?_eq_sub? (by rw [hroute]; rfl) hquery)).nested.bind fun _ _ => ?_
      refine Build.ends_record _ _ ⟨fun hraw => ?_, hargs, hon⟩
      rw [hroute] at hraw
      cases hraw
    next => exact Build.ends_throw (hfails _ (.form rfl))

theorem applyFilter_ends (hroute : a.route = .whereClause ∨ a.route = .having) :
    (a.applyFilter scope).Ends (fun _ => a.Judges scope) Q := by
  have haccepts : a.route.acceptsClauses = true := by
    rcases hroute with h | h <;> rw [h] <;> rfl
  have htakes : a.route.takesConditions = false := by
    rcases hroute with h | h <;> rw [h] <;> rfl
  have hraw : a.route.isRaw = false := by
    rcases hroute with h | h <;> rw [h] <;> rfl
  have hhanded : a.handed = if a.group?.isSome = true then [] else a.args := by
    rcases hroute with h | h <;> rw [handed, h]
  rw [applyFilter]
  cases hgroup : a.group? with
  | some group =>
    rw [hgroup] at hhanded
    refine (hsub group (sub?_of_group haccepts hgroup)).nested.bind fun _ _ => ?_
    exact Build.ends_record _ _ (judges_of_handed_eq_nil htakes hraw hhanded)
  | none =>
    rw [hgroup] at hhanded
    refine (handed_ends hfails hhanded).bind fun args hargs => ?_
    have hjudges : a.Judges scope := judges_of_plain htakes hraw hargs
    split
    next query hwhere hquery =>
      have hopens := sub?_of_no_group haccepts hgroup
      rw [if_pos hwhere, hquery] at hopens
      exact (hsub query hopens).nested.bind fun _ _ => Build.ends_record _ _ hjudges
    next => exact Build.ends_record _ _ hjudges

end

section

variable (hfails : ∀ e, a.Fails scope e → Q e)
  (hsub : ∀ sub, a.sub? = some sub → sub.Ends (fun _ => True) Q)

include hsub in
/-- An action that is built from a nested query alone fails as the query does. -/
theorem query_ends (hneeds : a.route.needsSubquery = true) (hjudges : a.Judges scope)
    {query : Build Unit} (hquery : a.query? = some query) {operands : List Call → List Operand} :
    (Build.nested query >>= fun calls => Build.record a.method (operands calls)).Ends
      (fun _ => a.Judges scope) Q :=
  (hsub query (query?_eq_sub? hneeds hquery)).nested.bind fun _ _ =>
    Build.ends_record _ _ hjudges

include hfails in
theorem named_ends {R : Unit → Prop} {family : SubqueryFamily} {what : String}
    {f : String × Build Unit → Build Unit}
    (hf : ∀ named, a.query? = some named.2 → (f named).Ends R Q) :
    (Build.lift (a.requireNamed family what) >>= f).Ends R Q :=
  (Build.ends_lift (fun _ hnamed => (requireNamed_eq_ok hnamed).2)
    fun e he => hfails e (.form (isStructural_of_requireNamed he))).bind hf

include hfails in
theorem required_ends {R : Unit → Prop} {family : SubqueryFamily} {f : Build Unit → Build Unit}
    (hf : ∀ query, a.query? = some query → (f query).Ends R Q) :
    (Build.lift (a.requireQuery family) >>= f).Ends R Q :=
  (Build.ends_lift (fun _ hquery => requireQuery_eq_ok hquery)
    fun e he => hfails e (.form (isStructural_of_requireQuery he))).bind hf

end

/-- **An action that is applied has judged all SQL that it hands on**, and one that is refused for
SQL is refused for its own, or for that of the nested query that it builds. -/
theorem apply_ends (hfails : ∀ e, a.Fails scope e → Q e)
    (hsub : ∀ sub, a.sub? = some sub → sub.Ends (fun _ => True) Q) :
    (a.apply scope).Ends (fun _ => a.Judges scope) Q := by
  -- routes that hand on neither text nor arguments nor conditions have nothing to judge
  have hnothing : a.route.takesConditions = false → a.route.isRaw = false → a.handed = [] →
      a.Judges scope := judges_of_handed_eq_nil
  unfold apply
  split
  next h =>
    refine (Build.ends_lift (P := fun _ => True) (fun _ _ => trivial)
      fun e he => hfails e (.table (by rw [h]; rfl) he)).bind fun reference _ => ?_
    exact Build.ends_record _ _ (hnothing (by rw [h]; rfl) (by rw [h]; rfl) (by rw [handed, h]))
  next h => exact sql_ends hfails (by rw [h]; rfl) (by rw [h]; rfl) (by rw [handed, h])
  next h => exact sql_ends hfails (by rw [h]; rfl) (by rw [h]; rfl) (by rw [handed, h])
  next h => exact sql_ends hfails (by rw [h]; rfl) (by rw [h]; rfl) (by rw [handed, h])
  next h => exact sql_ends hfails (by rw [h]; rfl) (by rw [h]; rfl) (by rw [handed, h])
  next h => exact sql_ends hfails (by rw [h]; rfl) (by rw [h]; rfl) (by rw [handed, h])
  next h =>
    exact named_ends hfails fun _ hquery => query_ends hsub (by rw [h]; rfl)
      (hnothing (by rw [h]; rfl) (by rw [h]; rfl) (by rw [handed, h])) hquery
  next h =>
    exact named_ends hfails fun _ hquery => query_ends hsub (by rw [h]; rfl)
      (hnothing (by rw [h]; rfl) (by rw [h]; rfl) (by rw [handed, h])) hquery
  next h => exact plain_ends hfails (by rw [h]; rfl) (by rw [h]; rfl) (by rw [handed, h])
  next h => exact plain_ends hfails (by rw [h]; rfl) (by rw [h]; rfl) (by rw [handed, h])
  next h => exact plain_ends hfails (by rw [h]; rfl) (by rw [h]; rfl) (by rw [handed, h])
  next h => exact plain_ends hfails (by rw [h]; rfl) (by rw [h]; rfl) (by rw [handed, h])
  next h => exact applyJoin_ends hfails (.inl h)
  next h => exact applyJoin_ends hfails (.inr h)
  next h => exact applyJoinQuery_ends hfails hsub h
  next h => exact applyFilter_ends hfails hsub (.inl h)
  next h => exact applyFilter_ends hfails hsub (.inr h)
  next h =>
    exact required_ends hfails fun _ hquery => query_ends hsub (by rw [h]; rfl)
      (hnothing (by rw [h]; rfl) (by rw [h]; rfl) (by rw [handed, h])) hquery
  next h =>
    exact Build.ends_record _ _ (hnothing (by rw [h]; rfl) (by rw [h]; rfl) (by rw [handed, h]))
  next h => exact limit_ends hfails (by rw [h]; rfl) (by rw [h]; rfl) (by rw [handed, h])
  next h => exact limit_ends hfails (by rw [h]; rfl) (by rw [h]; rfl) (by rw [handed, h])
  next h => exact limit_ends hfails (by rw [h]; rfl) (by rw [h]; rfl) (by rw [handed, h])
  next h =>
    exact required_ends hfails fun _ hquery => query_ends hsub (by rw [h]; rfl)
      (hnothing (by rw [h]; rfl) (by rw [h]; rfl) (by rw [handed, h])) hquery
  next h =>
    exact named_ends hfails fun _ hquery => query_ends hsub (by rw [h]; rfl)
      (hnothing (by rw [h]; rfl) (by rw [h]; rfl) (by rw [handed, h])) hquery

end Application

namespace Scope

variable {scope : Scope} {items d : Definition} {a : Application} {Q : Error → Prop}

/-! ## A whole query -/

/-- **A query fails as an action that was reached does**, unless such an action is denied. -/
theorem assemble_ends_of_fails (hdenied : ∀ name, Q (.actionDenied name))
    (hfails : ∀ d a e, scope.Assembles items d → scope.Applies d a → a.Fails scope e → Q e) :
    (scope.assemble items).Ends (fun _ => True) Q := by
  refine assemble_induction (fun _ => Build.ends_pure trivial)
    (fun _ _ hb hf => hb.bind fun x _ => hf x) ?_
  intro d item a hassembles hitem happ hadmits hopens
  rw [perform, if_pos hadmits]
  have hcheck : (Build.lift (scope.guard.checkAction a.method)).Ends (fun _ => True) Q := by
    refine Build.ends_lift (fun _ _ => trivial) fun e he => ?_
    rw [Guard.checkAction] at he
    split at he
    · cases he
    · cases he
      exact hdenied a.method
  have happly : (a.apply scope).Ends (fun _ => a.Judges scope) Q := by
    refine a.apply_ends (fun e => hfails d a e hassembles ⟨item, hitem, happ, hadmits⟩) ?_
    intro sub hsub
    rw [sub?_eq happ hadmits] at hsub
    obtain ⟨d', hd', rfl⟩ := Option.map_eq_some_iff.mp hsub
    exact (hopens d' hd').bind fun _ _ => Build.ends_pure trivial
  exact hcheck.bind fun _ _ => happly.bind fun _ _ => Build.ends_pure trivial

/-- A query is refused for the form of an action, or for the SQL of an action that was reached. -/
theorem assemble_ends_or (hother : ∀ e, e.isFormal = true → Q e)
    (hown : ∀ d a e, scope.Assembles items d → scope.Applies d a → a.Refuses scope e → Q e) :
    (scope.assemble items).Ends (fun _ => True) Q := by
  refine assemble_ends_of_fails (fun _ => hother _ rfl) fun d a e hassembles happlies hfails => ?_
  cases hfails with
  | form h => exact hother e (Error.isFormal_of_isStructural h)
  | table _ h => exact hother e (Scope.isFormal_of_table h)
  | sql h => exact hown d a e hassembles happlies h

/-- **A query that is refused for SQL is refused for that of an action that was reached.** -/
theorem assemble_ends (hother : ∀ e, e.refusesSql = false → Q e)
    (hown : ∀ d a e, scope.Assembles items d → scope.Applies d a → a.Refuses scope e → Q e) :
    (scope.assemble items).Ends (fun _ => True) Q :=
  assemble_ends_or (fun e he => hother e (Error.refusesSql_of_isFormal he)) hown

/-- A query that is built has judged the SQL of every action that was reached. -/
theorem judges_of_runs (hassembles : scope.Assembles items d) (happlies : scope.Applies d a)
    {capped : Bool} {added : List Call} (h : (scope.assemble items).Runs capped added) :
    a.Judges scope := by
  have hends : (a.apply scope).Ends (fun _ => a.Judges scope) fun _ => True :=
    a.apply_ends (fun _ _ => trivial)
      fun sub _ => ⟨fun _ => trivial, fun _ => trivial⟩
  obtain ⟨c, -, -, hjudges⟩ :=
    exists_call_of_applies hassembles happlies ((a.apply_makesOne scope).of_ends hends) h
  exact hjudges

end Scope

end QueryScript
