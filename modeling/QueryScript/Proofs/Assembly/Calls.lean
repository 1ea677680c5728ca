import QueryScript.Assembly.Application
import QueryScript.Proofs.Definition.Written
import QueryScript.Proofs.Recorder.Run

/-!
# The call that an action makes

Applying an action makes one call or none (`apply_makesOne`), and `Makes` says which: one
case for each shape of call, with what was judged before the call was made.  Everything
that is said of the calls of a query is read off these cases.

An action builds at most one nested query, the one in its slot (`slot?`); its calls are
an operand of the action's own call, and no other call has nested calls among its
operands (`Makes.nested`, `Makes.exists_nested`).
-/

namespace QueryScript

/-- Routes whose calls are given arguments and nothing else. -/
def Route.IsPlain (route : Route) : Prop :=
  route.takesTable = false ∧ route.needsSubquery = false ∧ route.acceptsClauses = false

instance (route : Route) : Decidable route.IsPlain :=
  inferInstanceAs (Decidable (_ ∧ _ ∧ _))

/-- Routes whose calls are given the conditions of a join. -/
def Route.takesConditions : Route → Bool
  | .join | .joinRaw | .joinSub => true
  | _ => false

namespace Application

/-- The conditions of a join as they are written, if they can be read. -/
def writtenConditions (a : Application) : List WrittenCondition :=
  match Entries.get? a.entries "on" <|> a.written.field? "on" with
  | some on =>
    match WrittenCondition.ofJson on with
    | .ok cs => cs
    | .error _ => []
  | none => []

/-- The slot with the group of clauses of a filter. -/
def groupSlot (a : Application) : Slot :=
  if (Entries.get? a.entries "clauses").isSome then .clauses else .valueClauses a.method

/-- The slot of the nested query that a filter compares with. -/
def operandSlot? (a : Application) : Option Slot :=
  match Entries.get? a.entries "query" with
  | some (.arr _) => some .query
  | _ => none

/-- The slot with the nested query that the action builds, if it builds one. -/
def slot? (a : Application) : Option Slot :=
  if a.route.needsSubquery then a.target.query.map (·.1)
  else if a.route.acceptsClauses then
    if (a.inSlot a.groupSlot).isSome then some a.groupSlot
    else if a.route = .whereClause then a.operandSlot? else none
  else none

/-- The nested query that the action builds, if it builds one. -/
def sub? (a : Application) : Option (Build Unit) :=
  a.slot?.bind a.inSlot

variable {a : Application} {scope : Scope}

/-- Conditions that are handed on are those that are written, one by one. -/
theorem mapM_writtenConditions {on : List JoinCondition} (h : a.conditions scope = .ok on) :
    a.writtenConditions.mapM scope.condition = .ok on := by
  rw [conditions] at h
  rw [writtenConditions]
  split at h
  next hnone =>
    cases h
    rw [hnone]
    rfl
  next written hwritten =>
    obtain ⟨cs, hcs, hon⟩ := Checks.bind_eq_ok.mp h
    rw [hwritten]
    dsimp only
    rw [hcs]
    exact hon

/-- The grouped clauses are the definition that stands in the slot for them. -/
theorem group?_eq : a.group? = a.inSlot a.groupSlot := by
  rw [group?, groupSlot]
  cases Entries.get? a.entries "clauses" <;> rfl

/-- The query that is an operand is the definition in its slot. -/
theorem operandQuery?_eq : a.operandQuery? = a.operandSlot?.bind a.inSlot := by
  rw [operandQuery?, operandSlot?]
  cases Entries.get? a.entries "query" with
  | none => rfl
  | some v => cases v <;> rfl

theorem sub?_of_needsSubquery (h : a.route.needsSubquery = true) : a.sub? = a.query? := by
  rw [sub?, slot?, if_pos h, query?]
  cases a.target.query <;> rfl

/-- A clause with grouped clauses is handed these. -/
theorem sub?_of_group (h : a.route.acceptsClauses = true) {group : Build Unit}
    (hgroup : a.group? = some group) : a.sub? = some group := by
  have hneeds := Route.not_needsSubquery_of_acceptsClauses h
  rw [group?_eq] at hgroup
  rw [sub?, slot?, if_neg hneeds, if_pos h, if_pos (by rw [hgroup]; rfl)]
  exact hgroup

/-- Without grouped clauses a plain condition is handed the query that is its operand, and every
other clause is handed none. -/
theorem sub?_of_no_group (h : a.route.acceptsClauses = true) (hgroup : a.group? = none) :
    a.sub? = if a.route = .whereClause then a.operandQuery? else none := by
  have hneeds := Route.not_needsSubquery_of_acceptsClauses h
  rw [group?_eq] at hgroup
  have hnone : ¬ (a.inSlot a.groupSlot).isSome = true := by
    rw [hgroup]
    exact Bool.false_ne_true
  rw [sub?, slot?, if_neg hneeds, if_pos h, if_neg hnone, operandQuery?_eq]
  by_cases hroute : a.route = .whereClause
  · rw [if_pos hroute, if_pos hroute]
  · rw [if_neg hroute, if_neg hroute]
    rfl

/-- An action that needs no query and takes no clauses is handed none. -/
theorem sub?_of_flat (hneeds : a.route.needsSubquery = false)
    (hclauses : a.route.acceptsClauses = false) : a.sub? = none := by
  rw [sub?, slot?, hneeds, hclauses]
  rfl

/-- The calls that an action can make, with what was judged before. -/
inductive Makes (a : Application) (scope : Scope) : Call → Prop where
  /-- Rows of a table. -/
  | table {reference : String} (hroute : a.route = .fromTable)
      (htable : scope.table a.args = .ok reference) :
      Makes a scope (.mk a.method [Build.textOperand reference])
  /-- A join of a table. -/
  | joinTable {reference : String} {args : List Argument} {on : List JoinCondition}
      (hroute : a.route = .join) (htable : scope.table a.args = .ok reference)
      (hon : a.conditions scope = .ok on)
      (hargs : scope.arguments (.str reference :: a.args.drop 1) = .ok args) :
      Makes a scope (.mk a.method (args.map .arg ++ Build.conditionOperands on))
  /-- A join of SQL text. -/
  | joinSql {args : List Argument} {on : List JoinCondition} (hroute : a.route = .joinRaw)
      (hsql : scope.checkSql a.args = .ok ()) (hon : a.conditions scope = .ok on)
      (hargs : scope.arguments a.args = .ok args) :
      Makes a scope (.mk a.method (args.map .arg ++ Build.conditionOperands on))
  /-- Arguments only. -/
  | plain {args : List Argument}
      (hroute : a.route.takesTable = false ∧ a.route.needsSubquery = false)
      (hsub : a.sub? = none) (hsql : a.route.isRaw = true → scope.checkSql a.args = .ok ())
      (hargs : scope.arguments a.args = .ok args) :
      Makes a scope (.mk a.method (args.map .arg))
  /-- Nothing at all. -/
  | bare (hroute : a.route = .clearOrders) : Makes a scope (.mk a.method [])
  /-- A nested query under an alias, to take rows from or to select. -/
  | named {name : String} {sub : Build Unit} {inner : Recorder}
      (hroute : a.route = .fromSub ∨ a.route = .subSelect) (hsub : a.sub? = some sub)
      (hrun : sub.runOn .fresh = (.ok (), inner)) :
      Makes a scope (.mk a.method [.nested inner.calls, Build.textOperand name])
  /-- A nested query to join under an alias. -/
  | joinQuery {name : String} {sub : Build Unit} {inner : Recorder} {args : List Argument}
      {on : List JoinCondition} (hroute : a.route = .joinSub) (hsub : a.sub? = some sub)
      (hrun : sub.runOn .fresh = (.ok (), inner)) (hon : a.conditions scope = .ok on)
      (hargs : scope.arguments a.joinedAs.2 = .ok args) :
      Makes a scope (.mk a.method
        (.nested inner.calls :: Build.textOperand name ::
          (args.map .arg ++ Build.conditionOperands on)))
  /-- A group of clauses, a nested query to test for rows, or one to unite with. -/
  | group {sub : Build Unit} {inner : Recorder}
      (hroute : a.route.takesTable = false ∧ a.route.isRaw = false ∧ a.route ≠ .withQuery)
      (hsub : a.sub? = some sub) (hrun : sub.runOn .fresh = (.ok (), inner)) :
      Makes a scope (.mk a.method [.nested inner.calls])
  /-- A comparison with a nested query. -/
  | whereQuery {args : List Argument} {sub : Build Unit} {inner : Recorder}
      (hroute : a.route = .whereClause) (hargs : scope.arguments a.args = .ok args)
      (hsub : a.sub? = some sub) (hrun : sub.runOn .fresh = (.ok (), inner)) :
      Makes a scope (.mk a.method (args.map .arg ++ [.nested inner.calls]))
  /-- A name for a nested query. -/
  | declare {name : String} {sub : Build Unit} {inner : Recorder}
      (hroute : a.route = .withQuery) (hname : a.target.name = some name)
      (hsub : a.sub? = some sub) (hrun : sub.runOn .fresh = (.ok (), inner)) :
      Makes a scope (.mk a.method [Build.textOperand name, .nested inner.calls])

/-- An action calls the method that it is named after. -/
theorem Makes.method_eq {c : Call} (h : a.Makes scope c) : c.method = a.method := by
  cases h <;> rfl

/-- An action that names a nested query hands on the name that its step gives. -/
theorem Makes.declares {c : Call} (h : a.Makes scope c) (hwith : a.route = .withQuery) :
    ∃ name inner, a.target.name = some name ∧
      c = .mk a.method [Build.textOperand name, .nested inner] := by
  cases h with
  | table hroute _ | joinTable hroute _ _ _ | joinSql hroute _ _ _ | bare hroute
  | joinQuery hroute _ _ _ _ | whereQuery hroute _ _ _ =>
    rw [hwith] at hroute
    cases hroute
  | plain hroute _ _ _ =>
    rw [hwith] at hroute
    cases hroute.2
  | named hroute _ _ =>
    rw [hwith] at hroute
    rcases hroute with hroute | hroute
    · cases hroute
    · cases hroute
  | group hroute _ _ => exact absurd hwith hroute.2.2
  | declare _ hname _ _ => exact ⟨_, _, hname, rfl⟩

/-- The calls of the nested query that an action builds are an operand of its call. -/
theorem Makes.exists_nested {c : Call} (h : a.Makes scope c) {sub : Build Unit}
    (hsub : a.sub? = some sub) :
    ∃ inner, sub.runOn .fresh = (.ok (), inner) ∧ .nested inner.calls ∈ c.operands := by
  -- the routes that only take tables, texts or arguments have no nested query
  have hflat : a.route.needsSubquery = false → a.route.acceptsClauses = false → False := by
    intro hneeds hclauses
    rw [sub?_of_flat hneeds hclauses] at hsub
    cases hsub
  cases h with
  | table hroute _ => exact (hflat (by rw [hroute]; rfl) (by rw [hroute]; rfl)).elim
  | joinTable hroute _ _ _ => exact (hflat (by rw [hroute]; rfl) (by rw [hroute]; rfl)).elim
  | joinSql hroute _ _ _ => exact (hflat (by rw [hroute]; rfl) (by rw [hroute]; rfl)).elim
  | plain _ hnone _ _ =>
    rw [hnone] at hsub
    cases hsub
  | bare hroute => exact (hflat (by rw [hroute]; rfl) (by rw [hroute]; rfl)).elim
  | named _ hsub' hrun =>
    rw [hsub] at hsub'
    cases hsub'
    exact ⟨_, hrun, List.mem_cons_self ..⟩
  | joinQuery _ hsub' hrun _ _ =>
    rw [hsub] at hsub'
    cases hsub'
    exact ⟨_, hrun, List.mem_cons_self ..⟩
  | group _ hsub' hrun =>
    rw [hsub] at hsub'
    cases hsub'
    exact ⟨_, hrun, List.mem_cons_self ..⟩
  | whereQuery _ _ hsub' hrun =>
    rw [hsub] at hsub'
    cases hsub'
    exact ⟨_, hrun, List.mem_append_right _ (List.mem_cons_self ..)⟩
  | declare _ _ hsub' hrun =>
    rw [hsub] at hsub'
    cases hsub'
    exact ⟨_, hrun, List.mem_cons_of_mem _ (List.mem_cons_self ..)⟩

/-- Plain arguments hold no nested calls. -/
theorem not_nested_mem_args {inner : List Call} {args : List Argument} :
    Operand.nested inner ∉ args.map .arg := by
  intro h
  obtain ⟨_, -, heq⟩ := List.mem_map.mp h
  cases heq

theorem not_nested_mem_conditions {inner : List Call} {on : List JoinCondition} :
    Operand.nested inner ∉ Build.conditionOperands on := by
  intro h
  rw [Build.conditionOperands] at h
  split at h
  · cases h
  · cases List.mem_singleton.mp h

/-- Nested calls among the operands of an action's call are those of its nested query. -/
theorem Makes.nested {c : Call} (h : a.Makes scope c) {inner : List Call}
    (hinner : .nested inner ∈ c.operands) :
    ∃ sub r, a.sub? = some sub ∧ sub.runOn .fresh = (.ok (), r) ∧ inner = r.calls := by
  cases h with
  | table _ _ => cases List.mem_singleton.mp hinner
  | joinTable _ _ _ _ | joinSql _ _ _ _ =>
    rcases List.mem_append.mp hinner with h | h
    · exact absurd h not_nested_mem_args
    · exact absurd h not_nested_mem_conditions
  | plain _ _ _ _ => exact absurd hinner not_nested_mem_args
  | bare _ => cases hinner
  | named _ hsub hrun =>
    rcases List.mem_cons.mp hinner with h | h
    · cases h
      exact ⟨_, _, hsub, hrun, rfl⟩
    · cases List.mem_singleton.mp h
  | joinQuery _ hsub hrun _ _ =>
    rcases List.mem_cons.mp hinner with h | h
    · cases h
      exact ⟨_, _, hsub, hrun, rfl⟩
    · rcases List.mem_cons.mp h with h | h
      · cases h
      · rcases List.mem_append.mp h with h | h
        · exact absurd h not_nested_mem_args
        · exact absurd h not_nested_mem_conditions
  | group _ hsub hrun =>
    cases List.mem_singleton.mp hinner
    exact ⟨_, _, hsub, hrun, rfl⟩
  | whereQuery _ _ hsub hrun =>
    rcases List.mem_append.mp hinner with h | h
    · exact absurd h not_nested_mem_args
    · cases List.mem_singleton.mp h
      exact ⟨_, _, hsub, hrun, rfl⟩
  | declare _ _ hsub hrun =>
    rcases List.mem_cons.mp hinner with h | h
    · cases h
    · cases List.mem_singleton.mp h
      exact ⟨_, _, hsub, hrun, rfl⟩

/-! ## Applying an action -/

/-- An action that needs a query is handed the one that is written for it. -/
theorem query?_eq_sub? (h : a.route.needsSubquery = true) {query : Build Unit}
    (hquery : a.query? = some query) : a.sub? = some query := by
  rw [sub?_of_needsSubquery h, hquery]

/-- A query that is required is there if the check for it succeeds. -/
theorem requireQuery_eq_ok {family : SubqueryFamily} {query : Build Unit}
    (h : a.requireQuery family = .ok query) : a.query? = some query := by
  rw [requireQuery] at h
  split at h
  next query' hquery =>
    cases h
    exact hquery
  next => cases h

/-- Likewise for a query with a name. -/
theorem requireNamed_eq_ok {family : SubqueryFamily} {what name : String} {query : Build Unit}
    (h : a.requireNamed family what = .ok (name, query)) :
    a.target.name = some name ∧ a.query? = some query := by
  rw [requireNamed] at h
  split at h
  next name' query' hname hquery =>
    cases h
    exact ⟨hname, hquery⟩
  next => cases h

open Build (MakesOne)

theorem applyJoin_makesOne (hroute : a.route = .join ∨ a.route = .joinRaw) :
    (a.applyJoin scope).MakesOne (a.Makes scope) := by
  rw [applyJoin]
  rcases hroute with hroute | hroute
  · rw [if_pos hroute]
    refine .lift_bind fun reference htable => ?_
    rw [pure_bind]
    refine .lift_bind fun on hon => .lift_bind fun args hargs => ?_
    rw [Build.join_eq]
    exact Build.makesOne_record (.joinTable hroute htable hon hargs)
  · rw [if_neg (by rw [hroute]; decide)]
    refine .lift_bind fun _ hsql => ?_
    rw [pure_bind]
    refine .lift_bind fun on hon => .lift_bind fun args hargs => ?_
    rw [Build.join_eq]
    exact Build.makesOne_record (.joinSql hroute hsql hon hargs)

theorem applyJoinQuery_makesOne (hroute : a.route = .joinSub) :
    (a.applyJoinQuery scope).MakesOne (a.Makes scope) := by
  rw [applyJoinQuery]
  split
  next name? extra hjoined =>
    split
    next name query hname hquery =>
      refine .lift_bind fun on hon => .lift_bind fun args hargs => ?_
      rw [Build.joinQuery_eq]
      refine .nested_bind fun inner hrun => Build.makesOne_record ?_
      have hsub := query?_eq_sub? (by rw [hroute]; rfl) hquery
      refine .joinQuery hroute hsub hrun hon ?_
      rw [hjoined]
      exact hargs
    next => exact Build.makesOne_throw _

theorem applyFilter_makesOne (hroute : a.route = .whereClause ∨ a.route = .having) :
    (a.applyFilter scope).MakesOne (a.Makes scope) := by
  have haccepts : a.route.acceptsClauses = true := by
    rcases hroute with h | h <;> rw [h] <;> rfl
  have hneeds : a.route.needsSubquery = false := by
    rcases hroute with h | h <;> rw [h] <;> rfl
  have hplain : a.route.takesTable = false ∧ a.route.isRaw = false ∧ a.route ≠ .withQuery := by
    rcases hroute with h | h <;> rw [h] <;> decide
  rw [applyFilter]
  cases hgroup : a.group? with
  | some group =>
    refine .nested_bind fun inner hrun => Build.makesOne_record ?_
    exact .group hplain (sub?_of_group haccepts hgroup) hrun
  | none =>
    -- without a group, only a filter of rows compares with a nested query
    have hsub := sub?_of_no_group haccepts hgroup
    refine .lift_bind fun args hargs => ?_
    split
    next query hwhere hquery =>
      rw [if_pos hwhere, hquery] at hsub
      refine .nested_bind fun inner hrun => Build.makesOne_record ?_
      exact .whereQuery hwhere hargs hsub hrun
    next hno =>
      refine Build.makesOne_record (.plain ⟨hplain.1, hneeds⟩ ?_ ?_ hargs)
      · rw [hsub]
        split
        next hwhere =>
          cases hquery : a.operandQuery? with
          | none => rfl
          | some query => exact (hno query hwhere hquery).elim
        next => rfl
      · intro hraw
        rw [hplain.2.1] at hraw
        cases hraw

theorem plain_makesOne (hplain : a.route.IsPlain) (hraw : a.route.isRaw = false) :
    (do let args ← Build.lift (scope.arguments a.args); Build.call a.method args).MakesOne
      (a.Makes scope) := by
  refine .lift_bind fun args hargs => Build.makesOne_record ?_
  obtain ⟨htable, hneeds, hclauses⟩ := hplain
  refine .plain ⟨htable, hneeds⟩ (sub?_of_flat hneeds hclauses) ?_ hargs
  rw [hraw]
  exact nofun

theorem sql_makesOne (hplain : a.route.IsPlain) :
    (do let args ← Build.lift (scope.sqlArguments a.args); Build.call a.method args).MakesOne
      (a.Makes scope) := by
  refine .lift_bind fun args hargs => Build.makesOne_record ?_
  obtain ⟨_, hsql, hargs⟩ := Checks.bind_eq_ok.mp hargs
  obtain ⟨htable, hneeds, hclauses⟩ := hplain
  exact .plain ⟨htable, hneeds⟩ (sub?_of_flat hneeds hclauses) (fun _ => hsql) hargs

theorem limit_makesOne (hplain : a.route.IsPlain) (hraw : a.route.isRaw = false) :
    (do let args ← Build.lift (scope.arguments a.args); Build.limit a.method args).MakesOne
      (a.Makes scope) := by
  refine .lift_bind fun args hargs => Build.makesOne_limit ?_
  obtain ⟨htable, hneeds, hclauses⟩ := hplain
  refine .plain ⟨htable, hneeds⟩ (sub?_of_flat hneeds hclauses) ?_ hargs
  rw [hraw]
  exact nofun

theorem named_makesOne (hroute : a.route = .fromSub ∨ a.route = .subSelect)
    {family : SubqueryFamily} {what : String} :
    (do
      let (name, query) ← Build.lift (a.requireNamed family what)
      Build.fromQuery a.method name query).MakesOne (a.Makes scope) := by
  have hneeds : a.route.needsSubquery = true := by
    rcases hroute with h | h <;> rw [h] <;> rfl
  refine .lift_bind fun (name, query) hnamed => ?_
  refine .nested_bind fun inner hrun => Build.makesOne_record ?_
  exact .named hroute (query?_eq_sub? hneeds (requireNamed_eq_ok hnamed).2) hrun

theorem group_makesOne (hneeds : a.route.needsSubquery = true)
    (hplain : a.route.takesTable = false ∧ a.route.isRaw = false ∧ a.route ≠ .withQuery)
    {family : SubqueryFamily} :
    (do let query ← Build.lift (a.requireQuery family); Build.group a.method query).MakesOne
      (a.Makes scope) := by
  refine .lift_bind fun query hquery => .nested_bind fun inner hrun => Build.makesOne_record ?_
  exact .group hplain (query?_eq_sub? hneeds (requireQuery_eq_ok hquery)) hrun

/-- **An action makes one call**, one of those that `Makes` lists, or none. -/
theorem apply_makesOne (a : Application) (scope : Scope) :
    (a.apply scope).MakesOne (a.Makes scope) := by
  unfold apply
  split
  next h =>
    refine .lift_bind fun reference htable => Build.makesOne_record ?_
    exact .table h htable
  next h => exact sql_makesOne (by rw [h]; decide)
  next h => exact sql_makesOne (by rw [h]; decide)
  next h => exact sql_makesOne (by rw [h]; decide)
  next h => exact sql_makesOne (by rw [h]; decide)
  next h => exact sql_makesOne (by rw [h]; decide)
  next h => exact named_makesOne (.inl h)
  next h => exact named_makesOne (.inr h)
  next h => exact plain_makesOne (by rw [h]; decide) (by rw [h]; rfl)
  next h => exact plain_makesOne (by rw [h]; decide) (by rw [h]; rfl)
  next h => exact plain_makesOne (by rw [h]; decide) (by rw [h]; rfl)
  next h => exact plain_makesOne (by rw [h]; decide) (by rw [h]; rfl)
  next h => exact applyJoin_makesOne (.inl h)
  next h => exact applyJoin_makesOne (.inr h)
  next h => exact applyJoinQuery_makesOne h
  next h => exact applyFilter_makesOne (.inl h)
  next h => exact applyFilter_makesOne (.inr h)
  next h => exact group_makesOne (by rw [h]; rfl) (by rw [h]; decide)
  next h => exact Build.makesOne_record (.bare h)
  next h => exact limit_makesOne (by rw [h]; decide) (by rw [h]; rfl)
  next h => exact limit_makesOne (by rw [h]; decide) (by rw [h]; rfl)
  next h => exact limit_makesOne (by rw [h]; decide) (by rw [h]; rfl)
  next h => exact group_makesOne (by rw [h]; rfl) (by rw [h]; decide)
  next h =>
    refine .lift_bind fun (name, query) hnamed => ?_
    obtain ⟨hname, hquery⟩ := requireNamed_eq_ok hnamed
    refine .nested_bind fun inner hrun => Build.makesOne_record ?_
    exact .declare h hname (query?_eq_sub? (by rw [h]; rfl) hquery) hrun

end Application

end QueryScript
