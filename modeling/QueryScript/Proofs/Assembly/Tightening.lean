import QueryScript.Proofs.Assembly.Entering
import QueryScript.Proofs.Guard.Tightening

/-!
# Assembling under a tightened guard

Applying an action asks the guard for its table, for leading SQL and for the SQL of every
raw marker, and reads everything else from the action alone.  So the action under a
tightened guard narrows what it is under the other, if its nested queries do
(`apply_narrows`); and as these are assembled in the same way, a whole definition does,
at whatever depth (`assemble_narrows`).
-/

namespace QueryScript

/-! ## Arguments -/

namespace Argument

section

variable {check check' : String → Except Error Unit}
  (h : ∀ text, Checks.Narrows (check text) (check' text))
include h

/-- A payload that passes a strict check passes a lax one, with the same result. -/
theorem ofPayload_narrows (payload : Json) :
    Checks.Narrows (ofPayload check payload) (ofPayload check' payload) :=
  Checks.Narrows.bind (.refl _) fun sql => Checks.Narrows.bind (.refl _) fun _ =>
    (h sql).bind fun _ => .refl _

/-- A stricter screen refuses no fewer values, and makes the same of those that pass. -/
theorem ofJson_narrows : ∀ v : Json, Checks.Narrows (ofJson check v) (ofJson check' v)
  | .null => .refl _
  | .bool _ => .refl _
  | .num _ => .refl _
  | .str _ => .refl _
  | .arr xs => by
    rw [ofJson, ofJson]
    split
    · rw [ofItems_eq_mapM, ofItems_eq_mapM]
      refine Checks.Narrows.map (.mapM fun x hx => ?_) _
      have hsize := List.sizeOf_lt_of_mem hx
      exact ofJson_narrows x
    · exact .refl _
  | .obj es => by
    rw [ofJson, ofJson]
    cases Entries.get? es Json.rawKey with
    | some payload => exact ofPayload_narrows h payload
    | none =>
      dsimp only
      split
      · rw [ofEntries_eq_mapM, ofEntries_eq_mapM]
        refine Checks.Narrows.map (.mapM fun entry hv => ?_) _
        obtain ⟨key, v⟩ := entry
        have hsize := Json.sizeOf_lt_of_mem_entries hv
        exact (ofJson_narrows v).map _
      · exact .refl _
termination_by v => sizeOf v

/-- So do arguments with markers in them. -/
theorem resolveAll_narrows (args : List Json) :
    Checks.Narrows (resolveAll check args) (resolveAll check' args) := by
  rw [resolveAll_eq_mapM, resolveAll_eq_mapM]
  exact .mapM fun x _ => ofJson_narrows h x

end

end Argument

namespace Scope

/-- The scope of the same query under another guard. -/
def withGuard (scope : Scope) (guard : Guard) : Scope :=
  { scope with guard }

end Scope

/-! ## Actions -/

namespace Application

variable {scope : Scope} {strict : Guard} {a : Application} {nested : List (Slot × Build Bool)}

section

variable (h : strict.Tightens scope.guard)
include h

theorem arguments_narrows (args : List Json) :
    Checks.Narrows ((scope.withGuard strict).arguments args) (scope.arguments args) :=
  Argument.resolveAll_narrows h.sql args

/-- A table that a strict guard lets pass is let pass by a lax one. -/
theorem table_narrows (args : List Json) :
    Checks.Narrows ((scope.withGuard strict).table args) (scope.table args) := by
  cases args with
  | nil => exact .refl _
  | cons v args =>
    cases v with
    | str reference => exact h.tables scope.ctes reference
    | _ => exact .refl _

/-- Raw SQL that a strict guard lets pass is let pass by a lax one. -/
theorem checkSql_narrows (args : List Json) :
    Checks.Narrows ((scope.withGuard strict).checkSql args) (scope.checkSql args) := by
  cases args with
  | nil => exact .refl _
  | cons v args =>
    cases v with
    | str sql => exact h.sql sql
    | _ => exact .refl _

theorem sqlArguments_narrows (args : List Json) :
    Checks.Narrows ((scope.withGuard strict).sqlArguments args) (scope.sqlArguments args) :=
  (checkSql_narrows h args).bind fun _ => arguments_narrows h args

theorem conditions_narrows :
    Checks.Narrows (a.conditions (scope.withGuard strict)) (a.conditions scope) := by
  unfold conditions
  cases Entries.get? a.entries "on" <|> a.written.field? "on" with
  | none => exact .refl _
  | some on =>
    refine Checks.Narrows.bind (.refl _) fun written => .mapM fun c _ => ?_
    exact (arguments_narrows h _).bind fun _ => .refl _

/-- A join is narrowed, for it depends on the guard only through its arguments and conditions. -/
theorem applyJoin_narrows :
    (a.applyJoin (scope.withGuard strict)).Narrows (a.applyJoin scope) := by
  have hrest : ∀ args : List Json,
      (do
        let conditions ← Build.lift (a.conditions (scope.withGuard strict))
        let args ← Build.lift ((scope.withGuard strict).arguments args)
        Build.join a.method args conditions).Narrows
      (do
        let conditions ← Build.lift (a.conditions scope)
        let args ← Build.lift (scope.arguments args)
        Build.join a.method args conditions) := fun args =>
    (Build.Narrows.lift (conditions_narrows h)).bind fun _ =>
      (Build.Narrows.lift (arguments_narrows h args)).bind fun _ => .refl _
  unfold applyJoin
  split
  · exact (Build.Narrows.lift (table_narrows h a.args)).bind fun reference => hrest _
  · exact (Build.Narrows.lift (checkSql_narrows h a.args)).bind fun _ => hrest _

end

/-! ## Nested queries -/

section

variable (hslot : ∀ slot, Option.Rel Build.Narrows (nested.lookup slot) (a.nested.lookup slot))
include hslot

/-- What an action builds in a slot is narrowed. -/
theorem inSlot_narrows (slot : Slot) :
    Option.Rel Build.Narrows ((a.withNested nested).inSlot slot) (a.inSlot slot) :=
  Build.Narrows.map_discard (hslot slot)

theorem query?_narrows : Option.Rel Build.Narrows (a.withNested nested).query? a.query? := by
  unfold query?
  show Option.Rel _ (a.target.query.bind _) _
  cases a.target.query with
  | none => exact .none
  | some found => exact inSlot_narrows hslot found.1

theorem group?_narrows : Option.Rel Build.Narrows (a.withNested nested).group? a.group? := by
  rw [group?_eq, group?_eq]
  exact inSlot_narrows hslot a.groupSlot

theorem operandQuery?_narrows :
    Option.Rel Build.Narrows (a.withNested nested).operandQuery? a.operandQuery? := by
  rw [operandQuery?_eq, operandQuery?_eq]
  show Option.Rel _ (a.operandSlot?.bind _) _
  cases a.operandSlot? with
  | none => exact .none
  | some slot => exact inSlot_narrows hslot slot

/-- What is done with a nested query that must be there is done with the other. -/
theorem requireQuery_narrows (family : SubqueryFamily) {k : Build Unit → Build Unit}
    (hk : ∀ sub sub', sub.Narrows sub' → (k sub).Narrows (k sub')) :
    (Build.lift ((a.withNested nested).requireQuery family) >>= k).Narrows
      (Build.lift (a.requireQuery family) >>= k) := by
  have hquery := query?_narrows hslot
  unfold requireQuery
  generalize (a.withNested nested).query? = sub, a.query? = sub' at hquery ⊢
  cases hquery with
  | none => exact .refl _
  | some hsub => exact hk _ _ hsub

theorem requireNamed_narrows (family : SubqueryFamily) (what : String)
    {k : String × Build Unit → Build Unit}
    (hk : ∀ name sub sub', sub.Narrows sub' → (k (name, sub)).Narrows (k (name, sub'))) :
    (Build.lift ((a.withNested nested).requireNamed family what) >>= k).Narrows
      (Build.lift (a.requireNamed family what) >>= k) := by
  have hquery := query?_narrows hslot
  have hname : (a.withNested nested).target.name = a.target.name := rfl
  unfold requireNamed
  rw [hname]
  generalize (a.withNested nested).query? = sub, a.query? = sub' at hquery ⊢
  cases a.target.name with
  | none => exact .refl _
  | some name =>
    cases hquery with
    | none => exact .refl _
    | some hsub => exact hk name _ _ hsub

end

/-! ## Applying an action -/

section

variable (h : strict.Tightens scope.guard)
  (hslot : ∀ slot, Option.Rel Build.Narrows (nested.lookup slot) (a.nested.lookup slot))
include h hslot

/-- So is a join with a query, for the query is. -/
theorem applyJoinQuery_narrows :
    ((a.withNested nested).applyJoinQuery (scope.withGuard strict)).Narrows
      (a.applyJoinQuery scope) := by
  have hquery := query?_narrows hslot
  have hjoined : (a.withNested nested).joinedAs = a.joinedAs := rfl
  unfold applyJoinQuery
  rw [hjoined]
  generalize (a.withNested nested).query? = sub, a.query? = sub' at hquery ⊢
  obtain ⟨name?, extra⟩ := a.joinedAs
  dsimp only
  cases name? with
  | none => exact .refl _
  | some name =>
    cases hquery with
    | none => exact .refl _
    | some hsub =>
      refine (Build.Narrows.lift (conditions_narrows h)).bind fun on => ?_
      refine (Build.Narrows.lift (arguments_narrows h extra)).bind fun args => ?_
      exact hsub.nested_bind _

/-- A clause is narrowed, whether it groups clauses, compares with a query or stands alone. -/
theorem applyFilter_narrows :
    ((a.withNested nested).applyFilter (scope.withGuard strict)).Narrows (a.applyFilter scope) := by
  have hgroup := group?_narrows hslot
  have hoperand := operandQuery?_narrows hslot
  have hroute : (a.withNested nested).route = a.route := rfl
  unfold applyFilter
  rw [hroute]
  generalize (a.withNested nested).group? = group, a.group? = group' at hgroup ⊢
  generalize (a.withNested nested).operandQuery? = sub, a.operandQuery? = sub' at hoperand ⊢
  cases hgroup with
  | some hgroup => exact hgroup.nested_bind _
  | none =>
    refine (Build.Narrows.lift (arguments_narrows h a.args)).bind fun args => ?_
    -- only a filter of rows compares with a nested query
    cases a.route with
    | whereClause =>
      cases hoperand with
      | none => exact .refl _
      | some hsub => exact hsub.nested_bind _
    | _ => exact .refl _

/-- **An action under a tightened guard narrows what it is under the other**, if its nested
queries do. -/
theorem apply_narrows :
    ((a.withNested nested).apply (scope.withGuard strict)).Narrows (a.apply scope) := by
  have hroute : (a.withNested nested).route = a.route := rfl
  have hplain : ∀ k : List Argument → Build Unit,
      (Build.lift ((scope.withGuard strict).arguments a.args) >>= k).Narrows
        (Build.lift (scope.arguments a.args) >>= k) := fun k =>
    (Build.Narrows.lift (arguments_narrows h a.args)).bind fun _ => .refl _
  unfold apply
  rw [hroute]
  cases a.route with
  | fromTable => exact (Build.Narrows.lift (table_narrows h a.args)).bind fun _ => .refl _
  | fromRaw | selectRaw | whereRaw | havingRaw | orderByRaw =>
    exact (Build.Narrows.lift (sqlArguments_narrows h a.args)).bind fun _ => .refl _
  | fromSub | subSelect | withQuery =>
    exact requireNamed_narrows hslot _ _ fun _ _ _ hsub => hsub.nested_bind _
  | whereExists | union => exact requireQuery_narrows hslot _ fun _ _ hsub => hsub.nested_bind _
  | select | groupBy | lock | orderBy | limit | offset | forPage => exact hplain _
  | join | joinRaw => exact applyJoin_narrows h
  | joinSub => exact applyJoinQuery_narrows h hslot
  | whereClause | having => exact applyFilter_narrows h hslot
  | clearOrders => exact .refl _

end

end Application

/-! ## Assembling -/

namespace Scope

variable {scope : Scope} {strict : Guard} {item : Item} {items : Definition} {a : Application}

/-- Under another guard an item has the same action, with its nested definitions assembled
under that guard. -/
theorem application?_withGuard :
    (scope.withGuard strict).application? item =
      (scope.application? item).map
        (·.withNested ((scope.withGuard strict).assembleNested item.nested)) :=
  application?_of_resolve fun _ _ _ _ _ _ => rfl

/-- Steps that narrow others one by one narrow them when they are run in order. -/
theorem runInOrder_narrows {f g : Item → Step}
    (h : ∀ item ∈ items, (f item).run.Narrows (g item).run) :
    (Step.runInOrder (items.map f)).Narrows (Step.runInOrder (items.map g)) := by
  induction items with
  | nil => exact .refl _
  | cons item items ih =>
    obtain ⟨hitem, hitems⟩ := List.forall_mem_cons.mp h
    exact hitem.bind fun _ => (ih hitems).bind fun _ => .refl _

/-- Two passes over narrowed steps are narrowed if the steps are taken in the same passes. -/
theorem runAll_narrows {f g : Item → Step}
    (hdeclares : ∀ item, (f item).declares = (g item).declares)
    (h : ∀ item ∈ items, (f item).run.Narrows (g item).run) :
    (Step.runAll (items.map f)).Narrows (Step.runAll (items.map g)) := by
  have hgroup : ∀ p : Bool → Bool,
      (Step.runInOrder ((items.map f).filter fun s => p s.declares)).Narrows
        (Step.runInOrder ((items.map g).filter fun s => p s.declares)) := by
    intro p
    have hsame : (fun s : Step => p s.declares) ∘ f = (fun s : Step => p s.declares) ∘ g := by
      funext item
      exact congrArg p (hdeclares item)
    rw [List.filter_map, List.filter_map, hsame]
    exact runInOrder_narrows fun item hitem => h item (List.mem_filter.mp hitem).1
  exact (hgroup id).bind fun _ => (hgroup not).bind fun _ => .refl _

section

variable (h : strict.Tightens scope.guard)
include h

/-- An action of an item is performed more narrowly if the definitions nested in the item are
assembled more narrowly. -/
theorem perform_narrows (happ : scope.application? item = some a)
    (hnested : ∀ slot d, (slot, d) ∈ item.nested →
      ((scope.withGuard strict).assemble d).Narrows (scope.assemble d)) :
    ((scope.withGuard strict).perform
      (a.withNested ((scope.withGuard strict).assembleNested item.nested))).Narrows
        (scope.perform a) := by
  have hslot : ∀ slot, Option.Rel Build.Narrows
      (((scope.withGuard strict).assembleNested item.nested).lookup slot)
      (a.nested.lookup slot) := by
    intro slot
    rw [(application?_spec happ).2.1, lookup_assembleNested, lookup_assembleNested]
    cases hd : item.nested.lookup slot with
    | none => exact .none
    | some d => exact .some (hnested slot d (mem_of_lookup hd))
  unfold perform
  show (if scope.admits a then _ else _ : Build Bool).Narrows _
  split
  · refine (Build.Narrows.lift (h.actions a.method)).bind fun _ => ?_
    exact (Application.apply_narrows h hslot).bind fun _ => .refl _
  · have hotherwise := hslot .otherwise
    show Build.Narrows
      ((((scope.withGuard strict).assembleNested item.nested).lookup .otherwise).getD _) _
    generalize ((scope.withGuard strict).assembleNested item.nested).lookup .otherwise = sub,
      a.nested.lookup .otherwise = sub' at hotherwise ⊢
    cases hotherwise with
    | none => exact .refl _
    | some hsub => exact hsub

/-- **A definition is assembled more narrowly under a tightened guard**, whatever is nested
in it. -/
theorem assemble_narrows (items : Definition) :
    ((scope.withGuard strict).assemble items).Narrows (scope.assemble items) := by
  induction items using Definition.induction with
  | h items ih =>
    unfold assemble
    rw [assembleItems_eq_map, assembleItems_eq_map]
    refine runAll_narrows (fun item => ?_) fun item hitem => ?_
    · rw [assembleItem_eq, assembleItem_eq, application?_withGuard]
      cases scope.application? item <;> rfl
    · rw [assembleItem_eq, assembleItem_eq, application?_withGuard]
      cases happ : scope.application? item with
      | none => exact .refl _
      | some a => exact perform_narrows h happ fun slot d hslot => ih item hitem slot d hslot

end

end Scope

end QueryScript
