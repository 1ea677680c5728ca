import QueryScript.Proofs.Definition.Reordering
import QueryScript.Proofs.Engine.Tables
import QueryScript.Proofs.Guard.Visited

/-!
# The verdict on a definition in another order

The check stops at the first item that it refuses, so an order can change what is refused, but not
whether anything is.  Two things carry this.  The names of common table expressions are collected
before the walk begins, and do not depend on the order.  And what an item writes itself gets the
same verdict in every order of the definitions inside it, because these are left out when the item
is judged on its own (`checkOwn_of_reordered`).

So a definition passes in every order of its items and of the definitions nested in it, or in none
(`validate_of_reorders`); a table may be read from before the common table expression of its name
is declared.
-/

namespace QueryScript

/-- The SQL of a marker is a text, and has no order. -/
theorem Argument.payloadSql_of_reordered {isDefinition : Bool} {v w : Json}
    (h : v.Reordered isDefinition w) : payloadSql v = payloadSql w := by
  cases w with
  | obj fs =>
    obtain ⟨es, rfl, hes⟩ := h.exists_obj
    have hsql : (Entries.get? es "sql").bind Json.string? =
        (Entries.get? fs "sql").bind Json.string? := hes.bind_get?_eq fun hvw => hvw.string?_eq
    rw [payloadSql, payloadSql, hsql]
  | _ => cases h <;> rfl

/-- Checks of two lists agree if they agree on the items in their places. -/
theorem Checks.forM_congr {α β ε : Type} {f : α → Except ε PUnit} {g : β → Except ε PUnit}
    {xs : List α} {ys : List β} (h : List.Forall₂ (fun x y => f x = g y) xs ys) :
    xs.forM f = ys.forM g := by
  induction h with
  | nil => rfl
  | @cons x y xs ys hxy _ ih =>
    show (f x >>= fun _ => xs.forM f) = (g y >>= fun _ => ys.forM g)
    rw [hxy, ih]

namespace Guard

variable {guard : Guard} {v w : Json} {es fs : Entries}

/-! ## Markers -/

/-- Lists that differ in one item pass or fail alike if the items do. -/
theorem checkMarkersItems_congr (before after : List Json)
    (h : guard.checkMarkers v = guard.checkMarkers w) :
    guard.checkMarkersItems (before ++ v :: after) =
      guard.checkMarkersItems (before ++ w :: after) := by
  induction before with
  | nil => simp only [List.nil_append, checkMarkersItems, h]
  | cons x before ih => simp only [List.cons_append, checkMarkersItems, ih]

/-- The same for entries, and for any two values under a key where the check does not look. -/
theorem checkMarkersEntries_congr (before after : Entries) {key : String}
    (h : isNestedKey key = false → guard.checkMarkers v = guard.checkMarkers w) :
    guard.checkMarkersEntries (before ++ (key, v) :: after) =
      guard.checkMarkersEntries (before ++ (key, w) :: after) := by
  induction before with
  | nil =>
    simp only [List.nil_append, checkMarkersEntries]
    split
    · rfl
    next hkey => rw [h (Bool.not_eq_true _ ▸ hkey)]
  | cons entry before ih => simp only [List.cons_append, checkMarkersEntries, ih]

/-- The markers in a value are judged alike in every order of the definitions below its keys. -/
theorem checkMarkers_of_reordered (h : v.Reordered false w) :
    guard.checkMarkers v = guard.checkMarkers w := by
  generalize hinner : false = isDefinition at h
  induction h with
  | refl => rfl
  | items => cases hinner
  | item before after _ ih =>
    rw [checkMarkers, checkMarkers]
    exact checkMarkersItems_congr before after (ih rfl)
  | @entry _ before after key v w h ih =>
    have hobj : (Json.obj _).Reordered false (.obj _) := .entry before after h
    obtain ⟨_, heq, hes⟩ := hobj.exists_obj
    cases heq
    rw [checkMarkers, checkMarkers]
    cases hraw : Entries.get? (before ++ (key, w) :: after) Json.rawKey with
    | none =>
      rw [hes.get?_eq_none hraw]
      exact checkMarkersEntries_congr before after fun hkey => ih hkey.symm
    | some payload =>
      obtain ⟨payload', hraw', hpayload⟩ := hes.exists_get? hraw
      rw [hraw']
      simp only [checkPayload, Argument.payloadSql_of_reordered hpayload]

theorem checkMarkersEntries_of_reordered (h : Entries.Reordered es fs) :
    guard.checkMarkersEntries es = guard.checkMarkersEntries fs := by
  induction h with
  | nil => rfl
  | @cons e f _ _ hentry _ ih =>
    obtain ⟨key, v⟩ := e
    obtain ⟨key', w⟩ := f
    obtain ⟨hkey, hvalue⟩ := hentry
    dsimp only at hkey hvalue
    subst hkey
    rw [checkMarkersEntries, checkMarkersEntries, ih]
    cases hnested : isNestedKey key with
    | true => rfl
    | false =>
      rw [hnested] at hvalue
      rw [checkMarkers_of_reordered hvalue]

theorem checkCondition_of_reordered (h : v.Reordered false w) :
    guard.checkCondition v = guard.checkCondition w := by
  cases w with
  | obj fs =>
    obtain ⟨es, rfl, hes⟩ := h.exists_obj
    exact checkMarkersEntries_of_reordered hes
  | _ => cases h <;> rfl

/-! ## Entries and items -/

theorem literalText?_of_reordered {key : String} (h : v.Reordered false w) :
    literalText? key v = literalText? key w := by
  cases h with
  | refl => rfl
  | item before after h =>
    cases before with
    | nil => exact h.string?_eq
    | cons x before => rfl
  | entry before after h =>
    have hobj : (Json.obj _).Reordered false (.obj _) := .entry before after h
    obtain ⟨_, heq, hes⟩ := hobj.exists_obj
    cases heq
    exact hes.bind_get?_eq fun hvw => hvw.string?_eq

/-- The conditions of a join are judged alike. -/
theorem conditions_of_reordered (h : v.Reordered false w) :
    (conditionsIn v).forM guard.checkCondition = (conditionsIn w).forM guard.checkCondition := by
  cases w with
  | obj fs =>
    obtain ⟨es, rfl, hes⟩ := h.exists_obj
    rw [conditionsIn, conditionsIn]
    cases hon : Entries.get? fs "on" with
    | none => rw [hes.get?_eq_none hon]
    | some on =>
      obtain ⟨on', hon', h⟩ := hes.exists_get? hon
      have hinner : on'.Reordered false on := h
      rw [hon']
      cases on with
      | arr ys =>
        obtain ⟨xs, rfl, -⟩ := hinner.exists_arr
        exact Checks.forM_congr (hinner.forall₂.imp fun _ _ => checkCondition_of_reordered)
      | obj gs =>
        obtain ⟨gs', rfl, -⟩ := hinner.exists_obj
        exact Checks.forM_congr (.cons (checkCondition_of_reordered hinner) .nil)
      | _ =>
        cases hinner
        rfl
  | _ => cases h <;> rfl

theorem checkTable_congr {ctes ctes' : CteNames}
    (h : ∀ name, ctes.contains name = ctes'.contains name) (reference : String) :
    guard.checkTable ctes reference = guard.checkTable ctes' reference := by
  unfold checkTable
  simp only [h]

/-- What is written literally in the value of a key is judged alike in every order. -/
theorem checkEntry_of_reordered {ctes ctes' : CteNames}
    (hnames : ∀ name, ctes.contains name = ctes'.contains name) {key : String}
    (h : v.Reordered (isNestedKey key) w) :
    guard.checkEntry ctes key v = guard.checkEntry ctes' key w := by
  unfold checkEntry
  split
  · rfl
  next hreserved =>
    -- the keys of nested definitions are reserved, so the order differs only inside the value
    have hplain : isNestedKey key = false := by
      cases hnested : isNestedKey key with
      | false => rfl
      | true => exact absurd (isReserved_of_isNestedKey hnested) hreserved
    rw [hplain] at h
    simp only [literalText?_of_reordered h, conditions_of_reordered h, checkTable_congr hnames]

/-- **What an item writes itself gets the same verdict** in every order of the definitions inside
it. -/
theorem checkOwn_of_reordered {ctes ctes' : CteNames}
    (hnames : ∀ name, ctes.contains name = ctes'.contains name) (h : Entries.Reordered es fs)
    (nested nested' : List (Slot × Definition)) :
    guard.checkOwn ctes (.step es nested) = guard.checkOwn ctes' (.step fs nested') := by
  have hentries : es.forM (fun entry => guard.checkEntry ctes entry.1 entry.2) =
      fs.forM (fun entry => guard.checkEntry ctes' entry.1 entry.2) := by
    refine Checks.forM_congr (h.imp fun e f hentry => ?_)
    rw [checkEntry_of_reordered hnames hentry.2, hentry.1]
  rw [checkOwn, checkOwn, checkMarkersEntries_of_reordered h]
  exact congrArg (· >>= fun _ => guard.checkMarkersEntries fs) hentries

/-! ## Definitions -/

variable {value value' : Json}

/-- A definition that passes also passes when one definition in it is put in another order. -/
theorem validate_of_reordered (h : value.Reordered true value')
    (hpasses : guard.validate value = .ok ()) : guard.validate value' = .ok () := by
  obtain ⟨definition, hread, hcheck⟩ := Checks.bind_eq_ok.mp hpasses
  have hlist : ∃ ys, value' = .arr ys := by
    cases value with
    | arr xs =>
      obtain ⟨ys, heq, -⟩ := h.symm.exists_arr
      exact ⟨ys, heq⟩
    | _ => cases hread
  obtain ⟨ys, rfl⟩ := hlist
  have hread' : Definition.ofJson (.arr ys) = .ok (Item.ofItems ys) := rfl
  refine Checks.bind_eq_ok.mpr ⟨_, hread', ?_⟩
  rw [checkDefinition_eq_ok_iff, checkItems_eq_ok_iff] at hcheck ⊢
  intro item hitem
  cases item with
  | stray v => rfl
  | step fs nested =>
    obtain ⟨zs, hzs, hfs⟩ := Definition.exists_writes_of_hasItem hread' hitem
    obtain ⟨xs, es, hxs, hes, hreordered⟩ := Json.exists_step_of_reordered h hzs hfs
    obtain ⟨nested', hitem'⟩ := (Definition.hasItem_step_iff_writes hread).mpr ⟨xs, hxs, hes⟩
    have hnames := CteNames.contains_collect_of_reordered h hread hread'
    rw [← checkOwn_of_reordered hnames hreordered nested' nested]
    exact hcheck _ hitem'

/-- **A definition passes in every order or in none.**  Whether it does depends neither on the
order of its items nor on that of the items under the keys `query`, `else` and `clauses` anywhere
in it. -/
theorem validate_of_reorders (h : value.Reorders value') :
    guard.validate value = .ok () ↔ guard.validate value' = .ok () := by
  induction h with
  | refl => exact Iff.rfl
  | step _ hstep ih =>
    exact ih.trans ⟨validate_of_reordered hstep, validate_of_reordered hstep.symm⟩

/-- A query that is named before it is read from, and sorts its rows before it takes them. -/
def recentQuery : Json :=
  .arr [.obj [("with", .str "recent"),
      ("query", .arr [.obj [("orderBy", .str "id")], .obj [("from", .str "users")]])],
    .obj [("from", .str "recent")]]

/-- The same with everything the other way round. -/
def recentQueryReversed : Json :=
  .arr [.obj [("from", .str "recent")],
    .obj [("with", .str "recent"),
      ("query", .arr [.obj [("from", .str "users")], .obj [("orderBy", .str "id")]])]]

theorem recentQuery_reorders : recentQuery.Reorders recentQueryReversed := by
  refine .step (.step .refl (.items (List.Perm.swap _ _ []))) ?_
  refine .item [_] [] (.entry [_] [] (.items ?_))
  exact List.Perm.swap _ _ []

/-- The query passes before its order is turned, and after. -/
theorem validate_of_recentQuery :
    ∃ guard, ofSettings Settings.usersOnly.security = .ok guard ∧
      guard.validate recentQuery = .ok () ∧ guard.validate recentQueryReversed = .ok () := by
  refine ⟨_, rfl, rfl, ?_⟩
  exact (validate_of_reorders recentQuery_reorders).mp rfl

end Guard

end QueryScript
