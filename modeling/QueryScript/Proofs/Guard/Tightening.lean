import QueryScript.Proofs.Catalog.Settings
import QueryScript.Proofs.Engine.Actions
import QueryScript.Proofs.Engine.Tables
import QueryScript.Proofs.Guard.Markers
import QueryScript.Proofs.Guard.Settings
import QueryScript.Proofs.Guard.Visited
import QueryScript.Proofs.Narrowing

/-!
# Tightening the security rules

Security rules are tightened by taking entries out of an allow list, by adding entries to
a block list, and by adding rules to the catalog (`SecuritySettings.Tightens`).  Each of
the guard's checks then narrows what it was: it lets pass nothing that it refused before,
and hands on the same where it lets something pass (`Guard.Tightens`).

That is not plain from the rules alone.  A new rule brings its keywords into the screen
that all rules share, an action is judged by its name and by its base in a way that
depends on the mode, and a friendly name is replaced before the policy is asked.
-/

namespace QueryScript

/-- A policy is configured no more generously than another: in the same mode, with no further
entries in an allow list, and with all entries of the other in a block list. -/
structure PolicySettings.Tightens (strict lax : PolicySettings) : Prop where
  mode : strict.mode = lax.mode
  allow : lax.mode = .allow → strict.list ⊆ lax.list
  block : lax.mode = .block → lax.list ⊆ strict.list

/-- Security rules are no more generous than others: the policies for tables and actions are
not, there are no fewer rules beside the built-in ones, and what decides what is judged, the
friendly names and the place of the built-in rules, is the same. -/
structure SecuritySettings.Tightens (strict lax : SecuritySettings) : Prop where
  tables : strict.tables.Tightens lax.tables
  actions : strict.actions.Tightens lax.actions
  tableAliases : strict.tableAliases = lax.tableAliases
  replaceDefaultPatterns : strict.replaceDefaultPatterns = lax.replaceDefaultPatterns
  rawPatterns : lax.rawPatterns ⊆ strict.rawPatterns

/-! ## Policies -/

namespace Policy

/-- A policy permits no more than another, in the same mode. -/
structure Tightens (strict lax : Policy) : Prop where
  mode : strict.mode = lax.mode
  permits : ∀ name, strict.permits name = true → lax.permits name = true

/-- A list covers whatever a part of it covers. -/
theorem isSome_matching?_mono {few many : PolicySettings} (hlist : few.list ⊆ many.list)
    {p q : Policy} (hp : ofSettings few = .ok p) (hq : ofSettings many = .ok q) {name : String}
    (h : (p.matching? name).isSome) : (q.matching? name).isSome := by
  unfold matching? at h ⊢
  rw [List.find?_isSome] at h ⊢
  obtain ⟨w, hw, hcovers⟩ := h
  obtain ⟨text, htext, hread⟩ := Checks.exists_of_mem_mapM (ofSettings_eq_ok hp).1 hw
  exact ⟨w, Checks.mem_mapM_of_ok (ofSettings_eq_ok hq).1 (hlist htext) hread, hcovers⟩

/-- Tighter settings make a tighter policy. -/
theorem tightens_of_settings {settings settings' : PolicySettings}
    (h : settings.Tightens settings') {strict lax : Policy}
    (hstrict : ofSettings settings = .ok strict) (hlax : ofSettings settings' = .ok lax) :
    strict.Tightens lax := by
  have hmode : lax.mode = settings'.mode := (ofSettings_eq_ok hlax).2
  have hsame : strict.mode = lax.mode := by rw [(ofSettings_eq_ok hstrict).2, hmode, h.mode]
  refine ⟨hsame, fun name hpermits => ?_⟩
  unfold permits at hpermits ⊢
  rw [hsame] at hpermits
  cases hkind : lax.mode with
  | none => rfl
  | allow =>
    rw [hkind] at hpermits
    exact isSome_matching?_mono (h.allow (hmode ▸ hkind)) hstrict hlax hpermits
  | block =>
    rw [hkind] at hpermits
    dsimp only at hpermits ⊢
    -- what the shorter list covers, the longer one covers
    rw [Option.isNone_iff_eq_none, ← Option.not_isSome_iff_eq_none] at hpermits ⊢
    exact fun hsome =>
      hpermits (isSome_matching?_mono (h.block (hmode ▸ hkind)) hlax hstrict hsome)

end Policy

/-! ## The guard -/

/-- Tighter settings drop no rule. -/
theorem SecuritySettings.Tightens.rules {strict lax : SecuritySettings} (h : strict.Tightens lax) :
    lax.rules ⊆ strict.rules := by
  unfold SecuritySettings.rules
  rw [h.replaceDefaultPatterns]
  split
  · exact h.rawPatterns
  · intro rule hrule
    rcases List.mem_append.mp hrule with hbuiltin | hown
    · exact List.mem_append_left _ hbuiltin
    · exact List.mem_append_right _ (h.rawPatterns hown)

namespace Guard

/-- Each check of the first guard narrows the second's. -/
structure Tightens (strict lax : Guard) : Prop where
  tables : ∀ ctes reference,
    Checks.Narrows (strict.checkTable ctes reference) (lax.checkTable ctes reference)
  actions : ∀ name, Checks.Narrows (strict.checkAction name) (lax.checkAction name)
  sql : ∀ text, Checks.Narrows (strict.checkSql text) (lax.checkSql text)

variable {strict lax : Guard}

/-- A stricter policy refuses no fewer tables, and changes nothing about those that pass. -/
theorem checkTable_narrows (haliases : strict.tableAliases = lax.tableAliases)
    (htables : strict.tables.Tightens lax.tables) (ctes : CteNames) (reference : String) :
    Checks.Narrows (strict.checkTable ctes reference) (lax.checkTable ctes reference) := by
  intro t h
  obtain ⟨ref, hparse, hways⟩ := checkTable_eq_ok h
  have hactual : lax.actualName? ref.name = strict.actualName? ref.name := by
    rw [actualName?, actualName?, haliases]
  unfold checkTable
  rw [hparse]
  show (if ctes.contains ref.name then _ else _) = (.ok t : Except Error String)
  rcases hways with ⟨hcte, rfl⟩ | ⟨hcte, actual, hname, rfl⟩ | ⟨hcte, hname, hpermits, rfl⟩
  · rw [if_pos hcte]
    rfl
  · rw [if_neg (Bool.eq_false_iff.mp hcte), hactual, hname]
    rfl
  · have hpasses := Policy.refusal?_eq_none_iff.mpr (htables.permits _ hpermits)
    rw [if_neg (Bool.eq_false_iff.mp hcte), hactual, hname]
    dsimp only
    rw [hpasses]
    rfl

/-- A stricter policy refuses no fewer actions, whichever of its names an action is judged by. -/
theorem checkAction_narrows (h : strict.actions.Tightens lax.actions) (name : String) :
    Checks.Narrows (strict.checkAction name) (lax.checkAction name) := by
  intro _ hpasses
  rw [checkAction_eq_ok_iff] at hpasses ⊢
  unfold permitsAction at hpasses ⊢
  rw [h.mode] at hpasses
  cases hmode : lax.actions.mode with
  | none => rfl
  | allow =>
    rw [hmode] at hpasses
    rcases Bool.or_eq_true_iff.mp hpasses with hname | hbase
    · exact Bool.or_eq_true_iff.mpr (.inl (h.permits _ hname))
    · exact Bool.or_eq_true_iff.mpr (.inr (h.permits _ hbase))
  | block =>
    rw [hmode] at hpasses
    obtain ⟨hname, hbase⟩ := Bool.and_eq_true_iff.mp hpasses
    exact Bool.and_eq_true_iff.mpr ⟨h.permits _ hname, h.permits _ hbase⟩

/-- More rules refuse no fewer fragments. -/
theorem checkSql_narrows {few many : List RuleSettings} (h : few ⊆ many)
    (hstrict : Catalog.ofSettings many = .ok strict.catalog)
    (hlax : Catalog.ofSettings few = .ok lax.catalog) (text : String) :
    Checks.Narrows (strict.checkSql text) (lax.checkSql text) := by
  intro _ hpasses
  unfold checkSql at hpasses ⊢
  rw [Catalog.check_eq_ok_iff] at hpasses ⊢
  rw [← Option.not_isSome_iff_eq_none] at hpasses ⊢
  exact fun hfinds => hpasses (Catalog.findMatch?_mono h hlax hstrict hfinds)

/-- **A guard with tightened rules lets pass nothing that it refused before.** -/
theorem tightens_of_settings {settings settings' : SecuritySettings}
    (h : settings.Tightens settings') (hstrict : ofSettings settings = .ok strict)
    (hlax : ofSettings settings' = .ok lax) : strict.Tightens lax := by
  have hown := ofSettings_eq_ok_iff.mp hstrict
  have hown' := ofSettings_eq_ok_iff.mp hlax
  have hsame : strict.tableAliases = lax.tableAliases := by
    have haliases := hown.tableAliases
    rw [h.tableAliases, hown'.tableAliases] at haliases
    exact (List.reverse_inj.mp (Except.ok.inj haliases)).symm
  exact
    { tables := checkTable_narrows hsame
        (Policy.tightens_of_settings h.tables hown.tables hown'.tables)
      actions := checkAction_narrows
        (Policy.tightens_of_settings h.actions hown.actions hown'.actions)
      sql := checkSql_narrows h.rules hown.catalog hown'.catalog }

/-! ## The check of a definition -/

section

variable {ctes : CteNames} (h : strict.Tightens lax)
include h

theorem checkPayload_narrows (payload : Json) :
    Checks.Narrows (strict.checkPayload payload) (lax.checkPayload payload) :=
  Checks.Narrows.bind (.refl _) h.sql

theorem checkMarkers_narrows (v : Json) :
    Checks.Narrows (strict.checkMarkers v) (lax.checkMarkers v) := by
  intro _ hpasses
  refine checkMarkers_eq_ok_iff.mpr fun payload hmeets => ?_
  exact checkPayload_narrows h payload () (checkMarkers_eq_ok_iff.mp hpasses payload hmeets)

theorem checkMarkersEntries_narrows (es : Entries) :
    Checks.Narrows (strict.checkMarkersEntries es) (lax.checkMarkersEntries es) := by
  intro _ hpasses
  refine checkMarkersEntries_of_forall fun entry hentry hkey => ?_
  exact checkMarkers_narrows h _ () (checkMarkers_of_entries hpasses entry hentry hkey)

theorem checkCondition_narrows (v : Json) :
    Checks.Narrows (strict.checkCondition v) (lax.checkCondition v) := by
  cases v with
  | obj es => exact checkMarkersEntries_narrows h es
  | _ => exact .refl _

/-- What is judged in the value of a key besides its table. -/
def checkText (guard : Guard) (route : Route) (value : Json) : Except Error Unit := do
  if route.isRaw then
    if let some sql := literalText? "sql" value then
      guard.checkSql sql
  if route = .join then
    (conditionsIn value).forM (checkCondition guard)

theorem checkText_narrows (route : Route) (value : Json) :
    Checks.Narrows (strict.checkText route value) (lax.checkText route value) := by
  have hjoin : Checks.Narrows
      (if route = .join then (conditionsIn value).forM strict.checkCondition else pure ())
      (if route = .join then (conditionsIn value).forM lax.checkCondition else pure ()) := by
    split
    · exact .forM fun c _ => checkCondition_narrows h c
    · exact .refl _
  unfold checkText
  dsimp only
  split
  · cases literalText? "sql" value with
    | none => exact hjoin
    | some sql => exact (h.sql sql).bind fun _ => hjoin
  · exact hjoin

theorem checkEntry_narrows (key : String) (value : Json) :
    Checks.Narrows (strict.checkEntry ctes key value) (lax.checkEntry ctes key value) := by
  unfold checkEntry
  split
  · exact .refl _
  · cases Action.route? key with
    | none => exact .refl _
    | some route =>
      have htext := checkText_narrows h route value
      dsimp only
      split
      · cases literalText? "table" value with
        | none => exact htext
        | some table => exact (h.tables ctes table).discard.bind fun _ => htext
      · exact htext

theorem checkOwn_narrows (item : Item) :
    Checks.Narrows (strict.checkOwn ctes item) (lax.checkOwn ctes item) := by
  cases item with
  | stray v => exact .refl _
  | step es nested =>
    exact Checks.Narrows.bind (.forM fun entry _ => checkEntry_narrows h entry.1 entry.2) fun _ =>
      checkMarkersEntries_narrows h es

/-- **The check of a definition narrows with the guard**, at every depth. -/
theorem checkDefinition_narrows (definition : Definition) :
    Checks.Narrows (strict.checkDefinition definition) (lax.checkDefinition definition) := by
  intro _ hpasses
  rw [checkDefinition_eq_ok_iff, checkItems_eq_ok_iff] at hpasses ⊢
  intro item hitem
  exact checkOwn_narrows h item () (hpasses item hitem)

/-- What a strict guard validates, a lax one does. -/
theorem validate_narrows (value : Json) :
    Checks.Narrows (strict.validate value) (lax.validate value) :=
  Checks.Narrows.bind (.refl _) fun definition => checkDefinition_narrows h definition

end

end Guard

end QueryScript
