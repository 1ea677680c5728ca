import QueryScript.Proofs.Engine.Tables
import QueryScript.Proofs.TableReference.LetterCase

/-!
# Letter case is no way past the table policy

The name in a table reference is looked up in three places one after the other: among
the common table expressions, among the friendly names, and in the policy.  Each of
them compares in its own way, the first two by small letters and a policy entry by
small letters or, if it has a star, by Unicode case; none tells a name from the name in
small letters.  So what the guard hands on for a reference and for the reference in
small letters differs in letter case at most (`handOn?_lower`), and two references that
differ in letter case only are handed on or refused together.
-/

namespace QueryScript

/-! ## Policies -/

namespace Wildcard

theorem skipSegment_map_toLower {rest : List Char → Bool}
    (h : ∀ cs : List Char, rest (cs.map Char.toLower) = rest cs) (cs : List Char) :
    skipSegment rest (cs.map Char.toLower) = skipSegment rest cs := by
  have hdot : ∀ c : Char, (c.toLower != '.') = (c != '.') :=
    @Text.ignoresCase_of_ascii Bool (· != '.') (by decide)
  induction cs with
  | nil => exact h []
  | cons c cs ih =>
    have hhere : rest (c.toLower :: cs.map Char.toLower) = rest (c :: cs) := h (c :: cs)
    rw [List.map_cons, skipSegment, skipSegment, hhere, hdot c, ih]

theorem fits_map_toLower (entry : List Char) :
    ∀ name : List Char, fits entry (name.map Char.toLower) = fits entry name := by
  induction entry with
  | nil =>
    intro name
    rw [fits, fits]
    exact List.isEmpty_map
  | cons p ps ih =>
    intro name
    unfold fits
    by_cases hstar : p = '*'
    · rw [if_pos hstar, if_pos hstar]
      exact skipSegment_map_toLower ih name
    · rw [if_neg hstar, if_neg hstar]
      cases name with
      | nil => rfl
      | cons c cs =>
        show (Text.fold p == Text.fold c.toLower && fits ps (cs.map Char.toLower)) = _
        rw [Text.ignoresCase_fold c, ih]

/-- An entry covers a name whatever its letter case. -/
theorem covers_lower (w : Wildcard) (name : String) :
    w.covers (Text.lower name) = w.covers name := by
  unfold covers
  split
  · rw [Text.toList_lower, fits_map_toLower]
  · rw [Text.eqIgnoreCase, Text.eqIgnoreCase, Text.lower_lower]

end Wildcard

/-- A policy refuses a name whatever its letter case, and for the same reason. -/
theorem Policy.refusal?_lower (policy : Policy) (name : String) :
    policy.refusal? (Text.lower name) = policy.refusal? name := by
  have hcovers : (fun w : Wildcard => w.covers (Text.lower name)) = fun w => w.covers name :=
    funext fun w => w.covers_lower name
  unfold refusal? matching?
  rw [hcovers]

namespace Guard

variable {guard : Guard} {ctes : CteNames}

/-! ## The reference that is handed on -/

/-- What the guard hands on for a reference, if it hands anything on. -/
def handOn? (guard : Guard) (ctes : CteNames) (t : TableReference) : Option String :=
  if ctes.contains t.name then some (t.withName t.name)
  else
    match guard.actualName? t.name with
    | some actual => some (t.withName actual)
    | none =>
      match guard.tables.refusal? t.name with
      | some _ => none
      | none => some (t.withName t.name)

/-- A reference passes if it can be read and something is handed on for it. -/
theorem toOption_checkTable (reference : String) :
    (guard.checkTable ctes reference).toOption =
      (TableReference.parse reference).toOption.bind (guard.handOn? ctes) := by
  unfold checkTable handOn?
  cases TableReference.parse reference with
  | error e => rfl
  | ok t =>
    show Except.toOption (if ctes.contains t.name then _ else _) =
      if ctes.contains t.name then _ else _
    by_cases hcte : ctes.contains t.name = true
    · rw [if_pos hcte, if_pos hcte]
      rfl
    · rw [if_neg hcte, if_neg hcte]
      cases guard.actualName? t.name with
      | some actual => rfl
      | none =>
        dsimp only
        cases guard.tables.refusal? t.name with
        | some reason => rfl
        | none => rfl

theorem contains_lower (name : String) : ctes.contains (Text.lower name) = ctes.contains name := by
  rw [CteNames.contains, CteNames.contains, Text.lower_lower]

theorem actualName?_lower (name : String) :
    guard.actualName? (Text.lower name) = guard.actualName? name := by
  rw [actualName?, actualName?, Text.lower_lower]

/-- For a reference in small letters the same is handed on, up to letter case. -/
theorem handOn?_lower (t : TableReference) :
    (guard.handOn? ctes t.lower).map Text.lower = (guard.handOn? ctes t).map Text.lower := by
  have hname : t.lower.name = Text.lower t.name := rfl
  have hwith : ∀ name name', Text.lower name = Text.lower name' →
      Text.lower (t.lower.withName name) = Text.lower (t.withName name') := by
    intro name name' h
    rw [TableReference.lower_withName, TableReference.lower_withName, TableReference.lower_lower, h]
  unfold handOn?
  rw [hname, contains_lower, actualName?_lower, Policy.refusal?_lower]
  have hown := hwith (Text.lower t.name) t.name (Text.lower_lower t.name)
  split
  · exact congrArg some hown
  · cases guard.actualName? t.name with
    | some actual => exact congrArg some (hwith actual actual rfl)
    | none =>
      cases guard.tables.refusal? t.name with
      | some reason => rfl
      | none => exact congrArg some hown

theorem checkTable_lower (reference : String) :
    (guard.checkTable ctes (Text.lower reference)).toOption.map Text.lower =
      (guard.checkTable ctes reference).toOption.map Text.lower := by
  rw [toOption_checkTable, toOption_checkTable, TableReference.toOption_parse_lower]
  cases (TableReference.parse reference).toOption with
  | none => rfl
  | some t => exact handOn?_lower t

/-- **Letter case is no way past the table policy.**  Under any policy, friendly names and
common table expressions, two references that differ in the case of ASCII letters only are
both handed on or both refused, and what is handed on for them differs in that case only. -/
theorem checkTable_ignoresCase (guard : Guard) (ctes : CteNames) {a b : String}
    (h : Text.eqIgnoreCase a b = true) :
    ((∃ t, guard.checkTable ctes a = .ok t) ↔ ∃ t, guard.checkTable ctes b = .ok t) ∧
      ∀ t t', guard.checkTable ctes a = .ok t → guard.checkTable ctes b = .ok t' →
        Text.eqIgnoreCase t t' = true := by
  have hsame : (guard.checkTable ctes a).toOption.map Text.lower =
      (guard.checkTable ctes b).toOption.map Text.lower := by
    rw [← checkTable_lower a, Text.eqIgnoreCase_iff.mp h, checkTable_lower b]
  cases ha : guard.checkTable ctes a with
  | error e =>
    cases hb : guard.checkTable ctes b with
    | error e' => exact ⟨⟨nofun, nofun⟩, nofun⟩
    | ok t' =>
      rw [ha, hb] at hsame
      cases hsame
  | ok t =>
    cases hb : guard.checkTable ctes b with
    | error e' =>
      rw [ha, hb] at hsame
      cases hsame
    | ok t' =>
      rw [ha, hb] at hsame
      have htext : Text.lower t = Text.lower t' := Option.some.inj hsame
      refine ⟨⟨fun _ => ⟨t', rfl⟩, fun _ => ⟨t, rfl⟩⟩, ?_⟩
      rintro _ _ ⟨⟩ ⟨⟩
      exact Text.eqIgnoreCase_iff.mpr htext

/-- Security rules that block a whole schema, one table of which has a friendly name. -/
def schemaBlocked : SecuritySettings where
  tables := ⟨.block, ["Secret", "HR.*"]⟩
  tableAliases := [("People", "hr.Users")]
  replaceDefaultPatterns := true

/-- Under those rules the friendly name passes in either case, with the case of the alias as it
is written, and a table of the schema passes in neither. -/
theorem checkTable_ignoresCase_people : ∃ guard, ofSettings schemaBlocked = .ok guard ∧
    Text.eqIgnoreCase "PEOPLE As p" "people as P" = true ∧
    guard.checkTable .empty "PEOPLE As p" = .ok "hr.Users As p" ∧
    guard.checkTable .empty "people as P" = .ok "hr.Users as P" ∧
    Text.eqIgnoreCase "hr.Users As p" "hr.Users as P" = true ∧
    ¬ (∃ t, guard.checkTable .empty "hr.salaries" = .ok t) ∧
    ¬ ∃ t, guard.checkTable .empty "Hr.SALARIES" = .ok t := by
  obtain ⟨guard, hguard, hcapitals, hsmall, hrefused⟩ :
      ∃ guard ∈ (ofSettings schemaBlocked).toOption,
        (guard.checkTable .empty "PEOPLE As p").toOption = some "hr.Users As p" ∧
        (guard.checkTable .empty "people as P").toOption = some "hr.Users as P" ∧
        (guard.checkTable .empty "hr.salaries").toOption = none := by decide +kernel
  have hcapitals := Checks.eq_ok_of_mem_toOption hcapitals
  have hsmall := Checks.eq_ok_of_mem_toOption hsmall
  have hsalaries : ¬ ∃ t, guard.checkTable .empty "hr.salaries" = .ok t := by
    rintro ⟨t, ht⟩
    rw [ht] at hrefused
    cases hrefused
  have hpeople : Text.eqIgnoreCase "PEOPLE As p" "people as P" = true := by decide +kernel
  have hother : Text.eqIgnoreCase "hr.salaries" "Hr.SALARIES" = true := by decide +kernel
  refine ⟨guard, Checks.eq_ok_of_mem_toOption hguard, hpeople, hcapitals, hsmall, ?_, hsalaries, ?_⟩
  · exact (checkTable_ignoresCase guard .empty hpeople).2 _ _ hcapitals hsmall
  · rwa [← (checkTable_ignoresCase guard .empty hother).1]

end Guard

end QueryScript
