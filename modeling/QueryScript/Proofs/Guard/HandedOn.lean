import QueryScript.Proofs.Engine.Tables
import QueryScript.Proofs.Text.LetterCase
import QueryScript.Proofs.Text.Neighbours

/-!
# The reference that is handed on

The guard judges a name and hands on a text, which was never judged in that form.  The
name in it may come from the configuration, where it was read out of another text, and the
alias was taken apart and put together again.  Still the text is a reference: any name of an
accepted reference goes with the alias of any other (`TableReference.parse_withName`), and
what is handed on has the one name of the two that it should have.

It is written plainly, too: whatever white space the reference was written with, what is
handed on has single blanks between its words and no other character that is not part of a name
(`isPlain_withName`).
-/

namespace QueryScript

namespace TableReference

/-- A text of letters, numbers, underscores and dots, with single blanks. -/
structure IsPlain (s : String) : Prop where
  chars : ∀ c ∈ s.toList, Text.isAlphanumeric c = true ∨ c = '_' ∨ c = '.' ∨ c = ' '
  singleBlanks : ¬ [' ', ' '] <:+: s.toList

/-- The words of a reference to a table of this name. -/
def wordsWith (t : TableReference) (name : String) : List String :=
  match t.tableAlias with
  | some a => name :: (a.word.toList ++ [a.name])
  | none => [name]

theorem withName_eq_joinWith (t : TableReference) (name : String) :
    t.withName name = Text.joinWith " " (t.wordsWith name) := by
  obtain ⟨own, tableAlias⟩ := t
  match tableAlias with
  | none => rfl
  | some ⟨none, aliasName⟩ => rfl
  | some ⟨some word, aliasName⟩ => rfl

/-- The words of a well-formed reference are not empty, and are names. -/
theorem WellFormed.words {t : TableReference} (ht : t.WellFormed) {name w : String}
    (hname : IsName name.toList) (hw : w ∈ t.wordsWith name) :
    w.toList ≠ [] ∧ ∀ c ∈ w.toList, (isIdent c || c == '.') = true := by
  have hown : name.toList ≠ [] ∧ ∀ c ∈ name.toList, (isIdent c || c == '.') = true :=
    ⟨hname.ne_nil, hname.isIdent_or_dot⟩
  have hident : ∀ {cs : List Char}, IsIdentifier cs →
      cs ≠ [] ∧ ∀ c ∈ cs, (isIdent c || c == '.') = true := fun h =>
    ⟨h.1, fun c hc => by rw [h.2 c hc]; rfl⟩
  unfold wordsWith at hw
  split at hw
  next a halias =>
    rcases List.mem_cons.mp hw with rfl | hw
    · exact hown
    · rcases List.mem_append.mp hw with hw | hw
      · exact hident (ht.alias_word a halias w (Option.mem_toList.mp hw)).isIdentifier
      · rw [List.mem_singleton.mp hw]
        exact hident (ht.alias_name a halias)
  next =>
    rw [List.mem_singleton.mp hw]
    exact hown

/-- Another name before the same alias is written plainly. -/
theorem isPlain_withName {t : TableReference} (ht : t.WellFormed) {name : String}
    (hname : IsName name.toList) : IsPlain (t.withName name) := by
  have hblank : (isIdent ' ' || ' ' == '.') = false := by decide +kernel
  rw [withName_eq_joinWith]
  refine ⟨fun c hc => ?_, Text.not_infix_joinWith fun w hw => ⟨(ht.words hname hw).1, fun hc => ?_⟩⟩
  · rcases Text.mem_joinWith hc with rfl | ⟨w, hw, hc⟩
    · exact .inr (.inr (.inr rfl))
    · have hkind := (ht.words hname hw).2 c hc
      simp only [isIdent, Bool.or_eq_true, beq_iff_eq] at hkind
      rcases hkind with (h | h) | h
      · exact .inl h
      · exact .inr (.inl h)
      · exact .inr (.inr (.inl h))
  · have hkind := (ht.words hname hw).2 ' ' hc
    rw [hblank] at hkind
    cases hkind

end TableReference

/-- The settings give a friendly name the actual name of a table; case does not count. -/
def SecuritySettings.Redirects (s : SecuritySettings) (name actual : String) : Prop :=
  ∃ friendly written target, (friendly, written) ∈ s.tableAliases ∧
    Text.eqIgnoreCase friendly name = true ∧
    TableReference.parse written = .ok target ∧ target.name = actual

namespace Guard

open TableReference (IsPlain parse parse_withName wellFormed_of_parse isPlain_withName)

/-- **What the guard hands on is a reference again.**  The name of any reference that is accepted
goes with the alias of any other: the text reads back as that name under that alias.  So under
any settings and any common table expressions, what is handed on for a reference reads back,
with the alias of the reference and with its name or the actual name that the settings give it; and
it is written with letters, numbers, underscores, dots and single blanks. -/
theorem checkTable_readsBack :
    (∀ {s s' : String} {t t' : TableReference}, parse s = .ok t → parse s' = .ok t' →
      parse (t.withName t'.name) = .ok ⟨t'.name, t.tableAlias⟩) ∧
    ∀ {settings : SecuritySettings} {guard : Guard} {ctes : CteNames} {reference handed : String},
      ofSettings settings = .ok guard → guard.checkTable ctes reference = .ok handed →
      ∃ t name, parse reference = .ok t ∧ parse handed = .ok ⟨name, t.tableAlias⟩ ∧
        (name = t.name ∨ settings.Redirects t.name name) ∧ IsPlain handed := by
  constructor
  · intro s s' t t' hs hs'
    exact parse_withName (wellFormed_of_parse hs) (wellFormed_of_parse hs').name
  · intro settings guard ctes reference handed hguard h
    obtain ⟨t, hparse, hways⟩ := checkTable_eq_ok h
    have hform := wellFormed_of_parse hparse
    -- its own name, or one that was read out of the settings
    obtain ⟨name, hname, hfrom, rfl⟩ : ∃ name, TableReference.IsName name.toList ∧
        (name = t.name ∨ settings.Redirects t.name name) ∧ handed = t.withName name := by
      rcases hways with ⟨-, rfl⟩ | ⟨-, actual, hactual, rfl⟩ | ⟨-, -, -, rfl⟩
      · exact ⟨t.name, hform.name, .inl rfl, rfl⟩
      · obtain ⟨friendly, written, target, hentry, hfriendly, htarget, rfl⟩ :=
          exists_alias_of_actualName? hguard hactual
        refine ⟨target.name, (wellFormed_of_parse htarget).name, .inr ?_, rfl⟩
        exact ⟨friendly, written, target, hentry, Text.eqIgnoreCase_iff.mpr hfriendly, htarget, rfl⟩
      · exact ⟨t.name, hform.name, .inl rfl, rfl⟩
    exact ⟨t, name, hparse, parse_withName hform hname, hfrom, isPlain_withName hform hname⟩

/-- Rules that permit no table and give one a friendly name. -/
def redirected : SecuritySettings where
  tables := ⟨.allow, []⟩
  tableAliases := [("People", " hr.Users\t")]
  replaceDefaultPatterns := true

/-- The actual name goes with an alias that is spelled like the word before it, and the friendly
name passes under an alias that is that word alone. -/
theorem checkTable_readsBack_redirected :
    (parse "log\n as  AS" = .ok ⟨"log", some ⟨some "as", "AS"⟩⟩ ∧
      parse "hr.Users u" = .ok ⟨"hr.Users", some ⟨none, "u"⟩⟩ ∧
      parse "hr.Users as AS" = .ok ⟨"hr.Users", some ⟨some "as", "AS"⟩⟩) ∧
    ∃ guard, ofSettings redirected = .ok guard ∧
      guard.checkTable .empty "PEOPLE \r\n as " = .ok "hr.Users as" ∧
      ∃ t name, parse "PEOPLE \r\n as " = .ok t ∧
        parse "hr.Users as" = .ok ⟨name, t.tableAlias⟩ ∧
        (name = t.name ∨ redirected.Redirects t.name name) ∧ IsPlain "hr.Users as" := by
  obtain ⟨hlog, husers, hother⟩ : (parse "log\n as  AS").toOption =
      some ⟨"log", some ⟨some "as", "AS"⟩⟩ ∧
      (parse "hr.Users u").toOption = some ⟨"hr.Users", some ⟨none, "u"⟩⟩ ∧
      TableReference.withName ⟨"log", some ⟨some "as", "AS"⟩⟩ "hr.Users" = "hr.Users as AS" := by
    decide +kernel
  have hlog := Checks.eq_ok_of_mem_toOption hlog
  have husers := Checks.eq_ok_of_mem_toOption husers
  obtain ⟨guard, hguard, hpasses⟩ : ∃ guard ∈ (ofSettings redirected).toOption,
      (guard.checkTable .empty "PEOPLE \r\n as ").toOption = some "hr.Users as" := by
    decide +kernel
  have hguard := Checks.eq_ok_of_mem_toOption hguard
  have hpasses := Checks.eq_ok_of_mem_toOption hpasses
  refine ⟨⟨hlog, husers, ?_⟩, guard, hguard, hpasses, checkTable_readsBack.2 hguard hpasses⟩
  have hread := checkTable_readsBack.1 hlog husers
  rwa [hother] at hread

end Guard

end QueryScript
