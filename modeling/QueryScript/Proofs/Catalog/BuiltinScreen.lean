import QueryScript.Catalog.Builtin
import QueryScript.Proofs.Catalog.Coverage
import QueryScript.Proofs.Catalog.Settings

/-!
# The screen before the built-in rules

Each built-in rule brings the keywords that are to admit its matches to the patterns.
With one keyword amended they do: every rule is covered by its own keywords once `/*`
is taken for the marker it is meant to be (`builtinRules_covered`).  As it is written,
that keyword ends in `*` and is filed as the stem `/`, which begins no token and so
hits nothing; a block comment is seen only where it is closed.

So there are two ways past the screen: an opening comment, and a letter that only a
pattern knows, the long s or the Kelvin sign.  `isFirstHit_builtin_iff` says that there
is no third: on every fragment that does not slip through one of the two, the built-in
catalog answers with the first rule that matches.
-/

namespace QueryScript.Catalog

open Pattern (Reads)
open Text (IsForeign)

/-! ## Every rule is covered by its own keywords and the opening comment -/

/-- Settings of a rule that can be read, and whose keywords together with `/*` cover it. -/
structure Covered (settings : RuleSettings) : Prop where
  hasKeywords : settings.keywords ≠ []
  covers : ∃ pattern, Pattern.parse? settings.pattern = some pattern ∧
    ((Screen.ofKeywords settings.keywords).withMarker "/*").covers pattern = true

/-- The same as a computation on the characters of the pattern. -/
def coversChars (keywords : List String) (cs : List Char) : Bool :=
  keywords ≠ [] &&
    match (Pattern.Reader.run .start cs).bind Pattern.Reader.finish with
    | some pattern => ((Screen.ofKeywords keywords).withMarker "/*").covers pattern
    | none => false

theorem covered_of_chars {settings : RuleSettings} {cs : List Char}
    (hpattern : settings.pattern = String.ofList cs)
    (h : coversChars settings.keywords cs = true) : Covered settings := by
  rw [coversChars, Bool.and_eq_true, decide_eq_true_eq] at h
  obtain ⟨hkeywords, hcovers⟩ := h
  refine ⟨hkeywords, ?_⟩
  rw [Pattern.parse?, hpattern, String.toList_ofList]
  split at hcovers
  next pattern hparse => exact ⟨pattern, hparse, hcovers⟩
  next => cases hcovers

/-- Every built-in rule can be read, and its keywords cover it once `/*` is a marker. -/
theorem builtinRules_covered : ∀ settings ∈ builtinRules, Covered settings := by
  simp only [builtinRules, List.forall_mem_cons, List.not_mem_nil, false_implies,
    implies_true, and_true]
  and_intros
  -- a pattern is written as one text or as two
  all_goals first
    | exact covered_of_chars rfl (by decide +kernel)
    | exact covered_of_chars String.ofList_append.symm (by decide +kernel)

/-! ## The opening comment -/

/-- The small letters of a fragment show an opening comment only where it has one. -/
theorem opening_of_lower {cs : List Char} (h : ['/', '*'] <:+: cs.map Char.toLower) :
    ['/', '*'] <:+: cs := by
  obtain ⟨before, after, hsplit⟩ := h
  obtain ⟨front, back, rfl, hfront, -⟩ := List.map_eq_append_iff.mp hsplit.symm
  obtain ⟨front, middle, rfl, -, hmiddle⟩ := List.map_eq_append_iff.mp hfront
  obtain ⟨slash, middle, rfl, h₁, hmiddle⟩ := List.map_eq_cons_iff.mp hmiddle
  obtain ⟨star, middle, rfl, h₂, hnil⟩ := List.map_eq_cons_iff.mp hmiddle
  have hslash := Text.eq_of_toLower_eq (by decide) h₁
  have hstar := Text.eq_of_toLower_eq (by decide) h₂
  rw [hslash, hstar, List.map_eq_nil_iff.mp hnil]
  exact ⟨front, back, rfl⟩

/-- The rule that settings describe matches where the pattern that they write occurs. -/
theorem exists_rule_of_occurs {settings : RuleSettings} (hsettings : settings ∈ builtinRules)
    {pattern : Pattern} (hparse : Pattern.parse? settings.pattern = some pattern)
    {fragment : String} (h : pattern.Occurs fragment.toList) :
    ∃ settings ∈ builtinRules, ∃ rule, readRule settings = .ok rule ∧ rule.Matches fragment := by
  have hkeywords := (builtinRules_covered settings hsettings).hasKeywords
  refine ⟨settings, hsettings, ⟨settings.category, settings.name, pattern⟩, ?_, h⟩
  rw [readRule, if_neg hkeywords, hparse]

/-- One of the built-in rules matches every opening comment. -/
theorem exists_rule_of_opening {fragment : String} (h : ['/', '*'] <:+: fragment.toList) :
    ∃ settings ∈ builtinRules, ∃ rule, readRule settings = .ok rule ∧ rule.Matches fragment := by
  obtain ⟨pre, post, hsplit⟩ := h
  obtain ⟨settings, hsettings, hpattern⟩ :
      ∃ settings ∈ builtinRules, settings.pattern = "/\\*|\\*/" := by decide +kernel
  have hparse : Pattern.parse? "/\\*|\\*/" =
      some (.alt (.seq (.set (.one '/')) (.set (.one '*')))
        (.seq (.set (.one '*')) (.set (.one '/')))) := by decide +kernel
  rw [← hpattern] at hparse
  refine exists_rule_of_occurs hsettings hparse ?_
  refine ⟨pre, ['/', '*'], post, hsplit.symm, .preferred ?_⟩
  exact @Reads.seq _ _ pre ['/'] ['*'] post (.set (by decide)) (.set (by decide))

/-! ## What slips through -/

/-- A fragment slips through if no keyword hits it, and yet it has an opening comment or some
rule reads a foreign character in it. -/
def Slips (catalog : Catalog) (fragment : String) : Prop :=
  catalog.screens fragment = false ∧
    (['/', '*'] <:+: fragment.toList ∨
      ∃ rule ∈ catalog.rules, ∃ pre text post, fragment.toList = pre ++ text ++ post ∧
        Reads rule.pattern pre text post ∧ ∃ c ∈ text, IsForeign c)

/-- Every built-in rule can be read. -/
theorem exists_readRule {settings : RuleSettings} (h : settings ∈ builtinRules) :
    ∃ rule, readRule settings = .ok rule := by
  obtain ⟨hkeywords, pattern, hparse, -⟩ := builtinRules_covered settings h
  exact ⟨⟨settings.category, settings.name, pattern⟩, by rw [readRule, if_neg hkeywords, hparse]⟩

/-- The built-in rules can be read, and their keywords make up the screen. -/
theorem exists_builtin : ∃ catalog, builtin = .ok catalog ∧
    builtinRules.mapM readRule = .ok catalog.rules ∧
    catalog.screen = Screen.ofKeywords (builtinRules.flatMap (·.keywords)) := by
  obtain ⟨catalog, hcatalog⟩ := exists_ofSettings fun _ => exists_readRule
  exact ⟨catalog, hcatalog, ofSettings_eq_ok_iff.mp hcatalog⟩

variable {catalog : Catalog} {fragment : String}

/-- A match without foreign characters goes unseen only where there is an opening comment. -/
theorem screens_or_opening (hrules : builtinRules.mapM readRule = .ok catalog.rules)
    (hscreen : catalog.screen = Screen.ofKeywords (builtinRules.flatMap (·.keywords)))
    {rule : Rule} (hrule : rule ∈ catalog.rules) {pre text post : List Char}
    (hfragment : fragment.toList = pre ++ text ++ post)
    (hread : Reads rule.pattern pre text post) (hplain : ∀ c ∈ text, ¬ IsForeign c) :
    catalog.screens fragment = true ∨ ['/', '*'] <:+: fragment.toList := by
  obtain ⟨settings, hsettings, hsource⟩ := Checks.exists_of_mem_mapM hrules hrule
  obtain ⟨hkeywords, pattern, hparse, hcovers⟩ := builtinRules_covered settings hsettings
  have hpattern : rule.pattern = pattern := by
    rw [readRule, if_neg hkeywords, hparse] at hsource
    rw [← Except.ok.inj hsource]
  rw [hpattern] at hread
  have hown := Screen.hits_of_covers hcovers hfragment hread hplain
  rcases Screen.hits_withMarker.mp hown with hopening | hhits
  · exact .inr (opening_of_lower hopening)
  · rw [screens, hscreen]
    refine .inl (Screen.hits_ofKeywords_mono ?_ hhits)
    intro keyword hkeyword
    exact List.mem_flatMap.mpr ⟨settings, hsettings, hkeyword⟩

/-- The screen passes on every fragment that some rule matches, unless the fragment slips
through. -/
theorem screens_iff_not_slips (hrules : builtinRules.mapM readRule = .ok catalog.rules)
    (hscreen : catalog.screen = Screen.ofKeywords (builtinRules.flatMap (·.keywords))) :
    (∀ rule ∈ catalog.rules, rule.Matches fragment → catalog.screens fragment = true) ↔
      ¬ catalog.Slips fragment := by
  constructor
  · intro hpass hslips
    obtain ⟨hunseen, hopening | ⟨rule, hrule, pre, text, post, hfragment, hread, -⟩⟩ := hslips
    · obtain ⟨settings, hsettings, rule, hrule, hmatches⟩ := exists_rule_of_opening hopening
      have hmem := Checks.mem_mapM_of_ok hrules hsettings hrule
      exact Bool.eq_false_iff.mp hunseen (hpass rule hmem hmatches)
    · exact Bool.eq_false_iff.mp hunseen (hpass rule hrule ⟨pre, text, post, hfragment, hread⟩)
  · intro hslips rule hrule ⟨pre, text, post, hfragment, hread⟩
    refine Classical.byContradiction fun hunseen => hslips ⟨Bool.eq_false_iff.mpr hunseen, ?_⟩
    by_cases hplain : ∀ c ∈ text, ¬ IsForeign c
    · rcases screens_or_opening hrules hscreen hrule hfragment hread hplain with hpass | hopening
      · exact absurd hpass hunseen
      · exact .inl hopening
    · obtain ⟨c, hc⟩ := Classical.not_forall.mp hplain
      obtain ⟨hmem, hforeign⟩ := Classical.not_imp.mp hc
      exact .inr ⟨rule, hrule, pre, text, post, hfragment, hread, c, hmem,
        Classical.not_not.mp hforeign⟩

/-- **The screen is an optimisation but for two slips.**  The built-in catalog answers with the
first rule that matches on exactly those fragments that do not slip through, and on exactly
those does the screen pass on what some rule matches. -/
theorem isFirstHit_builtin_iff (fragment : String) : ∃ catalog, builtin = .ok catalog ∧
    (catalog.IsFirstHit fragment (catalog.findMatch? fragment) ↔ ¬ catalog.Slips fragment) ∧
    ((∀ rule ∈ catalog.rules, rule.Matches fragment → catalog.screens fragment = true) ↔
      ¬ catalog.Slips fragment) := by
  obtain ⟨catalog, hbuiltin, hrules, hscreen⟩ := exists_builtin
  have hpass := @screens_iff_not_slips catalog fragment hrules hscreen
  exact ⟨catalog, hbuiltin, isFirstHit_findMatch?_iff.trans hpass, hpass⟩

/-- The two slips: the catalog finds nothing in a fragment with an opening comment, nor in one
that writes `insert` with a long s, though a rule matches each of them. -/
theorem not_isFirstHit_builtin : ∃ catalog, builtin = .ok catalog ∧
    ∀ fragment ∈ ["a /* b", "in\u017fert into users"],
      catalog.findMatch? fragment = none ∧
        ¬ catalog.IsFirstHit fragment (catalog.findMatch? fragment) := by
  obtain ⟨catalog, hbuiltin, hrules, hscreen⟩ := exists_builtin
  refine ⟨catalog, hbuiltin, fun fragment hfragment => ?_⟩
  have hunseen : catalog.screens fragment = false := by
    have hnone : ∀ text ∈ builtinRules.flatMap (·.keywords),
        ∀ fragment ∈ ["a /* b", "in\u017fert into users"],
          ¬ (Screen.Keyword.ofText text).Hits fragment := by
      decide +kernel
    rw [Bool.eq_false_iff, screens, hscreen]
    intro hhits
    obtain ⟨text, htext, hkeyword⟩ := Screen.hits_ofKeywords.mp hhits
    exact hnone text htext fragment hfragment hkeyword
  have hmatch : ∃ settings ∈ builtinRules, ∃ rule,
      readRule settings = .ok rule ∧ rule.Matches fragment := by
    simp only [List.mem_cons, List.not_mem_nil, or_false] at hfragment
    rcases hfragment with rfl | rfl
    · exact exists_rule_of_opening ⟨['a', ' '], [' ', 'b'], by decide +kernel⟩
    · let insertion := "\\b(insert\\s+into|delete\\s+from|update\\s+[\\w.]+\\s+set|merge\\s+into)\\b"
      obtain ⟨settings, hsettings, hpattern⟩ :
          ∃ settings ∈ builtinRules, settings.pattern = insertion := by decide +kernel
      obtain ⟨-, pattern, hparse, -⟩ := builtinRules_covered settings hsettings
      have hfind : ∀ pattern, Pattern.parse? insertion = some pattern →
          (pattern.find? "in\u017fert into users").isSome := by decide +kernel
      rw [← hpattern] at hfind
      exact exists_rule_of_occurs hsettings hparse
        (Pattern.find?_isSome_iff.mp (hfind pattern hparse))
  obtain ⟨settings, hsettings, rule, hrule, hmatches⟩ := hmatch
  constructor
  · rw [findMatch?, hunseen]
    rfl
  · intro hfirst
    have hpass := isFirstHit_findMatch?_iff.mp hfirst rule
      (Checks.mem_mapM_of_ok hrules hsettings hrule) hmatches
    rw [hunseen] at hpass
    cases hpass

end QueryScript.Catalog
