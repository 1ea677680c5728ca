import QueryScript.Proofs.Catalog.BuiltinScreen
import QueryScript.Proofs.Pattern.LetterCase

/-!
# Letter case is no way past the catalog

The screen looks at a fragment in small letters, and a pattern does not distinguish a
letter from its small letter.  So a catalog answers to a fragment in small letters what
it answers to the fragment, with the matched text in small letters (`findMatch?_lower`);
and two fragments that are the same in small letters get the same answer, whatever the
rules are.
-/

namespace QueryScript

/-- The answer with the matched text in small letters. -/
def Hit.lower (hit : Hit) : Hit :=
  { hit with matched := Text.lower hit.matched }

namespace Catalog

variable {catalog : Catalog} {a b fragment : String}

/-- A catalog treats two fragments alike: it lets both or neither past its screen, each rule
matches both or neither, and what it reports is the same up to the case of the matched text. -/
structure AnswersAlike (catalog : Catalog) (a b : String) : Prop where
  screens : catalog.screens a = catalog.screens b
  rules : ∀ rule ∈ catalog.rules, rule.Matches a ↔ rule.Matches b
  found : (catalog.findMatch? a).map Hit.lower = (catalog.findMatch? b).map Hit.lower

/-- Keywords are searched in small letters anyway. -/
theorem screens_lower : catalog.screens (Text.lower fragment) = catalog.screens fragment := by
  unfold screens Screen.hits
  rw [Text.toList_lower, Text.map_toLower_map_toLower]

theorem hit?_lower {rule : Rule} :
    hit? (Text.lower fragment) rule = (hit? fragment rule).map Hit.lower := by
  rw [hit?, hit?, Pattern.find?_lower, Option.map_map, Option.map_map]
  rfl

/-- A rule matches a fragment if it does in small letters. -/
theorem matches_lower {rule : Rule} :
    rule.Matches (Text.lower fragment) ↔ rule.Matches fragment := by
  rw [← hit?_isSome_iff, hit?_lower, Option.isSome_map, hit?_isSome_iff]

/-- The first rule that matches is the same, and its hit is the same piece. -/
theorem findMatch?_lower :
    catalog.findMatch? (Text.lower fragment) = (catalog.findMatch? fragment).map Hit.lower := by
  have hsearch : catalog.rules.findSome? (hit? (Text.lower fragment)) =
      (catalog.rules.findSome? (hit? fragment)).map Hit.lower := by
    have hrule : hit? (Text.lower fragment) = Option.map Hit.lower ∘ hit? fragment :=
      funext fun _ => hit?_lower
    rw [List.map_findSome?, hrule]
  rw [findMatch?, findMatch?, screens_lower, hsearch]
  split
  · rfl
  · rfl

/-- Whatever the rules are, fragments that are the same in small letters are treated alike. -/
theorem answersAlike_of_lower_eq (h : Text.lower a = Text.lower b) : catalog.AnswersAlike a b where
  screens := by rw [← screens_lower, h, screens_lower]
  rules rule _ := by rw [← matches_lower, h, matches_lower]
  found := by rw [← findMatch?_lower, h, findMatch?_lower]

/-- **Letter case is no way past the catalog.**  Two fragments that differ in the case of ASCII
letters only are treated alike by the built-in catalog, and by every catalog that has further
rules after the built-in ones. -/
theorem builtin_ignoresCase (h : Text.eqIgnoreCase a b = true) :
    (∃ catalog, builtin = .ok catalog ∧ catalog.AnswersAlike a b) ∧
      ∀ extra catalog, withExtra extra = .ok catalog → catalog.AnswersAlike a b := by
  have hlower := Text.eqIgnoreCase_iff.mp h
  constructor
  · obtain ⟨catalog, hbuiltin, -⟩ := exists_builtin
    exact ⟨catalog, hbuiltin, answersAlike_of_lower_eq hlower⟩
  · intro extra catalog _
    exact answersAlike_of_lower_eq hlower

/-- A rule of a deployment's own, against changing the tenant. -/
def tenantSwitch : RuleSettings :=
  ⟨.custom "tenancy", "tenant_switch", "\\bset\\s+tenant_[a-f]+\\b", ["Tenant_*"]⟩

/-- The catalog with that rule finds a change of tenant, and finds it in the other case too. -/
theorem tenantSwitch_ignoresCase :
    Text.eqIgnoreCase "SET Tenant_ABBA" "set tENANT_abba" = true ∧
      ∃ catalog, withExtra [tenantSwitch] = .ok catalog ∧
        (catalog.findMatch? "SET Tenant_ABBA").isSome ∧
        catalog.AnswersAlike "SET Tenant_ABBA" "set tENANT_abba" := by
  have h : Text.eqIgnoreCase "SET Tenant_ABBA" "set tENANT_abba" = true := by decide +kernel
  obtain ⟨rule, hrule, hfinds⟩ : ∃ rule ∈ (readRule tenantSwitch).toOption,
      (rule.pattern.find? "SET Tenant_ABBA").isSome := by decide +kernel
  have hrule := Checks.eq_ok_of_mem_toOption hrule
  have hkeyword : (Screen.Keyword.ofText "Tenant_*").Hits "SET Tenant_ABBA" := by decide +kernel
  have hread : ∀ settings ∈ builtinRules ++ [tenantSwitch],
      ∃ rule, readRule settings = .ok rule := by
    intro settings hsettings
    rcases List.mem_append.mp hsettings with hbuiltin | hown
    · exact exists_readRule hbuiltin
    · obtain rfl := List.mem_singleton.mp hown
      exact ⟨rule, hrule⟩
  have hlast : tenantSwitch ∈ builtinRules ++ [tenantSwitch] :=
    List.mem_append_right _ (List.mem_singleton.mpr rfl)
  obtain ⟨catalog, hcatalog⟩ := exists_ofSettings hread
  refine ⟨h, catalog, hcatalog, ?_, (builtin_ignoresCase h).2 _ _ hcatalog⟩
  exact isSome_findMatch?_of_mem hcatalog hlast (List.mem_singleton.mpr rfl) hkeyword hrule
    (Pattern.find?_isSome_iff.mp hfinds)

end Catalog

end QueryScript
