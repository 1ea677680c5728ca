import QueryScript.Catalog.Basic
import QueryScript.Proofs.Pattern.Reading

/-!
# The first rule that matches

What a catalog should answer for a fragment is said without its screen: the first rule
in catalog order whose pattern occurs in the fragment, and nothing when there is none
(`IsFirstHit`).  The search over the rules does answer that (`isFirstHit_search`), so
that the screen before it is to blame for every other answer: `findMatch?` is right
exactly on the fragments that pass the screen or that no rule matches
(`isFirstHit_findMatch?_iff`).
-/

namespace QueryScript

/-- The rule's pattern occurs somewhere in the fragment. -/
def Rule.Matches (rule : Rule) (fragment : String) : Prop :=
  rule.pattern.Occurs fragment.toList

namespace Catalog

/-- The answer is the first rule that matches the fragment, with the text that its pattern
finds there, or it is `none` and no rule matches. -/
def IsFirstHit (catalog : Catalog) (fragment : String) : Option Hit → Prop
  | none => ∀ rule ∈ catalog.rules, ¬ rule.Matches fragment
  | some hit => ∃ before rule after, catalog.rules = before ++ rule :: after ∧
      (∀ earlier ∈ before, ¬ earlier.Matches fragment) ∧ rule.Matches fragment ∧
      hit? fragment rule = some hit

/-- A rule has a hit exactly if it matches. -/
theorem hit?_isSome_iff {fragment : String} {rule : Rule} :
    (hit? fragment rule).isSome ↔ rule.Matches fragment := by
  rw [hit?, Option.isSome_map, Pattern.find?_isSome_iff, Rule.Matches]

theorem hit?_eq_none_iff {fragment : String} {rule : Rule} :
    hit? fragment rule = none ↔ ¬ rule.Matches fragment := by
  rw [← hit?_isSome_iff, Option.not_isSome_iff_eq_none]

/-- A catalog finds something in a fragment exactly when its screen lets the fragment pass and
some rule matches it. -/
theorem findMatch?_isSome_iff {catalog : Catalog} {fragment : String} :
    (catalog.findMatch? fragment).isSome ↔
      catalog.screens fragment = true ∧ ∃ rule ∈ catalog.rules, rule.Matches fragment := by
  rw [findMatch?]
  split
  next hscreens =>
    rw [List.findSome?_isSome_iff, hscreens, eq_self, true_and]
    simp only [hit?_isSome_iff]
  next hscreens =>
    rw [Option.isSome_none]
    exact ⟨nofun, fun h => absurd h.1 hscreens⟩

/-- The search over the rules answers with the first one that matches. -/
theorem isFirstHit_search (catalog : Catalog) (fragment : String) :
    catalog.IsFirstHit fragment (catalog.rules.findSome? (hit? fragment)) := by
  cases hsearch : catalog.rules.findSome? (hit? fragment) with
  | none =>
    intro rule hrule
    exact hit?_eq_none_iff.mp (List.findSome?_eq_none_iff.mp hsearch rule hrule)
  | some hit =>
    obtain ⟨before, rule, after, hrules, hhit, hbefore⟩ :=
      List.findSome?_eq_some_iff.mp hsearch
    refine ⟨before, rule, after, hrules, ?_, ?_, hhit⟩
    · intro earlier hearlier
      exact hit?_eq_none_iff.mp (hbefore earlier hearlier)
    · rw [← hit?_isSome_iff, hhit]
      rfl

/-- The screen does no harm exactly where it lets the fragment pass or no rule matches. -/
theorem isFirstHit_findMatch?_iff {catalog : Catalog} {fragment : String} :
    catalog.IsFirstHit fragment (catalog.findMatch? fragment) ↔
      ∀ rule ∈ catalog.rules, rule.Matches fragment → catalog.screens fragment = true := by
  rw [findMatch?]
  split
  next hscreens =>
    constructor
    · intro _ _ _ _
      exact hscreens
    · intro _
      exact isFirstHit_search catalog fragment
  next hscreens =>
    constructor
    · intro hnone rule hrule hmatches
      exact absurd hmatches (hnone rule hrule)
    · intro h rule hrule hmatches
      exact hscreens (h rule hrule hmatches)

end Catalog

end QueryScript
