import QueryScript.Proofs.Catalog.FirstHit
import QueryScript.Proofs.Catalog.Keywords
import QueryScript.Proofs.Checks

/-!
# Catalogs by what they are configured from

A catalog has a rule for each of its settings, and one screen for the keywords of all
of them (`ofSettings_eq_ok_iff`).  The screen is the part that rules share, so a rule
may find something by the keyword of another; but further rules take no keyword away,
and the catalog with more rules finds something wherever the one with fewer does
(`findMatch?_mono`).
-/

namespace QueryScript.Catalog

variable {settings : List RuleSettings} {catalog : Catalog} {fragment : String}

/-- A rule has the pattern that its settings write. -/
theorem parse?_of_readRule {own : RuleSettings} {rule : Rule} (h : readRule own = .ok rule) :
    Pattern.parse? own.pattern = some rule.pattern := by
  unfold readRule at h
  split at h
  · cases h
  · split at h
    next pattern hparse =>
      cases h
      exact hparse
    next => cases h

/-- A catalog is read exactly when each of its rules is, and their keywords make up its
screen. -/
theorem ofSettings_eq_ok_iff : ofSettings settings = .ok catalog ↔
    settings.mapM readRule = .ok catalog.rules ∧
      catalog.screen = Screen.ofKeywords (settings.flatMap (·.keywords)) := by
  rw [ofSettings, Checks.bind_eq_ok]
  constructor
  · intro h
    obtain ⟨rules, hrules, hpure⟩ := h
    cases hpure
    exact ⟨hrules, rfl⟩
  · intro h
    obtain ⟨hrules, hscreen⟩ := h
    obtain ⟨rules, screen⟩ := catalog
    cases hscreen
    exact ⟨rules, hrules, rfl⟩

/-- Rules that can be read make a catalog. -/
theorem exists_ofSettings (h : ∀ s ∈ settings, ∃ rule, readRule s = .ok rule) :
    ∃ catalog, ofSettings settings = .ok catalog := by
  obtain ⟨rules, hrules⟩ := Checks.exists_mapM_eq_ok h
  exact ⟨⟨rules, _⟩, ofSettings_eq_ok_iff.mpr ⟨hrules, rfl⟩⟩

/-- A rule that matches, and whose keyword hits, makes the catalog find something. -/
theorem isSome_findMatch?_of_mem (hcatalog : ofSettings settings = .ok catalog)
    {own : RuleSettings} (hown : own ∈ settings) {keyword : String}
    (hkeyword : keyword ∈ own.keywords) (hhits : (Screen.Keyword.ofText keyword).Hits fragment)
    {rule : Rule} (hrule : readRule own = .ok rule) (hmatches : rule.Matches fragment) :
    (catalog.findMatch? fragment).isSome := by
  obtain ⟨hrules, hscreen⟩ := ofSettings_eq_ok_iff.mp hcatalog
  rw [findMatch?_isSome_iff, screens, hscreen, Screen.hits_ofKeywords]
  constructor
  · exact ⟨keyword, List.mem_flatMap.mpr ⟨own, hown, hkeyword⟩, hhits⟩
  · exact ⟨rule, Checks.mem_mapM_of_ok hrules hown hrule, hmatches⟩

/-- **More rules find no less.** -/
theorem findMatch?_mono {few many : List RuleSettings} (h : few ⊆ many) {lax strict : Catalog}
    (hlax : ofSettings few = .ok lax) (hstrict : ofSettings many = .ok strict)
    (hfinds : (lax.findMatch? fragment).isSome) : (strict.findMatch? fragment).isSome := by
  obtain ⟨hrules, hscreen⟩ := ofSettings_eq_ok_iff.mp hlax
  obtain ⟨hrules', hscreen'⟩ := ofSettings_eq_ok_iff.mp hstrict
  obtain ⟨hhits, rule, hrule, hmatches⟩ := findMatch?_isSome_iff.mp hfinds
  obtain ⟨own, hown, hread⟩ := Checks.exists_of_mem_mapM hrules hrule
  refine findMatch?_isSome_iff.mpr ⟨?_, rule, ?_, hmatches⟩
  · rw [screens, hscreen] at hhits
    rw [screens, hscreen']
    refine Screen.hits_ofKeywords_mono ?_ hhits
    intro keyword hkeyword
    obtain ⟨s, hs, hkeyword⟩ := List.mem_flatMap.mp hkeyword
    exact List.mem_flatMap.mpr ⟨s, h hs, hkeyword⟩
  · exact Checks.mem_mapM_of_ok hrules' (h hown) hread

end QueryScript.Catalog
