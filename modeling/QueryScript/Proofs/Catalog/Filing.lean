import QueryScript.Proofs.Catalog.Settings

/-!
# How keywords are filed

By its form a keyword is meant to hit one of three things: a word hits where it is a token, a word
with a `*` after it hits where it begins one, and all else hits where it occurs
(`Keyword.MeantFor`).

The screen files a keyword by its last character first, and whatever ends in `*` becomes a stem.
That is as it is meant where a word stands before the `*`.  Elsewhere the keyword is misfiled
(`Keyword.Misfiled`): its stem begins no token, so it hits nothing wherever it occurs; only the
keyword `*`, of which no stem is left, hits all that has a token (`Keyword.hits_of_misfiled`).

So a catalog without such keywords screens as it is meant to (`screens_iff_meantFor`).  With them it
does so on a fragment where they make no difference (`screens_iff_meantFor_iff`).
-/

namespace QueryScript.Screen

/-- A fragment as the screen reads it, in small letters. -/
def lowered (fragment : String) : List Char :=
  fragment.toList.map Char.toLower

namespace Keyword

/-- A keyword as the screen reads it: without the white space at its ends, in small letters. -/
def written (text : String) : List Char :=
  (Text.trimChars text.toList).map Char.toLower

/-- What a keyword is meant to hit.  A word is meant for the fragments in which it is a token, a
word with a `*` after it for those in which it begins a token, and anything else for those in which
it occurs. -/
inductive MeantFor (fragment : String) (cs : List Char) : Prop where
  | word (hform : IsWord cs) (hits : IsLongestWord cs (lowered fragment))
  | stem {st token : List Char} (hform : IsWord st) (hstar : cs = st ++ ['*'])
      (htoken : IsLongestWord token (lowered fragment)) (hits : st <+: token)
  | marker (hne : cs ≠ []) (hword : ¬ IsWord cs) (hstem : ∀ st, IsWord st → cs ≠ st ++ ['*'])
      (hits : cs <:+: lowered fragment)

/-- A keyword that ends in `*`, with something other than a word before it. -/
def Misfiled (cs : List Char) : Prop :=
  cs.getLast? = some '*' ∧ ¬ IsWord cs.dropLast

instance (cs : List Char) : Decidable (Misfiled cs) :=
  inferInstanceAs (Decidable (_ ∧ _))

variable {fragment text : String} {cs st : List Char}

/-! ## The three forms -/

theorem not_isWord_star : ¬ IsWord (st ++ ['*']) := by
  intro h
  have hstar := h.2 '*' (List.mem_append_right _ (List.mem_singleton.mpr rfl))
  revert hstar
  decide

theorem meantFor_of_isWord (h : IsWord cs) :
    MeantFor fragment cs ↔ cs ∈ tokens (lowered fragment) := by
  rw [mem_tokens_iff]
  constructor
  · intro hmeant
    cases hmeant with
    | word _ hits => exact hits
    | stem _ hstar => exact absurd (hstar ▸ h) not_isWord_star
    | marker _ hword => exact absurd h hword
  · exact .word h

theorem meantFor_star (h : IsWord st) :
    MeantFor fragment (st ++ ['*']) ↔ ∃ token ∈ tokens (lowered fragment), st <+: token := by
  constructor
  · intro hmeant
    cases hmeant with
    | word hform => exact absurd hform not_isWord_star
    | stem _ hstar htoken hits =>
      rw [← List.append_cancel_right hstar] at hits
      exact ⟨_, mem_tokens_iff.mpr htoken, hits⟩
    | marker _ _ hstem => exact absurd rfl (hstem st h)
  · intro hbegins
    obtain ⟨token, htoken, hits⟩ := hbegins
    exact .stem h rfl (mem_tokens_iff.mp htoken) hits

/-- All that is neither a word nor a word with a `*` after it is meant to occur. -/
theorem meantFor_of_other (hne : cs ≠ []) (hword : ¬ IsWord cs)
    (hstem : ∀ st, IsWord st → cs ≠ st ++ ['*']) :
    MeantFor fragment cs ↔ cs <:+: lowered fragment := by
  constructor
  · intro hmeant
    cases hmeant with
    | word hform => exact absurd hform hword
    | stem hform hstar => exact absurd hstar (hstem _ hform)
    | marker _ _ _ hits => exact hits
  · exact .marker hne hword hstem

/-- What is no word and does not end in `*` is meant to occur. -/
theorem meantFor_of_end (hne : cs ≠ []) (hword : ¬ IsWord cs) (hlast : cs.getLast? ≠ some '*') :
    MeantFor fragment cs ↔ cs <:+: lowered fragment := by
  refine meantFor_of_other hne hword fun st _ hstar => hlast ?_
  rw [hstar, List.getLast?_concat]

/-- An empty keyword is meant for nothing. -/
theorem MeantFor.ne_nil (h : MeantFor fragment cs) : cs ≠ [] := by
  cases h with
  | word hform => exact hform.1
  | stem _ hstar => exact hstar ▸ List.concat_ne_nil _ _
  | marker hne => exact hne

/-- A misfiled keyword is meant to occur. -/
theorem meantFor_of_misfiled (h : Misfiled cs) :
    MeantFor fragment cs ↔ cs <:+: lowered fragment := by
  obtain ⟨hlast, hfront⟩ := h
  obtain ⟨front, rfl⟩ := List.getLast?_eq_some_iff.mp hlast
  rw [List.dropLast_concat] at hfront
  refine meantFor_of_other (List.concat_ne_nil _ _) not_isWord_star fun st hst heq => ?_
  rw [List.append_cancel_right heq] at hfront
  exact hfront hst

/-! ## What the form makes of a keyword -/

theorem ofText_eq (text : String) : ofText text =
    if written text = [] then .blank
    else if (written text).getLast? = some '*' then .stem (String.ofList (written text).dropLast)
    else if (written text).all Text.isAsciiWord then .word (String.ofList (written text))
    else .marker (String.ofList (written text)) :=
  rfl

theorem hits_stem {front : List Char} : (stem (String.ofList front)).Hits fragment ↔
    ∃ token ∈ tokens (lowered fragment), front <+: token := by
  show (∃ token ∈ tokens (lowered fragment), (String.ofList front).toList <+: token) ↔ _
  rw [String.toList_ofList]

/-- A keyword that is not misfiled hits what it is meant for. -/
theorem hits_of_not_misfiled (h : ¬ Misfiled (written text)) :
    (ofText text).Hits fragment ↔ MeantFor fragment (written text) := by
  rw [ofText_eq]
  generalize written text = cs at h ⊢
  by_cases hne : cs = []
  · rw [if_pos hne]
    exact ⟨False.elim, fun hmeant => hmeant.ne_nil hne⟩
  rw [if_neg hne]
  by_cases hlast : cs.getLast? = some '*'
  · obtain ⟨front, rfl⟩ := List.getLast?_eq_some_iff.mp hlast
    rw [Misfiled, List.dropLast_concat] at h
    have hfront : IsWord front := Classical.byContradiction fun hfront => h ⟨hlast, hfront⟩
    rw [if_pos hlast, List.dropLast_concat, hits_stem, meantFor_star hfront]
  rw [if_neg hlast]
  by_cases hall : cs.all Text.isAsciiWord = true
  · rw [if_pos hall]
    show (String.ofList cs).toList ∈ tokens (lowered fragment) ↔ _
    rw [String.toList_ofList, meantFor_of_isWord ⟨hne, List.all_eq_true.mp hall⟩]
  · rw [if_neg hall]
    show (String.ofList cs).toList <:+: lowered fragment ↔ _
    have hword : ¬ IsWord cs := fun hword => hall (List.all_eq_true.mpr hword.2)
    rw [String.toList_ofList, meantFor_of_end hne hword hlast]

/-- A misfiled keyword hits nothing, but for `*` alone, which hits all that has a token. -/
theorem hits_of_misfiled (h : Misfiled (written text)) : (ofText text).Hits fragment ↔
    written text = ['*'] ∧ ∃ token, IsLongestWord token (lowered fragment) := by
  rw [ofText_eq]
  generalize written text = cs at h ⊢
  obtain ⟨hlast, hfront⟩ := h
  obtain ⟨front, rfl⟩ := List.getLast?_eq_some_iff.mp hlast
  rw [List.dropLast_concat] at hfront ⊢
  rw [if_neg (List.concat_ne_nil _ _), if_pos hlast, hits_stem]
  simp only [← mem_tokens_iff]
  constructor
  · intro hbegins
    obtain ⟨token, htoken, hstart⟩ := hbegins
    -- a stem that begins a token has word characters only
    have hword : ∀ c ∈ front, Text.isAsciiWord c = true :=
      fun c hc => (mem_tokens_iff.mp htoken).1.2 c (hstart.subset hc)
    have hnil : front = [] := Classical.byContradiction fun hne => hfront ⟨hne, hword⟩
    exact ⟨by rw [hnil]; rfl, token, htoken⟩
  · intro halone
    obtain ⟨hstar, token, htoken⟩ := halone
    have hnil : front = [] := List.append_left_eq_self.mp hstar
    exact ⟨token, htoken, hnil ▸ List.nil_prefix⟩

end Keyword

end QueryScript.Screen

namespace QueryScript.Catalog

open Screen (IsLongestWord lowered)
open Screen.Keyword (MeantFor Misfiled written meantFor_of_misfiled meantFor_of_end
  hits_of_misfiled hits_of_not_misfiled)

/-- The keywords of settings, as the screen reads them. -/
def keywords (settings : List RuleSettings) : List (List Char) :=
  (settings.flatMap (·.keywords)).map written

variable {settings : List RuleSettings} {catalog : Catalog} {fragment : String}

/-- A catalog screens for the keywords that are not misfiled as it is meant to, and for the keyword
`*` as if it were meant for every token. -/
theorem screens_iff (h : ofSettings settings = .ok catalog) : catalog.screens fragment = true ↔
    (∃ cs ∈ keywords settings, ¬ Misfiled cs ∧ MeantFor fragment cs) ∨
      (['*'] ∈ keywords settings ∧ ∃ token, IsLongestWord token (lowered fragment)) := by
  rw [screens, (ofSettings_eq_ok_iff.mp h).2, Screen.hits_ofKeywords]
  constructor
  · intro hhits
    obtain ⟨text, htext, hhits⟩ := hhits
    have hmem : written text ∈ keywords settings := List.mem_map_of_mem htext
    by_cases hmisfiled : Misfiled (written text)
    · obtain ⟨hstar, htoken⟩ := (hits_of_misfiled hmisfiled).mp hhits
      exact .inr ⟨hstar ▸ hmem, htoken⟩
    · exact .inl ⟨written text, hmem, hmisfiled, (hits_of_not_misfiled hmisfiled).mp hhits⟩
  · intro hmeant
    rcases hmeant with ⟨cs, hmem, hfiled, hmeant⟩ | ⟨hmem, htoken⟩
    · obtain ⟨text, htext, rfl⟩ := List.mem_map.mp hmem
      exact ⟨text, htext, (hits_of_not_misfiled hfiled).mpr hmeant⟩
    · obtain ⟨text, htext, hstar⟩ := List.mem_map.mp hmem
      have hmisfiled : Misfiled (written text) := by
        rw [hstar]
        decide
      exact ⟨text, htext, (hits_of_misfiled hmisfiled).mpr ⟨hstar, htoken⟩⟩

/-- Without misfiled keywords, a catalog screens as it is meant to. -/
theorem screens_iff_meantFor (h : ofSettings settings = .ok catalog)
    (hfiled : ∀ cs ∈ keywords settings, ¬ Misfiled cs) :
    catalog.screens fragment = true ↔ ∃ cs ∈ keywords settings, MeantFor fragment cs := by
  rw [screens_iff h]
  constructor
  · intro hscreens
    rcases hscreens with ⟨cs, hmem, -, hmeant⟩ | ⟨hstar, -⟩
    · exact ⟨cs, hmem, hmeant⟩
    · exact absurd (by decide) (hfiled _ hstar)
  · intro hmeant
    obtain ⟨cs, hmem, hmeant⟩ := hmeant
    exact .inl ⟨cs, hmem, hfiled cs hmem, hmeant⟩

/-- The keywords that are meant for a fragment are filed as they are meant to be, or they are
misfiled and occur in it. -/
theorem exists_meantFor_iff : (∃ cs ∈ keywords settings, MeantFor fragment cs) ↔
    (∃ cs ∈ keywords settings, ¬ Misfiled cs ∧ MeantFor fragment cs) ∨
      ∃ cs ∈ keywords settings, Misfiled cs ∧ cs <:+: lowered fragment := by
  constructor
  · intro hmeant
    obtain ⟨cs, hmem, hmeant⟩ := hmeant
    by_cases hmisfiled : Misfiled cs
    · exact .inr ⟨cs, hmem, hmisfiled, (meantFor_of_misfiled hmisfiled).mp hmeant⟩
    · exact .inl ⟨cs, hmem, hmisfiled, hmeant⟩
  · intro hmeant
    rcases hmeant with ⟨cs, hmem, -, hmeant⟩ | ⟨cs, hmem, hmisfiled, hoccurs⟩
    · exact ⟨cs, hmem, hmeant⟩
    · exact ⟨cs, hmem, (meantFor_of_misfiled hmisfiled).mpr hoccurs⟩

/-- **When a catalog screens as it is meant to.**  It does so on a fragment exactly if a keyword
that is not misfiled is meant for it, or the misfiled ones make no difference: one of them occurs in
the fragment just if the keyword `*` is given and the fragment has a token. -/
theorem screens_iff_meantFor_iff (h : ofSettings settings = .ok catalog) (fragment : String) :
    (catalog.screens fragment = true ↔ ∃ cs ∈ keywords settings, MeantFor fragment cs) ↔
      (∃ cs ∈ keywords settings, ¬ Misfiled cs ∧ MeantFor fragment cs) ∨
        ((['*'] ∈ keywords settings ∧ ∃ token, IsLongestWord token (lowered fragment)) ↔
          ∃ cs ∈ keywords settings, Misfiled cs ∧ cs <:+: lowered fragment) := by
  rw [screens_iff h, exists_meantFor_iff]
  by_cases hfiled : ∃ cs ∈ keywords settings, ¬ Misfiled cs ∧ MeantFor fragment cs
  · exact ⟨fun _ => .inl hfiled, fun _ => ⟨fun _ => .inl hfiled, fun _ => .inl hfiled⟩⟩
  · simp only [hfiled, false_or]

/-- A rule that is to find comments by the keywords `--` and `/*`. -/
def comments : RuleSettings :=
  ⟨.comment, "comments", "--|/\\*", ["--", "/*"]⟩

theorem exists_ofSettings_comments : ∃ catalog, ofSettings [comments] = .ok catalog := by
  refine exists_ofSettings fun own hown => ?_
  rw [List.mem_singleton.mp hown]
  exact ⟨⟨.comment, "comments", _⟩, rfl⟩

/-- A fragment that one keyword is meant for is screened as it should be, whatever is misfiled. -/
theorem screens_comments : ∃ catalog, ofSettings [comments] = .ok catalog ∧
    (catalog.screens "a -- /* b" = true ↔ ∃ cs ∈ keywords [comments], MeantFor "a -- /* b" cs) := by
  obtain ⟨catalog, hcatalog⟩ := exists_ofSettings_comments
  refine ⟨catalog, hcatalog, (screens_iff_meantFor_iff hcatalog "a -- /* b").mpr (.inl ?_)⟩
  have hoccurs : ['-', '-'] <:+: lowered "a -- /* b" :=
    ⟨['a', ' '], [' ', '/', '*', ' ', 'b'], by decide +kernel⟩
  exact ⟨['-', '-'], by decide +kernel, by decide,
    (meantFor_of_end (by decide) (by decide) (by decide)).mpr hoccurs⟩

/-- The keyword `/*` occurs in the fragment and is meant for it, and the screen does not see it. -/
theorem not_screens_comments : ∃ catalog, ofSettings [comments] = .ok catalog ∧
    (∃ cs ∈ keywords [comments], MeantFor "a /* b" cs) ∧ catalog.screens "a /* b" = false := by
  obtain ⟨catalog, hcatalog⟩ := exists_ofSettings_comments
  refine ⟨catalog, hcatalog, ?_, ?_⟩
  · refine ⟨['/', '*'], by decide +kernel, (meantFor_of_misfiled (by decide)).mpr ?_⟩
    exact ⟨['a', ' '], [' ', 'b'], by decide +kernel⟩
  · have hnone : ∀ text ∈ [comments].flatMap (·.keywords),
        ¬ (Screen.Keyword.ofText text).Hits "a /* b" := by
      decide +kernel
    rw [screens, (ofSettings_eq_ok_iff.mp hcatalog).2, Bool.eq_false_iff]
    intro hhits
    obtain ⟨text, htext, hkeyword⟩ := Screen.hits_ofKeywords.mp hhits
    exact hnone text htext hkeyword

end QueryScript.Catalog
