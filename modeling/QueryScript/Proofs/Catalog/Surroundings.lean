import QueryScript.Proofs.Catalog.BuiltinScreen
import QueryScript.Proofs.Pattern.Surroundings

/-!
# Nothing is hidden by text around it

A fragment is set into a longer text, with a blank before it and a blank after it.  Its
tokens are still tokens there and its pieces still pieces, so that what hits it hits
the longer text; and no word character touches it, so that a local pattern that
occurs in it occurs in the longer text.  All built-in rules are local
(`builtinRules_local`), and whatever the built-in catalog finds something in, it finds
something in with any text around it.
-/

namespace QueryScript

namespace Screen

variable {keyword : Keyword} {screen : Screen}

/-- The tokens between two separators are tokens of the whole. -/
theorem mem_tokens_surround {c d : Char} (hc : Text.isAsciiWord c = false)
    (hd : Text.isAsciiWord d = false) {token cs : List Char} (front back : List Char)
    (h : token ∈ tokens cs) : token ∈ tokens (front ++ c :: (cs ++ d :: back)) := by
  have hc : (!Text.isAsciiWord c) = true := by rw [hc]; rfl
  have hd : (!Text.isAsciiWord d) = true := by rw [hd]; rfl
  unfold tokens at h ⊢
  rw [Text.tokens_append_separator hc, Text.tokens_append_separator hd]
  exact List.mem_append_right _ (List.mem_append_left _ h)

/-- The characters of a fragment between two blanks. -/
theorem toList_surround (pre s post : String) :
    (pre ++ " " ++ s ++ " " ++ post).toList =
      pre.toList ++ [' '] ++ s.toList ++ ([' '] ++ post.toList) := by
  simp only [String.toList_append, List.append_assoc]
  rfl

theorem toLower_surround (pre s post : String) :
    (pre ++ " " ++ s ++ " " ++ post).toList.map Char.toLower =
      pre.toList.map Char.toLower ++
        ' ' :: (s.toList.map Char.toLower ++ ' ' :: post.toList.map Char.toLower) := by
  rw [toList_surround]
  simp only [List.map_append, List.append_assoc]
  rfl

/-- A keyword that hits a fragment hits it between two blanks. -/
theorem Keyword.Hits.surround {s : String} (h : keyword.Hits s) (pre post : String) :
    keyword.Hits (pre ++ " " ++ s ++ " " ++ post) := by
  have hblank : Text.isAsciiWord ' ' = false := by decide
  cases keyword with
  | blank => cases h
  | word w =>
    unfold Keyword.Hits at h ⊢
    rw [toLower_surround]
    exact mem_tokens_surround hblank hblank _ _ h
  | stem st =>
    obtain ⟨token, htoken, hbegins⟩ := h
    unfold Keyword.Hits
    rw [toLower_surround]
    exact ⟨token, mem_tokens_surround hblank hblank _ _ htoken, hbegins⟩
  | marker m =>
    unfold Keyword.Hits at h ⊢
    rw [toLower_surround]
    have hinner := h.trans (List.prefix_append _ (' ' :: post.toList.map Char.toLower)).isInfix
    exact (hinner.trans (List.suffix_cons ' ' _).isInfix).trans (List.suffix_append _ _).isInfix

theorem hits_surround {s : String} (h : screen.hits s = true) (pre post : String) :
    screen.hits (pre ++ " " ++ s ++ " " ++ post) = true := by
  obtain ⟨keyword, hlists, hhits⟩ := hits_iff.mp h
  exact hits_iff.mpr ⟨keyword, hlists, hhits.surround pre post⟩

end Screen

/-- A rule with a local pattern that matches a fragment matches it between two blanks. -/
theorem Rule.Matches.surround {rule : Rule} (hlocal : rule.pattern.isLocal = true) {s : String}
    (h : rule.Matches s) (pre post : String) :
    rule.Matches (pre ++ " " ++ s ++ " " ++ post) := by
  have hfront : Pattern.isWordAt (pre.toList ++ [' ']).getLast? = false := by
    rw [List.getLast?_concat]
    decide
  have hback : Pattern.isWordAt ([' '] ++ post.toList).head? = false := by
    rw [List.singleton_append, List.head?_cons]
    decide
  unfold Rule.Matches
  rw [Screen.toList_surround]
  exact Pattern.Occurs.surround hlocal hfront hback h

namespace Catalog

/-- Rules with local patterns find something wherever they find something in a part between
two blanks. -/
theorem isSome_findMatch?_surround {catalog : Catalog}
    (hlocal : ∀ rule ∈ catalog.rules, rule.pattern.isLocal = true) {s : String}
    (h : (catalog.findMatch? s).isSome) (pre post : String) :
    (catalog.findMatch? (pre ++ " " ++ s ++ " " ++ post)).isSome := by
  obtain ⟨hscreens, rule, hrule, hmatches⟩ := findMatch?_isSome_iff.mp h
  refine findMatch?_isSome_iff.mpr ⟨Screen.hits_surround hscreens pre post, rule, hrule, ?_⟩
  exact hmatches.surround (hlocal rule hrule) pre post

/-! ## The built-in rules are local -/

/-- Whether the pattern that the characters write is local, if they write one. -/
def localChars (cs : List Char) : Bool :=
  ((Pattern.Reader.run .start cs).bind Pattern.Reader.finish).all (·.isLocal)

theorem isLocal_of_chars {text : String} {cs : List Char} (htext : text = String.ofList cs)
    (h : localChars cs = true) : ∀ pattern ∈ Pattern.parse? text, pattern.isLocal = true := by
  intro pattern hpattern
  rw [Pattern.parse?, htext, String.toList_ofList] at hpattern
  unfold localChars at h
  rw [hpattern] at h
  exact h

theorem builtinRules_local : ∀ settings ∈ builtinRules,
    ∀ pattern ∈ Pattern.parse? settings.pattern, pattern.isLocal = true := by
  simp only [builtinRules, List.forall_mem_cons, List.not_mem_nil, false_implies,
    implies_true, and_true]
  and_intros
  -- a pattern is written as one text or as two
  all_goals first
    | exact isLocal_of_chars rfl (by decide +kernel)
    | exact isLocal_of_chars String.ofList_append.symm (by decide +kernel)

/-- **Nothing is hidden by text around it.**  Whatever the built-in catalog finds something in,
it finds something in with a blank and any text before it, and a blank and any text after it;
and each rule that matches the fragment matches the whole. -/
theorem builtin_surround : ∃ catalog, builtin = .ok catalog ∧ ∀ pre s post : String,
    ((catalog.findMatch? s).isSome →
      (catalog.findMatch? (pre ++ " " ++ s ++ " " ++ post)).isSome) ∧
    ∀ rule ∈ catalog.rules, rule.Matches s → rule.Matches (pre ++ " " ++ s ++ " " ++ post) := by
  obtain ⟨catalog, hbuiltin, hrules, -⟩ := exists_builtin
  have hlocal : ∀ rule ∈ catalog.rules, rule.pattern.isLocal = true := by
    intro rule hrule
    obtain ⟨settings, hsettings, hread⟩ := Checks.exists_of_mem_mapM hrules hrule
    exact builtinRules_local settings hsettings _ (parse?_of_readRule hread)
  refine ⟨catalog, hbuiltin, fun pre s post => ⟨?_, ?_⟩⟩
  · intro h
    exact isSome_findMatch?_surround hlocal h pre post
  · intro rule hrule hmatches
    exact hmatches.surround (hlocal rule hrule) pre post

/-- A number in hexadecimal notation is found where it stands alone, with a word boundary at
either end, and found again inside a comparison. -/
theorem builtin_surround_hexNumber : ∃ catalog, builtin = .ok catalog ∧
    (catalog.findMatch? "0xFF").isSome ∧ (catalog.findMatch? "id = 0xFF or 1").isSome := by
  obtain ⟨catalog, hbuiltin, hsurround⟩ := builtin_surround
  obtain ⟨settings, hsettings, hkeyword, hpattern⟩ : ∃ settings ∈ builtinRules,
      "0x*" ∈ settings.keywords ∧ settings.pattern = "\\b0x[0-9a-f]+\\b" := by decide +kernel
  have hhits : (Screen.Keyword.ofText "0x*").Hits "0xFF" := by decide +kernel
  have hfind : ∀ pattern ∈ Pattern.parse? "\\b0x[0-9a-f]+\\b", (pattern.find? "0xFF").isSome := by
    decide +kernel
  obtain ⟨rule, hread⟩ := exists_readRule hsettings
  have hparse := parse?_of_readRule hread
  rw [hpattern] at hparse
  have hfinds : (catalog.findMatch? "0xFF").isSome :=
    isSome_findMatch?_of_mem hbuiltin hsettings hkeyword hhits hread
      (Pattern.find?_isSome_iff.mp (hfind _ hparse))
  refine ⟨catalog, hbuiltin, hfinds, ?_⟩
  have hwhole : "id =" ++ " " ++ "0xFF" ++ " " ++ "or 1" = "id = 0xFF or 1" := by decide +kernel
  rw [← hwhole]
  exact (hsurround "id =" "0xFF" "or 1").1 hfinds

end Catalog

end QueryScript
