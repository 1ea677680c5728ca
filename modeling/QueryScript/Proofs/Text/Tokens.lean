import QueryScript.Catalog.Screen
import QueryScript.Proofs.Text.Cutting

/-!
# Tokens and pieces of a text

The screen sees a fragment as tokens, a pattern sees it as pieces one after the
other.  The bridge between the two: a run of ASCII word characters with no such
character on either side is a token (`mem_tokens`), and one with none before it
begins a token (`prefix_mem_tokens`).  Nothing else is a token (`mem_tokens_iff`).
`occursIn` is the library's relation `<:+:` (`occursIn_iff`).
-/

namespace QueryScript.Text

/-- The search for a piece of a text finds it exactly if it is one. -/
theorem occursIn_iff {needle : List Char} :
    ∀ {hay : List Char}, occursIn needle hay = true ↔ needle <:+: hay := by
  intro hay
  induction hay with
  | nil => rw [occursIn, List.isEmpty_iff, List.infix_nil]
  | cons c cs ih =>
    rw [occursIn, Bool.or_eq_true, List.isPrefixOf_iff_prefix, ih, List.infix_cons_iff]

/-- A separator ends a token, so that both sides are cut on their own. -/
theorem tokens_append_separator {p : Char → Bool} {c : Char} (hc : p c = true)
    (cs ds : List Char) : tokens p (cs ++ c :: ds) = tokens p cs ++ tokens p ds := by
  rw [tokens, splitChars_append_separator hc, List.filter_append]
  rfl

/-- A text without separators is one token, unless it is empty. -/
theorem tokens_of_no_separator {p : Char → Bool} {cs : List Char}
    (h : ∀ c ∈ cs, p c = false) (hne : cs ≠ []) : tokens p cs = [cs] := by
  rw [tokens, splitChars_of_no_separator h, List.filter_cons_of_pos (by simpa using hne),
    List.filter_nil]

end QueryScript.Text

namespace QueryScript.Screen

open QueryScript.Text (isAsciiWord)

/-- A word: one ASCII word character or more. -/
def IsWord (cs : List Char) : Prop :=
  cs ≠ [] ∧ ∀ c ∈ cs, isAsciiWord c = true

instance (cs : List Char) : Decidable (IsWord cs) :=
  decidable_of_iff (cs ≠ [] ∧ cs.all isAsciiWord = true) (by rw [IsWord, List.all_eq_true])

/-- A word in a text that is as long as it can be: no word character stands on either side. -/
def IsLongestWord (word cs : List Char) : Prop :=
  IsWord word ∧ ∃ pre post, cs = pre ++ word ++ post ∧
    (∀ c ∈ pre.getLast?, isAsciiWord c = false) ∧ ∀ c ∈ post.head?, isAsciiWord c = false

/-- A word that begins a piece of a text and has no word character after it is a token. -/
theorem mem_tokens_of_start {word post : List Char} (hne : word ≠ [])
    (hword : ∀ c ∈ word, isAsciiWord c = true)
    (hpost : ∀ c ∈ post.head?, isAsciiWord c = false) : word ∈ tokens (word ++ post) := by
  have hsep : ∀ c ∈ word, (!isAsciiWord c) = false := fun c hc => by rw [hword c hc]; rfl
  cases post with
  | nil =>
    rw [List.append_nil, tokens, Text.tokens_of_no_separator hsep hne]
    exact List.mem_singleton.mpr rfl
  | cons c post =>
    have hc : (!isAsciiWord c) = true := by rw [hpost c rfl]; rfl
    rw [tokens, Text.tokens_append_separator hc, Text.tokens_of_no_separator hsep hne]
    exact List.mem_append_left _ (List.mem_singleton.mpr rfl)

/-- A word with no word character on either side is a token. -/
theorem mem_tokens {pre word post : List Char} (hne : word ≠ [])
    (hpre : ∀ c ∈ pre.getLast?, isAsciiWord c = false)
    (hword : ∀ c ∈ word, isAsciiWord c = true)
    (hpost : ∀ c ∈ post.head?, isAsciiWord c = false) :
    word ∈ tokens (pre ++ word ++ post) := by
  rcases List.eq_nil_or_concat pre with rfl | ⟨front, c, rfl⟩
  · rw [List.nil_append]
    exact mem_tokens_of_start hne hword hpost
  · rw [List.concat_eq_append] at hpre ⊢
    have hc : (!isAsciiWord c) = true := by
      rw [hpre c (by rw [List.getLast?_concat]; rfl)]; rfl
    rw [List.append_assoc, List.append_assoc, List.singleton_append,
      tokens, Text.tokens_append_separator hc]
    exact List.mem_append_right _ (mem_tokens_of_start hne hword hpost)

/-- The tokens of a text are the longest words in it. -/
theorem mem_tokens_iff {token cs : List Char} : token ∈ tokens cs ↔ IsLongestWord token cs := by
  constructor
  · intro h
    obtain ⟨hpiece, hne⟩ := List.mem_filter.mp h
    obtain ⟨pre, post, hsplit, hword, hpre, hpost⟩ := Text.bounds_of_mem_splitChars hpiece
    simp only [Bool.not_eq_true', Bool.not_eq_false'] at hword hpre hpost
    exact ⟨⟨of_decide_eq_true hne, hword⟩, pre, post, hsplit, hpre, hpost⟩
  · intro h
    obtain ⟨⟨hne, hword⟩, pre, post, rfl, hpre, hpost⟩ := h
    exact mem_tokens hne hpre hword hpost

/-- A word with no word character before it begins a token. -/
theorem prefix_mem_tokens {pre word post : List Char} (hne : word ≠ [])
    (hpre : ∀ c ∈ pre.getLast?, isAsciiWord c = false)
    (hword : ∀ c ∈ word, isAsciiWord c = true) :
    ∃ rest, word ++ rest ∈ tokens (pre ++ word ++ post) := by
  -- the token goes on through the word characters that follow
  refine ⟨post.takeWhile isAsciiWord, ?_⟩
  have hsplit : pre ++ word ++ post
      = pre ++ (word ++ post.takeWhile isAsciiWord) ++ post.dropWhile isAsciiWord := by
    rw [List.append_assoc, List.append_assoc, List.append_assoc,
      List.takeWhile_append_dropWhile]
  rw [hsplit]
  refine mem_tokens ?_ hpre ?_ ?_
  · intro h
    exact hne (List.append_eq_nil_iff.mp h).1
  · intro c hc
    rcases List.mem_append.mp hc with hc | hc
    · exact hword c hc
    · exact List.all_eq_true.mp List.all_takeWhile c hc
  · intro c hc
    have hhead := List.head?_dropWhile_not isAsciiWord post
    rw [Option.mem_def.mp hc] at hhead
    exact hhead

end QueryScript.Screen
