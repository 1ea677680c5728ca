import QueryScript.Proofs.Text.Tokens

/-!
# Keywords and what they hit

The screen keeps its keywords in three lists and looks at a fragment once for each.
Taken one at a time, a keyword hits a fragment or not (`Keyword.Hits`), and the
screen lets a fragment through to the patterns exactly when one of its keywords hits
it (`hits_iff`).  Nothing but the form of a keyword decides what it hits; that a
text is listed at all is a matter of that form alone (`lists_ofKeywords`).
-/

namespace QueryScript.Screen

/-- Whether a screen keeps a keyword. -/
def Lists (screen : Screen) : Keyword → Prop
  | .blank => False
  | .word w => w ∈ screen.words
  | .stem st => st ∈ screen.stems
  | .marker m => m ∈ screen.markers

/-- Whether a keyword hits a fragment: a word is a token of it, a stem begins one, and a
marker occurs in it, all in small letters. -/
def Keyword.Hits (fragment : String) : Keyword → Prop
  | .blank => False
  | .word w => w.toList ∈ tokens (fragment.toList.map Char.toLower)
  | .stem st => ∃ token ∈ tokens (fragment.toList.map Char.toLower), st.toList <+: token
  | .marker m => m.toList <:+: fragment.toList.map Char.toLower

instance (fragment : String) (keyword : Keyword) : Decidable (keyword.Hits fragment) :=
  match keyword with
  | .blank => .isFalse id
  | .word _ => inferInstanceAs (Decidable (_ ∈ _))
  | .stem _ => inferInstanceAs (Decidable (∃ token ∈ _, _ <+: token))
  | .marker _ => decidable_of_iff _ Text.occursIn_iff

/-- A fragment passes the screen exactly when one of the keywords hits it. -/
theorem hits_iff {screen : Screen} {fragment : String} :
    screen.hits fragment = true ↔ ∃ keyword, screen.Lists keyword ∧ keyword.Hits fragment := by
  rw [hits, Bool.or_eq_true]
  constructor
  · intro h
    rcases h with h | h
    · obtain ⟨m, hm, hoccurs⟩ := List.any_eq_true.mp h
      exact ⟨.marker m, hm, Text.occursIn_iff.mp hoccurs⟩
    · obtain ⟨token, htoken, h⟩ := List.any_eq_true.mp h
      rw [hitsToken, Bool.or_eq_true] at h
      rcases h with h | h
      · obtain ⟨w, hw, heq⟩ := List.any_eq_true.mp h
        rw [← beq_iff_eq.mp heq] at htoken
        exact ⟨.word w, hw, htoken⟩
      · obtain ⟨st, hst, hprefix⟩ := List.any_eq_true.mp h
        exact ⟨.stem st, hst, token, htoken, List.isPrefixOf_iff_prefix.mp hprefix⟩
  · intro h
    obtain ⟨keyword, hlists, hhits⟩ := h
    cases keyword with
    | blank => cases hlists
    | word w =>
      refine .inr (List.any_eq_true.mpr ⟨w.toList, hhits, ?_⟩)
      rw [hitsToken, Bool.or_eq_true]
      exact .inl (List.any_eq_true.mpr ⟨w, hlists, beq_self_eq_true _⟩)
    | stem st =>
      obtain ⟨token, htoken, hprefix⟩ := hhits
      refine .inr (List.any_eq_true.mpr ⟨token, htoken, ?_⟩)
      rw [hitsToken, Bool.or_eq_true]
      exact .inr (List.any_eq_true.mpr ⟨st, hlists, List.isPrefixOf_iff_prefix.mpr hprefix⟩)
    | marker m => exact .inl (List.any_eq_true.mpr ⟨m, hlists, Text.occursIn_iff.mpr hhits⟩)

/-! ## Building a screen -/

/-- The screen of a list of keywords. -/
def ofKeywords (keywords : List String) : Screen :=
  keywords.foldl Screen.add .empty

theorem mem_addOnce {xs : List String} {x y : String} :
    y ∈ addOnce xs x ↔ y ∈ xs ∨ y = x := by
  rw [addOnce]
  split
  next h =>
    constructor
    · exact .inl
    · intro h
      rcases h with hy | rfl
      · exact hy
      · exact List.contains_iff_mem.mp h
  next => rw [List.mem_append, List.mem_singleton]

/-- One more keyword is listed, and nothing else changes. -/
theorem lists_add {screen : Screen} {text : String} {keyword : Keyword} :
    (screen.add text).Lists keyword ↔
      screen.Lists keyword ∨ (keyword ≠ .blank ∧ keyword = Keyword.ofText text) := by
  rw [add]
  cases hform : Keyword.ofText text with
  | blank => cases keyword <;> simp [Lists]
  | word w => cases keyword <;> simp [Lists, mem_addOnce]
  | stem st => cases keyword <;> simp [Lists, mem_addOnce]
  | marker m => cases keyword <;> simp [Lists, mem_addOnce]

theorem lists_foldl {keywords : List String} {keyword : Keyword} :
    ∀ {screen : Screen}, (keywords.foldl Screen.add screen).Lists keyword ↔
      screen.Lists keyword ∨ ∃ text ∈ keywords, keyword ≠ .blank ∧ keyword = Keyword.ofText text := by
  induction keywords with
  | nil => intro screen; simp
  | cons text keywords ih =>
    intro screen
    rw [List.foldl_cons, ih, lists_add, or_assoc]
    simp only [List.mem_cons, exists_eq_or_imp]

/-- A screen lists the keywords that the given texts write. -/
theorem lists_ofKeywords {keywords : List String} {keyword : Keyword} :
    (ofKeywords keywords).Lists keyword ↔
      ∃ text ∈ keywords, keyword ≠ .blank ∧ keyword = Keyword.ofText text := by
  have hempty : ¬ Screen.empty.Lists keyword := by
    cases keyword <;> simp [Lists, Screen.empty]
  rw [ofKeywords, lists_foldl]
  simp only [hempty, false_or]

/-- A screen is hit when one of the keywords that the given texts write is. -/
theorem hits_ofKeywords {keywords : List String} {fragment : String} :
    (ofKeywords keywords).hits fragment = true ↔
      ∃ text ∈ keywords, (Keyword.ofText text).Hits fragment := by
  rw [hits_iff]
  constructor
  · intro h
    obtain ⟨keyword, hlists, hhits⟩ := h
    obtain ⟨text, htext, -, rfl⟩ := lists_ofKeywords.mp hlists
    exact ⟨text, htext, hhits⟩
  · intro h
    obtain ⟨text, htext, hhits⟩ := h
    have hblank : Keyword.ofText text ≠ .blank := by
      intro h
      rw [h] at hhits
      exact hhits
    exact ⟨_, lists_ofKeywords.mpr ⟨text, htext, hblank, rfl⟩, hhits⟩

/-- More keywords hit no less. -/
theorem hits_ofKeywords_mono {few many : List String} (h : few ⊆ many) {fragment : String}
    (hhits : (ofKeywords few).hits fragment = true) : (ofKeywords many).hits fragment = true := by
  obtain ⟨text, htext, hkeyword⟩ := hits_ofKeywords.mp hhits
  exact hits_ofKeywords.mpr ⟨text, h htext, hkeyword⟩

/-- The screen with one more marker, whatever its form. -/
def withMarker (screen : Screen) (m : String) : Screen :=
  { screen with markers := m :: screen.markers }

theorem lists_withMarker {screen : Screen} {m : String} {keyword : Keyword} :
    (screen.withMarker m).Lists keyword ↔ keyword = .marker m ∨ screen.Lists keyword := by
  cases keyword <;> simp [Lists, withMarker]

/-- One more marker hits the fragments in which it occurs. -/
theorem hits_withMarker {screen : Screen} {m fragment : String} :
    (screen.withMarker m).hits fragment = true ↔
      m.toList <:+: fragment.toList.map Char.toLower ∨ screen.hits fragment = true := by
  rw [hits_iff, hits_iff]
  constructor
  · intro h
    obtain ⟨keyword, hlists, hhits⟩ := h
    rcases lists_withMarker.mp hlists with rfl | hlists
    · exact .inl hhits
    · exact .inr ⟨keyword, hlists, hhits⟩
  · intro h
    rcases h with h | ⟨keyword, hlists, hhits⟩
    · exact ⟨.marker m, lists_withMarker.mpr (.inl rfl), h⟩
    · exact ⟨keyword, lists_withMarker.mpr (.inr hlists), hhits⟩

end QueryScript.Screen
