import QueryScript.Proofs.Text.Folding
import QueryScript.Text.Split

/-!
# Reading without regard to letter case

Two texts that differ in the case of ASCII letters only are the same text in small
letters.  So what a reader makes of them is the same if the reader keeps step with
`lower`: from the text in small letters it reads what it reads from the text as it
stands, in small letters.

The tests on single characters that readers use do not see the case of a letter at
all (`IgnoresCase`), for which the ASCII characters are tried out one by one; cutting
a text by such a test keeps step with small letters.
-/

namespace QueryScript.Text

variable {α : Type}

/-- A character and its small letter are the same to `f`. -/
def IgnoresCase (f : Char → α) : Prop := ∀ c : Char, f c.toLower = f c

/-- Only the ASCII characters need to be tried. -/
theorem ignoresCase_of_ascii {f : Char → α}
    (h : ∀ n < 128, f (Char.ofNat n).toLower = f (Char.ofNat n)) : IgnoresCase f := by
  intro c
  by_cases hc : c.toNat < 128
  · exact forall_ascii (P := fun c => f c.toLower = f c) h hc
  · rw [toLower_of_not_ascii (by omega)]

/-! ## Characters -/

theorem ignoresCase_toLower : IgnoresCase Char.toLower := ignoresCase_of_ascii (by decide)

theorem ignoresCase_fold : IgnoresCase fold := ignoresCase_of_ascii (by decide)

theorem ignoresCase_isBlank : IgnoresCase isBlank := ignoresCase_of_ascii (by decide)

theorem ignoresCase_isWord : IgnoresCase isWord := ignoresCase_of_ascii (by decide)

theorem ignoresCase_isDecimalDigit : IgnoresCase isDecimalDigit :=
  ignoresCase_of_ascii (by decide)

/-- The characters equal to one up to case are the same whatever its own case. -/
theorem ignoresCase_caseVariants : IgnoresCase caseVariants := by
  intro c
  unfold caseVariants
  rw [ignoresCase_fold c]

/-! ## Texts -/

/-- Small letters stay as they are. -/
theorem map_toLower_map_toLower (cs : List Char) :
    (cs.map Char.toLower).map Char.toLower = cs.map Char.toLower := by
  rw [List.map_map]
  exact List.map_congr_left fun c _ => ignoresCase_toLower c

/-- A text is made small character by character. -/
theorem lower_ofList (cs : List Char) :
    lower (String.ofList cs) = String.ofList (cs.map Char.toLower) := by
  rw [lower, String.toList_ofList]

theorem lower_lower (s : String) : lower (lower s) = lower s := by
  rw [lower, toList_lower, map_toLower_map_toLower]
  rfl

/-- Texts in a row are made small one by one. -/
theorem lower_append (s t : String) : lower (s ++ t) = lower s ++ lower t := by
  unfold lower
  rw [String.toList_append, List.map_append, String.ofList_append]

/-- Texts are equal but for letter case if they are equal in small letters. -/
theorem eqIgnoreCase_iff {s t : String} : eqIgnoreCase s t = true ↔ lower s = lower t := by
  rw [eqIgnoreCase, beq_iff_eq]

namespace IgnoresCase

variable {p : Char → Bool}

theorem comp_toLower {f : Char → α} (h : IgnoresCase f) : f ∘ Char.toLower = f :=
  funext h

/-- A class of characters that letter case does not matter to ends a piece at the same place in
small letters. -/
theorem takeWhile (h : IgnoresCase p) (cs : List Char) :
    (cs.map Char.toLower).takeWhile p = (cs.takeWhile p).map Char.toLower := by
  rw [List.takeWhile_map, h.comp_toLower]

/-- What follows the piece is the same in small letters. -/
theorem dropWhile (h : IgnoresCase p) (cs : List Char) :
    (cs.map Char.toLower).dropWhile p = (cs.dropWhile p).map Char.toLower := by
  rw [List.dropWhile_map, h.comp_toLower]

/-- A text is split at the same places in small letters. -/
theorem splitChars (h : IgnoresCase p) (cs : List Char) :
    Text.splitChars p (cs.map Char.toLower) =
      (Text.splitChars p cs).map (List.map Char.toLower) := by
  induction cs with
  | nil => rfl
  | cons c cs ih =>
    rw [List.map_cons, Text.splitChars, Text.splitChars, h c, ih]
    by_cases hc : p c = true
    · rw [if_pos hc, if_pos hc]
      rfl
    · rw [if_neg hc, if_neg hc]
      cases hs : Text.splitChars p cs with
      | nil => exact absurd hs (splitChars_ne_nil p cs)
      | cons piece rest => rfl

end IgnoresCase

/-- Blanks are cut off alike in small letters. -/
theorem trimChars_map_toLower (cs : List Char) :
    trimChars (cs.map Char.toLower) = (trimChars cs).map Char.toLower := by
  unfold trimChars
  rw [ignoresCase_isBlank.dropWhile, ← List.map_reverse, ignoresCase_isBlank.dropWhile,
    ← List.map_reverse]

end QueryScript.Text
