import QueryScript.Text.CaseFold
import QueryScript.Text.Classes

/-!
# Case and word characters, inside ASCII and beyond it

The screen compares by `Char.toLower`, which knows the letters of ASCII only; a
pattern compares by `Text.fold`, which knows all of them.  On ASCII the two agree,
and beyond it they differ in two characters: the long s and the Kelvin sign are no
ASCII characters, but fold to `s` and `k` (`foreign_of_fold_lt`).  No other
character beyond ASCII folds into it.
-/

namespace QueryScript.Text

/-- The two characters beyond ASCII that are ASCII letters up to case: the long s and the
Kelvin sign. -/
def IsForeign (c : Char) : Prop := c = '\u017f' ∨ c = '\u212a'

instance (c : Char) : Decidable (IsForeign c) :=
  inferInstanceAs (Decidable (c = '\u017f' ∨ c = '\u212a'))

/-- What holds of the code points below 128 holds of every ASCII character. -/
theorem forall_ascii {P : Char → Prop} (h : ∀ n < 128, P (Char.ofNat n)) {c : Char}
    (hc : c.toNat < 128) : P c := by
  have := h c.toNat hc
  rwa [Char.ofNat_toNat] at this

/-! ## Letter case -/

/-- Only ASCII letters are made small. -/
theorem toLower_of_not_ascii {c : Char} (h : 128 ≤ c.toNat) : c.toLower = c := by
  unfold Char.toLower
  split
  next hc =>
    have : c.toNat ≤ 90 := UInt32.le_iff_toNat_le.mp hc.2
    omega
  next => rfl

theorem toLower_ascii {c : Char} (h : c.toNat < 128) : c.toLower.toNat < 128 :=
  forall_ascii (P := fun c => c.toLower.toNat < 128) (by decide) h

/-- A character that no other ASCII character has for its small letter is only its own. -/
theorem eq_of_toLower_eq {c d : Char}
    (hd : ∀ n < 128, (Char.ofNat n).toLower = d → Char.ofNat n = d) (h : c.toLower = d) :
    c = d := by
  by_cases hc : c.toNat < 128
  · exact forall_ascii (P := fun c => c.toLower = d → c = d) hd hc h
  · rw [toLower_of_not_ascii (by omega)] at h
    exact h

/-! ## Word characters -/

theorem isAsciiWord_ascii {c : Char} (h : isAsciiWord c = true) : c.toNat < 128 := by
  unfold isAsciiWord Char.isAlphanum Char.isAlpha Char.isUpper Char.isLower Char.isDigit at h
  simp only [Bool.or_eq_true, Bool.and_eq_true, decide_eq_true_eq, beq_iff_eq,
    UInt32.le_iff_toNat_le, ge_iff_le] at h
  have hval : c.toNat = c.val.toNat := rfl
  have hZ : 'Z'.val.toNat = 90 := rfl
  have hz : 'z'.val.toNat = 122 := rfl
  have h9 : '9'.val.toNat = 57 := rfl
  rcases h with ((hupper | hlower) | hdigit) | hunderscore
  · omega
  · omega
  · omega
  · rw [hunderscore]
    decide

theorem isAsciiWord_of_not_ascii {c : Char} (h : 128 ≤ c.toNat) : isAsciiWord c = false := by
  rw [Bool.eq_false_iff]
  intro hword
  have := isAsciiWord_ascii hword
  omega

/-- A character of ASCII words stays one when it is made small. -/
theorem isAsciiWord_toLower (c : Char) : isAsciiWord c.toLower = isAsciiWord c := by
  by_cases h : c.toNat < 128
  · exact forall_ascii (P := fun c => isAsciiWord c.toLower = isAsciiWord c) (by decide) h
  · rw [toLower_of_not_ascii (by omega)]

/-- A character of ASCII words is one of words. -/
theorem isWord_of_isAsciiWord {c : Char} (h : isAsciiWord c = true) : isWord c = true := by
  rw [isWord, h, Bool.true_or]

/-- White space is no word character. -/
theorem isAsciiWord_of_isBlank {c : Char} (h : isBlank c = true) : isAsciiWord c = false := by
  by_cases hc : c.toNat < 128
  · have hall : ∀ n < 128, isBlank (Char.ofNat n) = true → isAsciiWord (Char.ofNat n) = false := by
      decide
    exact forall_ascii (P := fun c => isBlank c = true → isAsciiWord c = false) hall hc h
  · exact isAsciiWord_of_not_ascii (by omega)

/-! ## Folding -/

/-- Whether folding sends a run of characters beyond ASCII to characters beyond ASCII. -/
def FoldRun.staysOutside (r : FoldRun) : Bool :=
  128 ≤ (r.first : Int) + r.shift &&
    ((r.last : Int) + r.shift < 0xd800 ||
      (0xdfff < (r.first : Int) + r.shift && (r.last : Int) + r.shift < 0x110000))

/-- Every run stays outside ASCII but those of the long s and of the Kelvin sign. -/
theorem foldRuns_stay_outside :
    ∀ r ∈ foldRuns, r.staysOutside = true ∨
      r.first = r.last ∧ (r.first = 0x17f ∨ r.first = 0x212a) := by
  decide +kernel

theorem toNat_ofNat_of_valid {n : Nat} (h : n < 0xd800 ∨ 0xdfff < n ∧ n < 0x110000) :
    (Char.ofNat n).toNat = n := by
  have hvalid : n.isValidChar := h
  rw [Char.ofNat, dif_pos hvalid]
  rfl

/-- A character beyond ASCII that folds into ASCII is the long s or the Kelvin sign. -/
theorem foreign_of_fold_lt {c : Char} (hc : 128 ≤ c.toNat) (hf : (fold c).toNat < 128) :
    IsForeign c := by
  rw [fold, if_neg (by omega)] at hf
  cases hr : foldRuns.find? (·.covers c.toNat) with
  | none =>
    rw [hr] at hf
    exact absurd hf (by dsimp only; omega)
  | some r =>
    rw [hr] at hf
    have hcovers := List.find?_some hr
    simp only [FoldRun.covers, Bool.and_eq_true, decide_eq_true_eq] at hcovers
    obtain ⟨⟨hfirst, hlast⟩, _⟩ := hcovers
    rcases foldRuns_stay_outside r (List.mem_of_find?_eq_some hr) with hout | ⟨hone, hforeign⟩
    · simp only [FoldRun.staysOutside, Bool.and_eq_true, Bool.or_eq_true,
        decide_eq_true_eq] at hout
      dsimp only at hf
      rw [toNat_ofNat_of_valid (by omega)] at hf
      omega
    · -- such a run has one character only
      have hchar : c = Char.ofNat r.first := by
        rw [← Char.ofNat_toNat c]
        congr 1
        omega
      rcases hforeign with h | h
      · exact .inl (by rw [hchar, h])
      · exact .inr (by rw [hchar, h])

/-- A character that is an ASCII character up to case is that character up to ASCII case, or
one of the two foreign ones. -/
theorem toLower_eq_of_fold_eq {c d : Char} (hd : d.toNat < 128) (h : fold c = fold d)
    (hc : ¬ IsForeign c) : c.toNat < 128 ∧ c.toLower = d.toLower := by
  have hfold : fold d = d.toLower := by rw [fold, if_pos hd]
  have hlt : c.toNat < 128 := by
    refine Nat.lt_of_not_le fun hle => hc (foreign_of_fold_lt hle ?_)
    rw [h, hfold]
    exact toLower_ascii hd
  refine ⟨hlt, ?_⟩
  rw [← hfold, ← h, fold, if_pos hlt]

end QueryScript.Text
