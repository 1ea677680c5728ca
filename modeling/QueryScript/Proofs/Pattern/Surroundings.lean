import QueryScript.Proofs.Pattern.Reading

/-!
# Text around a match

A pattern that asks for the start or the end of the text can be kept from matching by
text before it or after it.  Every other pattern is local: what it reads between two
pieces depends, beyond the pieces themselves, only on whether a word character stands
next to them.  So a local pattern that occurs in a text still occurs when the text is
set into another, as long as no word character touches it there (`Occurs.surround`):
to a word boundary, any other character next to the text is as good as its end.
-/

namespace QueryScript.Pattern

/-- Whether the condition does not ask where the whole text begins or ends. -/
def Anchor.isLocal : Anchor → Bool
  | .wordBoundary => true
  | .noWordBoundary => true
  | .textStart => false
  | .textEnd => false

/-- Whether all conditions in the pattern are local. -/
def isLocal : Pattern → Bool
  | .empty => true
  | .set _ => true
  | .anchor a => a.isLocal
  | .seq first second => first.isLocal && second.isLocal
  | .alt preferred other => preferred.isLocal && other.isLocal
  | .star _ body => body.isLocal

variable {front back pre text post : List Char}

/-- Before a piece, text without a word character at its end is as good as no text. -/
theorem isWordAt_getLast?_append (h : isWordAt front.getLast? = false) :
    isWordAt (front ++ pre).getLast? = isWordAt pre.getLast? := by
  rw [List.getLast?_append]
  cases pre.getLast? with
  | none => exact h
  | some c => rfl

/-- After a piece, text without a word character at its start is as good as no text. -/
theorem isWordAt_head?_append (h : isWordAt back.head? = false) :
    isWordAt (post ++ back).head? = isWordAt post.head? := by
  cases post with
  | nil => exact h
  | cons c post => rfl

theorem Anchor.holds_surround {a : Anchor} (ha : a.isLocal = true)
    (hfront : isWordAt front.getLast? = false) (hback : isWordAt back.head? = false) :
    a.holds (.between (front ++ pre) (post ++ back)) = a.holds (.between pre post) := by
  have hbefore := @isWordAt_getLast?_append front pre hfront
  have hafter := @isWordAt_head?_append back post hback
  cases a with
  | wordBoundary => unfold holds Place.between; rw [hbefore, hafter]
  | noWordBoundary => unfold holds Place.between; rw [hbefore, hafter]
  | textStart => cases ha
  | textEnd => cases ha

/-- What a local pattern reads, it reads within a longer text too. -/
theorem Reads.surround {pattern : Pattern} (hlocal : pattern.isLocal = true)
    (hfront : isWordAt front.getLast? = false) (hback : isWordAt back.head? = false)
    (h : Reads pattern pre text post) : Reads pattern (front ++ pre) text (post ++ back) := by
  induction h with
  | empty => exact .empty
  | set hc => exact .set hc
  | anchor ha => exact .anchor (by rw [Anchor.holds_surround hlocal hfront hback]; exact ha)
  | seq _ _ ih₁ ih₂ =>
    obtain ⟨hfirst, hsecond⟩ := Bool.and_eq_true_iff.mp hlocal
    have h₁ := ih₁ hfirst
    have h₂ := ih₂ hsecond
    rw [List.append_assoc] at h₁
    rw [← List.append_assoc] at h₂
    exact .seq h₁ h₂
  | preferred _ ih => exact .preferred (ih (Bool.and_eq_true_iff.mp hlocal).1)
  | other _ ih => exact .other (ih (Bool.and_eq_true_iff.mp hlocal).2)
  | stop => exact .stop
  | more _ _ ih₁ ih₂ =>
    have h₁ := ih₁ hlocal
    have h₂ := ih₂ hlocal
    rw [List.append_assoc] at h₁
    rw [← List.append_assoc] at h₂
    exact .more h₁ h₂

/-- **A local pattern that occurs in a text occurs wherever the text is set**, if no word
character touches it there. -/
theorem Occurs.surround {pattern : Pattern} {cs : List Char} (hlocal : pattern.isLocal = true)
    (hfront : isWordAt front.getLast? = false) (hback : isWordAt back.head? = false)
    (h : pattern.Occurs cs) : pattern.Occurs (front ++ cs ++ back) := by
  obtain ⟨pre, text, post, rfl, hread⟩ := h
  refine ⟨front ++ pre, text, post ++ back, ?_, hread.surround hlocal hfront hback⟩
  simp only [List.append_assoc]

end QueryScript.Pattern
