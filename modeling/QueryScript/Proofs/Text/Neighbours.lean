import QueryScript.Text.Split

/-!
# Characters side by side

Whether one character ever stands right before another is looked for along a text: a character at
the front adds such a pair only with its neighbour (`not_infix_cons`), and a front without the one
character adds none at all (`not_infix_append`).  So words that are joined by single blanks have
single blanks only (`not_infix_joinWith`).
-/

namespace QueryScript.Text

variable {a b : Char} {cs ds : List Char}

/-- A text without the first of two characters has it nowhere before the second. -/
theorem not_infix_of_not_mem (h : a ∉ cs) : ¬ [a, b] <:+: cs :=
  fun hpair => h (hpair.subset (List.mem_cons_self ..))

/-- One more character at the front makes a pair only with its neighbour. -/
theorem not_infix_cons {c : Char} (hhead : cs.head? ≠ some b) (h : ¬ [a, b] <:+: cs) :
    ¬ [a, b] <:+: c :: cs := by
  intro hpair
  rcases List.infix_cons_iff.mp hpair with hfront | hpair
  · obtain ⟨rest, hrest⟩ := hfront
    obtain ⟨-, rfl⟩ := List.cons.inj hrest
    exact hhead rfl
  · exact h hpair

/-- No pair begins in a text without the first of the two. -/
theorem not_infix_append (hcs : a ∉ cs) (h : ¬ [a, b] <:+: ds) : ¬ [a, b] <:+: cs ++ ds := by
  induction cs with
  | nil => exact h
  | cons c cs ih =>
    intro hpair
    rcases List.infix_cons_iff.mp hpair with hfront | hpair
    · obtain ⟨rest, hrest⟩ := hfront
      exact hcs (by rw [(List.cons.inj hrest).1]; exact List.mem_cons_self ..)
    · exact ih (fun hmem => hcs (List.mem_cons_of_mem _ hmem)) hpair

/-- A character of joined words is a blank or stands in a word. -/
theorem mem_joinWith {c : Char} {words : List String} (h : c ∈ (joinWith " " words).toList) :
    c = ' ' ∨ ∃ w ∈ words, c ∈ w.toList := by
  induction words with
  | nil => cases h
  | cons w words ih =>
    cases words with
    | nil => exact .inr ⟨w, List.mem_cons_self .., h⟩
    | cons next words =>
      rw [joinWith, String.toList_append, String.toList_append, List.mem_append,
        List.mem_append] at h
      · rcases h with (h | h) | h
        · exact .inr ⟨w, List.mem_cons_self .., h⟩
        · exact .inl (List.mem_singleton.mp h)
        · refine (ih h).imp_right fun ⟨w', hw', hc⟩ => ⟨w', List.mem_cons_of_mem _ hw', hc⟩
      · exact nofun

/-- Joined words begin as the first of them does. -/
theorem head?_joinWith {w : String} {words : List String} (h : w.toList ≠ []) :
    (joinWith " " (w :: words)).toList.head? = w.toList.head? := by
  cases words with
  | nil => rfl
  | cons next words =>
    rw [joinWith, String.toList_append, String.toList_append, List.append_assoc, List.head?_append,
      List.head?_eq_some_head h, Option.some_or]
    exact nofun

/-- **Words joined by single blanks have single blanks only.** -/
theorem not_infix_joinWith {words : List String}
    (h : ∀ w ∈ words, w.toList ≠ [] ∧ ' ' ∉ w.toList) :
    ¬ [' ', ' '] <:+: (joinWith " " words).toList := by
  induction words with
  | nil => exact not_infix_of_not_mem List.not_mem_nil
  | cons w words ih =>
    have hw := (h w (List.mem_cons_self ..)).2
    have hrest := ih fun w' hw' => h w' (List.mem_cons_of_mem _ hw')
    cases words with
    | nil => exact not_infix_of_not_mem hw
    | cons next words =>
      obtain ⟨hne, hnext⟩ := h next (List.mem_cons_of_mem _ (List.mem_cons_self ..))
      -- the blank after the word is followed by the next word, which does not begin with one
      have hhead : (joinWith " " (next :: words)).toList.head? ≠ some ' ' := by
        rw [head?_joinWith hne]
        exact fun hblank => hnext (List.mem_of_mem_head? hblank)
      rw [joinWith, String.toList_append, String.toList_append, List.append_assoc]
      · exact not_infix_append hw (not_infix_cons hhead hrest)
      · exact nofun

end QueryScript.Text
