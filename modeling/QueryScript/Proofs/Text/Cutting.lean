import QueryScript.Text.Split

/-!
# What cutting leaves

Text that neither begins nor ends with white space is not trimmed (`trimChars_of_ends`), and a
piece stands between separators or the ends of the text and is made of the other characters
(`bounds_of_mem_splitChars`).  White space is a finite set of code points (`mem_blankPoints`).

Bytes can be taken out of a text only between two of its positions, and no position lies inside a
character (`LeavesOut`); behind ASCII characters, bytes are counted as characters are
(`leavesOut_of_ascii`).
-/

namespace QueryScript.Text

/-- The code points of white space. -/
def blankPoints : List Nat :=
  blankRanges.flatMap fun (lo, hi) => List.range' lo (hi - lo + 1)

/-- The code points of blanks are listed. -/
theorem mem_blankPoints {c : Char} (h : isBlank c = true) : c.toNat ∈ blankPoints := by
  obtain ⟨⟨lo, hi⟩, hrange, hin⟩ := List.any_eq_true.mp h
  simp only [Bool.and_eq_true, decide_eq_true_eq] at hin
  refine List.mem_flatMap.mpr ⟨(lo, hi), hrange, ?_⟩
  rw [List.mem_range'_1]
  omega

/-- Text with no white space at either end is not trimmed. -/
theorem trimChars_of_ends {cs : List Char} (hhead : ∀ c ∈ cs.head?, isBlank c = false)
    (hlast : ∀ c ∈ cs.getLast?, isBlank c = false) : trimChars cs = cs := by
  have hdrop : ∀ ds : List Char, (∀ c ∈ ds.head?, isBlank c = false) →
      ds.dropWhile isBlank = ds := by
    intro ds h
    cases ds with
    | nil => rfl
    | cons d ds =>
      rw [List.dropWhile_cons, h d rfl]
      rfl
  rw [trimChars, hdrop cs hhead, hdrop cs.reverse (by rw [List.head?_reverse]; exact hlast),
    List.reverse_reverse]

/-- A piece before a separator and the piece after it are cut apart on their own. -/
theorem splitChars_append_separator {p : Char → Bool} {c : Char} (hc : p c = true)
    (cs ds : List Char) : splitChars p (cs ++ c :: ds) = splitChars p cs ++ splitChars p ds := by
  induction cs with
  | nil =>
    show (if p c = true then _ else _) = _
    rw [if_pos hc]
    rfl
  | cons d cs ih =>
    rw [List.cons_append, splitChars, splitChars, ih]
    by_cases hd : p d = true
    · rw [if_pos hd, if_pos hd]; rfl
    · rw [if_neg hd, if_neg hd]
      cases hs : splitChars p cs with
      | nil => exact absurd hs (splitChars_ne_nil p cs)
      | cons piece rest => rfl

/-- A text without separators is one piece. -/
theorem splitChars_of_no_separator {p : Char → Bool} {cs : List Char}
    (h : ∀ c ∈ cs, p c = false) : splitChars p cs = [cs] := by
  induction cs with
  | nil => rfl
  | cons c cs ih =>
    have hc : ¬ p c = true := by rw [h c (List.mem_cons_self ..)]; exact Bool.false_ne_true
    rw [splitChars, if_neg hc, ih fun d hd => h d (List.mem_cons_of_mem _ hd)]

/-- A piece that may begin with a word read so far has separators or the ends of the text around
it. -/
theorem bounds_of_mem_splitChars_append {p : Char → Bool} {piece : List Char} :
    ∀ {cs word : List Char}, (∀ c ∈ word, p c = false) → piece ∈ splitChars p (word ++ cs) →
      ∃ pre post, word ++ cs = pre ++ piece ++ post ∧ (∀ c ∈ piece, p c = false) ∧
        (∀ c ∈ pre.getLast?, p c = true) ∧ ∀ c ∈ post.head?, p c = true := by
  -- by induction on the text, the word gathering what has been read since the last separator
  intro cs
  induction cs with
  | nil =>
    intro word hword hpiece
    rw [List.append_nil, splitChars_of_no_separator hword, List.mem_singleton] at hpiece
    rw [hpiece]
    exact ⟨[], [], by rw [List.append_nil, List.append_nil]; rfl, hword, nofun, nofun⟩
  | cons c cs ih =>
    intro word hword hpiece
    by_cases hc : p c = true
    · rw [splitChars_append_separator hc, splitChars_of_no_separator hword] at hpiece
      rcases List.mem_cons.mp hpiece with rfl | hpiece
      · refine ⟨[], c :: cs, rfl, hword, nofun, fun d hd => ?_⟩
        rw [← Option.some.inj hd]
        exact hc
      · obtain ⟨pre, post, rfl, hplain, hpre, hpost⟩ := @ih [] nofun hpiece
        refine ⟨word ++ c :: pre, post, ?_, hplain, fun d hd => ?_, hpost⟩
        · rw [List.append_assoc, List.append_assoc, List.append_assoc, List.cons_append]
        · rw [List.getLast?_append, List.getLast?_cons] at hd
          cases hlast : pre.getLast? with
          | none =>
            rw [hlast] at hd
            rw [← Option.some.inj hd]
            exact hc
          | some e =>
            rw [hlast] at hd
            rw [← Option.some.inj hd]
            exact hpre e hlast
    · rw [List.append_cons] at hpiece ⊢
      refine ih (fun d hd => ?_) hpiece
      rcases List.mem_append.mp hd with hd | hd
      · exact hword d hd
      · rw [List.mem_singleton.mp hd]
        exact Bool.eq_false_iff.mpr hc

/-- A piece is made of other characters than separators and stands between separators or the ends
of the text. -/
theorem bounds_of_mem_splitChars {p : Char → Bool} {cs piece : List Char}
    (h : piece ∈ splitChars p cs) :
    ∃ pre post, cs = pre ++ piece ++ post ∧ (∀ c ∈ piece, p c = false) ∧
      (∀ c ∈ pre.getLast?, p c = true) ∧ ∀ c ∈ post.head?, p c = true :=
  @bounds_of_mem_splitChars_append p piece cs [] nofun h

/-- The pieces of a text are made of its characters other than separators. -/
theorem of_mem_splitChars {p : Char → Bool} {cs piece : List Char} (h : piece ∈ splitChars p cs) :
    ∀ c ∈ piece, c ∈ cs ∧ p c = false := by
  obtain ⟨pre, post, rfl, hplain, -⟩ := bounds_of_mem_splitChars h
  intro c hc
  exact ⟨List.mem_append_left _ (List.mem_append_right _ hc), hplain c hc⟩

/-! ## Bytes taken out -/

/-- `t` is what is left of `s` without the bytes from `start` up to `stop`.  Both are positions of
`s`, so that no character is cut. -/
def LeavesOut (s : String) (start stop : Nat) (t : String) : Prop :=
  ∃ p q : s.Pos, p.offset.byteIdx = start ∧ q.offset.byteIdx = stop ∧
    t = (s.sliceTo p).copy ++ (s.sliceFrom q).copy

/-- ASCII characters have one byte each. -/
theorem utf8ByteSize_of_ascii {cs : List Char} (h : ∀ c ∈ cs, c.toNat < 128) :
    (String.ofList cs).utf8ByteSize = cs.length := by
  induction cs with
  | nil => rfl
  | cons c cs ih =>
    obtain ⟨hc, hcs⟩ := List.forall_mem_cons.mp h
    have hone : c.utf8Size = 1 :=
      Char.utf8Size_eq_one_iff.mpr (UInt32.le_iff_toNat_le.mpr (Nat.le_of_lt_succ hc))
    rw [String.ofList_cons, String.utf8ByteSize_append, String.utf8ByteSize_singleton, ih hcs, hone,
      List.length_cons, Nat.add_comm]

/-- Characters are taken out behind ASCII characters by taking out their bytes. -/
theorem leavesOut_of_ascii {front gap : List Char} (back : List Char)
    (hfront : ∀ c ∈ front, c.toNat < 128) (hgap : ∀ c ∈ gap, c.toNat < 128) :
    LeavesOut (String.ofList (front ++ gap ++ back)) front.length (front.length + gap.length)
      (String.ofList (front ++ back)) := by
  have hstart : String.ofList (front ++ gap ++ back) =
      String.ofList front ++ String.ofList (gap ++ back) := by
    rw [List.append_assoc, String.ofList_append]
  have hstop : String.ofList (front ++ gap ++ back) =
      String.ofList (front ++ gap) ++ String.ofList back := String.ofList_append
  have hp := String.Pos.splits_ofEqAppend hstart
  have hq := String.Pos.splits_ofEqAppend hstop
  refine ⟨.ofEqAppend hstart, .ofEqAppend hstop, ?_, ?_, ?_⟩
  · rw [hp.offset_eq_rawEndPos]
    exact utf8ByteSize_of_ascii hfront
  · rw [hq.offset_eq_rawEndPos, ← List.length_append]
    refine utf8ByteSize_of_ascii fun c hc => ?_
    rcases List.mem_append.mp hc with hc | hc
    · exact hfront c hc
    · exact hgap c hc
  · rw [hp.copy_sliceTo_eq, hq.copy_sliceFrom_eq, String.ofList_append]

end QueryScript.Text
