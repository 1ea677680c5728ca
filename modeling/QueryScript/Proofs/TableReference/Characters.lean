import QueryScript.Proofs.TableReference

/-!
# The characters of a reference

A text that is accepted as a reference is written with identifier characters, dots and white
space, and with nothing else (`not_mem_of_parse`).  The argument follows the parser: a
character of any other kind is not trimmed, belongs neither to the name nor to the alias,
and so is left over at the end, where nothing may be left.

So no template can begin in a reference (`dollar_not_mem_of_parse`), and filling in
parameters leaves it as it is.
-/

namespace QueryScript

namespace Text

variable {c : Char} {cs : List Char}

theorem mem_dropWhile {p : Char → Bool} (hc : c ∈ cs) (hp : p c = false) : c ∈ cs.dropWhile p := by
  rw [← List.takeWhile_append_dropWhile (p := p) (l := cs)] at hc
  rcases List.mem_append.mp hc with hc | hc
  · have hholds := List.all_eq_true.mp List.all_takeWhile c hc
    rw [hp] at hholds
    cases hholds
  · exact hc

/-- Trimming takes nothing but white space away. -/
theorem mem_trimChars (hc : c ∈ cs) (hblank : isBlank c = false) : c ∈ trimChars cs :=
  List.mem_reverse.mpr (mem_dropWhile (List.mem_reverse.mpr (mem_dropWhile hc hblank)) hblank)

end Text

namespace TableReference

variable {c : Char} {cs : List Char}

/-- Characters that have no place in a reference. -/
structure IsForeign (c : Char) : Prop where
  ident : isIdent c = false
  dot : c ≠ '.'
  separator : isSeparator c = false

/-! ## The name -/

/-- The pieces between the dots of a text, put together again, are the text. -/
theorem joinSegments_splitChars (cs : List Char) :
    joinSegments (Text.splitChars (· == '.') cs) = cs := by
  induction cs with
  | nil => rfl
  | cons c cs ih =>
    rw [Text.splitChars]
    split
    next hdot =>
      rw [joinSegments_cons (Text.splitChars_ne_nil _ _), ih, beq_iff_eq.mp hdot]
      rfl
    next =>
      split
      next hnil => exact absurd hnil (Text.splitChars_ne_nil _ _)
      next piece rest hpieces =>
        rw [hpieces] at ih
        cases rest with
        | nil => exact congrArg (c :: ·) ih
        | cons _ _ => exact congrArg (c :: ·) ih

theorem joinSegments_append (segs segs' : List (List Char)) :
    joinSegments segs <+: joinSegments (segs ++ segs') := by
  induction segs with
  | nil => exact List.nil_prefix
  | cons seg segs ih =>
    by_cases hsegs : segs = []
    · subst hsegs
      cases segs' with
      | nil => exact List.prefix_rfl
      | cons _ _ => exact List.prefix_append _ _
    · rw [List.cons_append, joinSegments_cons hsegs,
        joinSegments_cons (List.append_ne_nil_of_left_ne_nil hsegs _)]
      exact (List.prefix_append_right_inj _).mpr ((List.prefix_cons_inj _).mpr ih)

/-- The name is what the text begins with, within its identifier characters and dots. -/
theorem dottedName_prefix (cs : List Char) :
    dottedName cs <+: cs.takeWhile fun c => isIdent c || c == '.' := by
  generalize hrun : cs.takeWhile (fun c => isIdent c || c == '.') = run
  have hwhole := joinSegments_splitChars run
  rw [← List.takeWhile_append_dropWhile (p := (· ≠ [])) (l := Text.splitChars (· == '.') run)]
    at hwhole
  have hprefix := joinSegments_append ((Text.splitChars (· == '.') run).takeWhile (· ≠ []))
    ((Text.splitChars (· == '.') run).dropWhile (· ≠ []))
  rw [hwhole] at hprefix
  rw [dottedName, hrun]
  exact hprefix

theorem mem_afterName (hc : c ∈ cs) (hforeign : IsForeign c) :
    c ∈ cs.drop (dottedName cs).length := by
  have hrest : c ∈ cs.dropWhile fun c => isIdent c || c == '.' := by
    refine Text.mem_dropWhile hc ?_
    rw [hforeign.ident, beq_false_of_ne hforeign.dot]
    rfl
  -- the name ends before the first character that is of neither kind
  obtain ⟨tail, htail⟩ := dottedName_prefix cs
  have hsplit := List.takeWhile_append_dropWhile (p := fun c => isIdent c || c == '.') (l := cs)
  rw [← htail, List.append_assoc] at hsplit
  rw [← congrArg (List.drop (dottedName cs).length) hsplit, List.drop_left]
  exact List.mem_append_right _ hrest

/-! ## The alias -/

/-- An alias is written with separators and identifier characters. -/
theorem WritesAlias.not_mem {written : List Char} {a : Option TableAlias}
    (h : WritesAlias written a) (hforeign : IsForeign c) : c ∉ written := by
  have hgap : ∀ {gap : List Char}, IsGap gap → c ∉ gap := by
    intro gap hgap hc
    have hseparator := hgap.2 c hc
    rw [hforeign.separator] at hseparator
    cases hseparator
  have hname : ∀ {name : List Char}, IsIdentifier name → c ∉ name := by
    intro name hname hc
    have hident := hname.2 c hc
    rw [hforeign.ident] at hident
    cases hident
  cases h with
  | absent => exact List.not_mem_nil
  | bare hg hn =>
    rw [List.mem_append]
    exact not_or.mpr ⟨hgap hg, hname hn⟩
  | worded hg hw hb hn =>
    simp only [List.mem_append]
    exact not_or.mpr ⟨hgap hg, not_or.mpr ⟨hname hw.isIdentifier, not_or.mpr ⟨hgap hb, hname hn⟩⟩⟩

theorem mem_of_alias? {a : TableAlias} {tail : List Char} (h : alias? cs = some (a, tail))
    (hc : c ∈ cs) (hforeign : IsForeign c) : c ∈ tail := by
  obtain ⟨written, rfl, hwritten⟩ := exists_writes_of_alias? h
  rcases List.mem_append.mp hc with hc | hc
  · exact absurd hc (hwritten.not_mem hforeign)
  · exact hc

/-! ## The whole reference -/

/-- A reference is written with identifier characters, dots and white space only. -/
theorem not_mem_of_parse {s : String} {t : TableReference} (h : parse s = .ok t)
    (hforeign : IsForeign c) (hblank : Text.isBlank c = false) : c ∉ s.toList := by
  intro hmem
  have hafter := mem_afterName (Text.mem_trimChars hmem hblank) hforeign
  -- whether there is an alias or not, the character is left over at the end
  have hleft : ∀ tail : List Char, c ∈ tail → tail.dropWhile isSeparator ≠ [] := fun tail hmem =>
    List.ne_nil_of_mem (Text.mem_dropWhile hmem hforeign.separator)
  obtain ⟨-, -, hend⟩ := (parse_eq_ok_iff rfl rfl).mp h
  split at hend
  next a tail halias => exact hleft tail (mem_of_alias? halias hafter hforeign) hend.2
  next => exact hleft _ hafter hend.2

/-- No template begins in a reference. -/
theorem dollar_not_mem_of_parse {s : String} {t : TableReference} (h : parse s = .ok t) :
    '$' ∉ s.toList := by
  have hforeign : IsForeign '$' := ⟨by decide +kernel, by decide, by decide +kernel⟩
  exact not_mem_of_parse h hforeign (by decide +kernel)

end TableReference

end QueryScript
