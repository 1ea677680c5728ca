import QueryScript.Proofs.Text.LetterCase
import QueryScript.TableReference

/-!
# Table references in small letters

A reference is read by cutting it at blanks, at dots and at the word `as`, none of
which has anything to do with the case of a letter.  So the text in small letters is
accepted exactly when the text is, and what it writes is the reference in small letters
(`toOption_parse_lower`).
-/

namespace QueryScript

/-- The alias in small letters. -/
def TableAlias.lower (a : TableAlias) : TableAlias :=
  ⟨a.word.map Text.lower, Text.lower a.name⟩

namespace TableReference

open Text (IgnoresCase)

/-- The reference in small letters. -/
def lower (t : TableReference) : TableReference :=
  ⟨Text.lower t.name, t.tableAlias.map TableAlias.lower⟩

/-! ## Reading -/

theorem ignoresCase_isIdent : IgnoresCase isIdent := Text.ignoresCase_of_ascii (by decide)

theorem ignoresCase_isSeparator : IgnoresCase isSeparator := Text.ignoresCase_of_ascii (by decide)

/-- A text in small letters has the same segments, in small letters. -/
theorem segments_map_toLower (cs : List Char) :
    segments (cs.map Char.toLower) = (segments cs).map (List.map Char.toLower) := by
  have hdot : IgnoresCase (· == '.') := Text.ignoresCase_of_ascii (by decide)
  have hnonempty : (fun seg : List Char => decide (seg ≠ [])) ∘ List.map Char.toLower =
      fun seg : List Char => decide (seg ≠ []) := by
    funext seg
    simp only [Function.comp_apply, ne_eq, List.map_eq_nil_iff]
  unfold segments
  rw [hdot.splitChars, List.takeWhile_map, hnonempty]

theorem joinSegments_map_toLower (segs : List (List Char)) :
    joinSegments (segs.map (List.map Char.toLower)) =
      (joinSegments segs).map Char.toLower := by
  induction segs with
  | nil => rfl
  | cons seg segs ih =>
    cases segs with
    | nil => rfl
    | cons next segs =>
      show seg.map Char.toLower ++ '.' :: joinSegments ((next :: segs).map _) =
        (seg ++ '.' :: joinSegments (next :: segs)).map Char.toLower
      rw [ih, List.map_append]
      rfl

/-- So it has the same name. -/
theorem dottedName_map_toLower (cs : List Char) :
    dottedName (cs.map Char.toLower) = (dottedName cs).map Char.toLower := by
  have hname : IgnoresCase fun c => isIdent c || c == '.' := Text.ignoresCase_of_ascii (by decide)
  unfold dottedName
  rw [hname.takeWhile, segments_map_toLower, joinSegments_map_toLower]

/-- An identifier ends at the same place in small letters. -/
theorem identifier?_map_toLower (cs : List Char) :
    identifier? (cs.map Char.toLower) =
      (identifier? cs).map (Prod.map (List.map Char.toLower) (List.map Char.toLower)) := by
  unfold identifier?
  rw [ignoresCase_isIdent.takeWhile, ignoresCase_isIdent.dropWhile]
  cases cs.takeWhile isIdent with
  | nil => rfl
  | cons c name => rfl

theorem asWord?_map_toLower (cs : List Char) :
    asWord? (cs.map Char.toLower) =
      (asWord? cs).map (Prod.map Text.lower (List.map Char.toLower)) := by
  match cs with
  | [] => rfl
  | [_] => rfl
  | [_, _] => rfl
  | a :: s :: c :: cs =>
    show (if a.toLower.toLower = 'a' ∧ s.toLower.toLower = 's' ∧ isSeparator c.toLower then
      some (String.ofList [a.toLower, s.toLower], (cs.map Char.toLower).dropWhile isSeparator)
      else none) = _
    rw [Text.ignoresCase_toLower, Text.ignoresCase_toLower, ignoresCase_isSeparator,
      ignoresCase_isSeparator.dropWhile, asWord?]
    split
    · rw [Option.map_some, Prod.map_apply, Text.lower_ofList]
      rfl
    · rfl

/-- An alias is found in small letters where it is found. -/
theorem alias?_map_toLower (cs : List Char) :
    alias? (cs.map Char.toLower) =
      (alias? cs).map (Prod.map TableAlias.lower (List.map Char.toLower)) := by
  cases cs with
  | nil => rfl
  | cons c cs =>
    have hbody := ignoresCase_isSeparator.dropWhile (c :: cs)
    rw [List.map_cons] at hbody ⊢
    unfold alias?
    dsimp only
    rw [hbody, ignoresCase_isSeparator, asWord?_map_toLower]
    split
    · rfl
    · -- with the word or without, what remains is the alias's own name
      cases asWord? ((c :: cs).dropWhile isSeparator) with
      | none =>
        dsimp only [Option.map_none]
        rw [identifier?_map_toLower]
        cases identifier? ((c :: cs).dropWhile isSeparator) with
        | none => rfl
        | some found => simp [TableAlias.lower, Text.lower_ofList]
      | some word =>
        obtain ⟨word, rest⟩ := word
        dsimp only [Option.map_some, Prod.map_apply]
        rw [identifier?_map_toLower]
        cases identifier? rest with
        | none => rfl
        | some found => simp [TableAlias.lower, Text.lower_ofList]

/-- What may follow the parts of a reference does not depend on letter case. -/
theorem toOption_end_lower (name tail : List Char) (found : Option TableAlias) (e e' : Error) :
    (if (tail.map Char.toLower).dropWhile isSeparator = [] then
        (.ok ⟨String.ofList (name.map Char.toLower), found.map TableAlias.lower⟩ :
          Except Error TableReference)
      else .error e).toOption =
    (if tail.dropWhile isSeparator = [] then
        (.ok ⟨String.ofList name, found⟩ : Except Error TableReference)
      else .error e').toOption.map lower := by
  by_cases htail : tail.dropWhile isSeparator = []
  · have htail' : (tail.map Char.toLower).dropWhile isSeparator = [] := by
      rw [ignoresCase_isSeparator.dropWhile, htail]
      rfl
    rw [if_pos htail, if_pos htail', ← Text.lower_ofList]
    rfl
  · have htail' : (tail.map Char.toLower).dropWhile isSeparator ≠ [] := by
      rwa [ignoresCase_isSeparator.dropWhile, ne_eq, List.map_eq_nil_iff]
    rw [if_neg htail, if_neg htail']
    rfl

/-- **The text in small letters writes the reference in small letters**, and nothing if the
text writes nothing. -/
theorem toOption_parse_lower (s : String) :
    (parse (Text.lower s)).toOption = (parse s).toOption.map lower := by
  unfold parse
  dsimp only
  rw [Text.toList_lower, Text.trimChars_map_toLower, dottedName_map_toLower]
  generalize Text.trimChars s.toList = cs
  by_cases hname : dottedName cs = []
  · rw [hname]
    rfl
  · have hname' : (dottedName cs).map Char.toLower ≠ [] := by rwa [ne_eq, List.map_eq_nil_iff]
    rw [if_neg hname, if_neg hname', List.length_map, ← List.map_drop, alias?_map_toLower]
    cases alias? (cs.drop (dottedName cs).length) with
    | none => exact toOption_end_lower _ _ none _ _
    | some found => exact toOption_end_lower _ found.2 (some found.1) _ _

/-! ## Handing on -/

theorem lower_text (a : TableAlias) : Text.lower a.text = a.lower.text := by
  obtain ⟨word, name⟩ := a
  cases word with
  | none => rfl
  | some word =>
    have hblank : Text.lower " " = " " := by decide +kernel
    show Text.lower (word ++ " " ++ name) = Text.lower word ++ " " ++ Text.lower name
    rw [Text.lower_append, Text.lower_append, hblank]

/-- The text that is handed on, in small letters, is made of its parts in small letters. -/
theorem lower_withName (t : TableReference) (name : String) :
    Text.lower (t.withName name) = t.lower.withName (Text.lower name) := by
  obtain ⟨own, tableAlias⟩ := t
  cases tableAlias with
  | none => rfl
  | some a =>
    have hblank : Text.lower " " = " " := by decide +kernel
    show Text.lower (name ++ " " ++ a.text) = Text.lower name ++ " " ++ a.lower.text
    rw [Text.lower_append, Text.lower_append, hblank, lower_text]

/-- Small letters stay as they are. -/
theorem lower_lower (t : TableReference) : t.lower.lower = t.lower := by
  obtain ⟨name, tableAlias⟩ := t
  have halias : ∀ a : TableAlias, a.lower.lower = a.lower := by
    intro a
    obtain ⟨word, name⟩ := a
    cases word with
    | none => simp [TableAlias.lower, Text.lower_lower]
    | some word => simp [TableAlias.lower, Text.lower_lower]
  cases tableAlias with
  | none => simp [lower, Text.lower_lower]
  | some a => simp [lower, Text.lower_lower, halias]

end TableReference

end QueryScript
