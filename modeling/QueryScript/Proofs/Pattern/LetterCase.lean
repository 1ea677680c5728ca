import QueryScript.Pattern.Basic
import QueryScript.Proofs.Text.LetterCase

/-!
# Patterns do not see letter case

A pattern looks at a text through its classes and its conditions on a place only, and
neither distinguishes a letter from its small letter.  So it stops at the same places
in a text and in the text in small letters (`ends_lower`), by induction on the
pattern, and with a repetition on its budget of steps.  What the search finds in small
letters is therefore what it finds, in small letters (`find?_lower`).
-/

namespace QueryScript.Pattern

open Text (IgnoresCase)

/-! ## Classes and conditions -/

theorem Named.ignoresCase (n : Named) : IgnoresCase n.contains := by
  intro c
  cases n with
  | word => exact Text.ignoresCase_isWord c
  | digit => exact Text.ignoresCase_isDecimalDigit c
  | space => exact Text.ignoresCase_isBlank c

/-- Letter case does not matter to a part of a class: to a range because both cases of a character
are tried, and to what is made of parts because it does not matter to them. -/
theorem Part.ignoresCase (part : Part) : IgnoresCase part.contains := by
  intro c
  induction part with
  | one d => rw [contains, contains, Text.ignoresCase_fold c]
  | range lo hi => rw [contains, contains, Text.ignoresCase_caseVariants c]
  | named n => exact n.ignoresCase c
  | outside n => rw [contains, contains, n.ignoresCase c]
  | empty => rfl
  | union a b iha ihb => rw [contains, contains, iha, ihb]
  | inter a b iha ihb => rw [contains, contains, iha, ihb]
  | compl a ih => rw [contains, contains, ih]

theorem Class.ignoresCase (cls : Class) : IgnoresCase cls.contains := by
  intro c
  have hparts : cls.parts.any (·.contains c.toLower) = cls.parts.any (·.contains c) := by
    congr 1
    funext part
    exact part.ignoresCase c
  rw [contains, contains, hparts]

/-- The same place in the text in small letters. -/
def Place.lower (p : Place) : Place :=
  ⟨p.before.map Char.toLower, p.after.map Char.toLower⟩

@[simp]
theorem Place.length_after_lower (p : Place) : p.lower.after.length = p.after.length :=
  List.length_map ..

theorem isWordAt_map_toLower (c : Option Char) : isWordAt (c.map Char.toLower) = isWordAt c := by
  cases c with
  | none => rfl
  | some c => exact Text.ignoresCase_isWord c

/-- An anchor looks only at which characters are of words and which end a line. -/
theorem Anchor.holds_lower (a : Anchor) (p : Place) : a.holds p.lower = a.holds p := by
  have hbefore : isWordAt p.lower.before = isWordAt p.before := isWordAt_map_toLower _
  have hafter : isWordAt p.lower.after.head? = isWordAt p.after.head? := by
    rw [Place.lower, List.head?_map, isWordAt_map_toLower]
  cases a with
  | wordBoundary => rw [holds, holds, hbefore, hafter]
  | noWordBoundary => rw [holds, holds, hbefore, hafter]
  | textStart => exact Option.isNone_map
  | textEnd => exact List.isEmpty_map

/-! ## Where a match can stop -/

/-- A step that keeps step with small letters is repeated so. -/
theorem repeated_lower {greedy : Bool} {step : Place → List Place}
    (hstep : ∀ p, step p.lower = (step p).map Place.lower) (fuel : Nat) :
    ∀ p : Place, repeated greedy step fuel p.lower = (repeated greedy step fuel p).map .lower := by
  induction fuel with
  | zero => intro p; rfl
  | succ fuel ih =>
    intro p
    have hmore : ((step p.lower).flatMap fun q =>
          if q.after.length < p.lower.after.length then repeated greedy step fuel q else [q]) =
        ((step p).flatMap fun q =>
          if q.after.length < p.after.length then repeated greedy step fuel q else [q]).map
            .lower := by
      rw [hstep, List.flatMap_map, List.map_flatMap]
      congr 1
      funext q
      rw [Place.length_after_lower, Place.length_after_lower]
      split
      · exact ih q
      · rfl
    unfold repeated
    rw [hmore]
    cases greedy with
    | true =>
      show _ ++ [p.lower] = List.map Place.lower (_ ++ [p])
      rw [List.map_append]
      rfl
    | false => rfl

/-- **A pattern stops at the same places whatever the letter case.** -/
theorem ends_lower (pattern : Pattern) :
    ∀ p : Place, ends pattern p.lower = (ends pattern p).map .lower := by
  induction pattern with
  | empty => intro p; rfl
  | set cls =>
    intro p
    obtain ⟨before, after⟩ := p
    cases after with
    | nil => rfl
    | cons c cs =>
      show (if cls.contains c.toLower then _ else _) = List.map _ (if cls.contains c then _ else _)
      rw [cls.ignoresCase c]
      split
      · rfl
      · rfl
  | anchor a =>
    intro p
    rw [ends, ends, a.holds_lower]
    split
    · rfl
    · rfl
  | seq first second ih₁ ih₂ =>
    intro p
    rw [ends, ends, ih₁, List.flatMap_map, List.map_flatMap]
    congr 1
    funext q
    exact ih₂ q
  | alt preferred other ih₁ ih₂ =>
    intro p
    rw [ends, ends, ih₁, ih₂, List.map_append]
  | star greedy body ih =>
    intro p
    rw [ends, ends, Place.length_after_lower]
    exact repeated_lower ih _ p

/-! ## The search -/

/-- What is matched at a place is matched there in small letters. -/
theorem matchAt?_lower (pattern : Pattern) (p : Place) :
    pattern.matchAt? p.lower = (pattern.matchAt? p).map (List.map Char.toLower) := by
  rw [matchAt?, matchAt?, ends_lower, List.head?_map, Option.map_map, Option.map_map]
  congr 1
  funext q
  show List.take (p.lower.after.length - q.lower.after.length) (p.after.map Char.toLower) = _
  rw [Place.length_after_lower, Place.length_after_lower]
  exact List.map_take.symm

/-- So the search finds the same piece of the text. -/
theorem findFrom?_lower (pattern : Pattern) (cs : List Char) :
    ∀ before : Option Char,
      pattern.findFrom? (before.map Char.toLower) (cs.map Char.toLower) =
        (pattern.findFrom? before cs).map (List.map Char.toLower) := by
  induction cs with
  | nil =>
    intro before
    exact matchAt?_lower pattern ⟨before, []⟩
  | cons c cs ih =>
    intro before
    have hhere : pattern.matchAt? ⟨before.map Char.toLower, c.toLower :: cs.map Char.toLower⟩ =
        (pattern.matchAt? ⟨before, c :: cs⟩).map (List.map Char.toLower) :=
      matchAt?_lower pattern ⟨before, c :: cs⟩
    rw [List.map_cons, findFrom?, findFrom?, hhere]
    cases pattern.matchAt? ⟨before, c :: cs⟩ with
    | some text => rfl
    | none => exact ih (some c)

/-- **The search finds the same text whatever the letter case**, up to that case. -/
theorem find?_lower (pattern : Pattern) (s : String) :
    pattern.find? (Text.lower s) = (pattern.find? s).map Text.lower := by
  have hfind := findFrom?_lower pattern s.toList none
  rw [Option.map_none] at hfind
  rw [find?, find?, Text.toList_lower, hfind, Option.map_map, Option.map_map]
  congr 1
  funext text
  exact (Text.lower_ofList text).symm

end QueryScript.Pattern
