import Mathlib.Data.List.TakeWhile
import QueryScript.Proofs.Text.Cutting
import QueryScript.Proofs.Text.Folding
import QueryScript.Proofs.Text.Tokens
import QueryScript.TableReference

/-!
# References that read back

What `parse` accepts has a shape (`WellFormed`): a name of non-empty segments of
identifier characters, and possibly an alias that is an identifier, with or without the
word `as`.  What may stand after a name, and the alias that it gives, is told without the reader
(`WritesAlias`), and whatever is written so is read so (`parse_of_writes`).  Writing another name of
that shape before the same alias therefore gives a text that reads back as just that
(`parse_withName`), which is what makes it safe to judge the parsed name and hand on the text.

The reason is that identifier characters, dots, and the blanks between the parts are three
kinds apart, so that each part ends where the next begins.
-/

namespace QueryScript

namespace TableReference

/-! ## Three kinds of characters -/

/-- Identifier characters are no white space. -/
theorem isBlank_of_isIdent {c : Char} (h : isIdent c = true) : Text.isBlank c = false := by
  -- white space has few code points in all, so they can be tried one by one
  have hpoints : ∀ n ∈ Text.blankPoints, isIdent (Char.ofNat n) = false := by decide +kernel
  rw [Bool.eq_false_iff]
  intro hblank
  have hno := hpoints c.toNat (Text.mem_blankPoints hblank)
  rw [Char.ofNat_toNat, h] at hno
  cases hno

/-- Nor do they separate the parts of a reference. -/
theorem isSeparator_of_isIdent {c : Char} (h : isIdent c = true) : isSeparator c = false := by
  rw [Bool.eq_false_iff]
  intro hsep
  simp only [isSeparator, Bool.or_eq_true, beq_iff_eq] at hsep
  rcases hsep with ((rfl | rfl) | rfl) | rfl <;> revert h <;> decide +kernel

theorem isIdent_dot : isIdent '.' = false := by
  decide +kernel

/-! ## The shape of a reference -/

/-- A non-empty run of identifier characters. -/
def IsIdentifier (cs : List Char) : Prop :=
  cs ≠ [] ∧ ∀ c ∈ cs, isIdent c = true

/-- Identifiers with dots between them. -/
def IsName (cs : List Char) : Prop :=
  ∃ segs, segs ≠ [] ∧ (∀ seg ∈ segs, IsIdentifier seg) ∧ cs = joinSegments segs

/-- The word `as` in any case. -/
def IsAsWord (w : String) : Prop :=
  ∃ a s : Char, w.toList = [a, s] ∧ a.toLower = 'a' ∧ s.toLower = 's'

/-- A non-empty run of separators. -/
def IsGap (cs : List Char) : Prop :=
  cs ≠ [] ∧ ∀ c ∈ cs, isSeparator c = true

/-- What may stand after a name, and the alias that it gives.  A word that stands alone is the
alias, even if it is the word `as`. -/
inductive WritesAlias : List Char → Option TableAlias → Prop where
  | absent : WritesAlias [] none
  | bare {gap name : List Char} (hgap : IsGap gap) (hname : IsIdentifier name) :
      WritesAlias (gap ++ name) (some ⟨none, String.ofList name⟩)
  | worded {gap between name : List Char} {word : String} (hgap : IsGap gap)
      (hword : IsAsWord word) (hbetween : IsGap between) (hname : IsIdentifier name) :
      WritesAlias (gap ++ (word.toList ++ (between ++ name)))
        (some ⟨some word, String.ofList name⟩)

/-- A reference such as `parse` accepts. -/
structure WellFormed (t : TableReference) : Prop where
  name : IsName t.name.toList
  alias_name : ∀ a ∈ t.tableAlias, IsIdentifier a.name.toList
  alias_word : ∀ a ∈ t.tableAlias, ∀ w ∈ a.word, IsAsWord w

/-! ## What is parsed is well formed -/

/-- Segments are joined by dots. -/
theorem joinSegments_cons {seg : List Char} {segs : List (List Char)} (h : segs ≠ []) :
    joinSegments (seg :: segs) = seg ++ '.' :: joinSegments segs := by
  cases segs with
  | nil => exact absurd rfl h
  | cons _ _ => rfl

/-- What is read as a dotted name is a name, if anything is read. -/
theorem isName_dottedName {cs : List Char} (h : dottedName cs ≠ []) : IsName (dottedName cs) := by
  refine ⟨segments (cs.takeWhile fun c => isIdent c || c == '.'), ?_, ?_, rfl⟩
  · intro hnil
    rw [dottedName, hnil] at h
    exact h rfl
  · intro seg hseg
    have hne : seg ≠ [] := by simpa using List.all_eq_true.mp List.all_takeWhile seg hseg
    refine ⟨hne, fun c hc => ?_⟩
    obtain ⟨hmem, hdot⟩ := Text.of_mem_splitChars ((List.takeWhile_subset _) hseg) c hc
    have hkind := List.all_eq_true.mp List.all_takeWhile c hmem
    rw [Bool.or_eq_true] at hkind
    rcases hkind with hident | hdot'
    · exact hident
    · rw [hdot'] at hdot
      cases hdot

theorem identifier?_eq_some {cs name tail : List Char} (h : identifier? cs = some (name, tail)) :
    IsIdentifier name ∧ cs = name ++ tail := by
  rw [identifier?] at h
  split at h
  next => cases h
  next hne =>
    cases h
    refine ⟨⟨hne, fun c hc => List.all_eq_true.mp List.all_takeWhile c hc⟩, ?_⟩
    exact List.takeWhile_append_dropWhile.symm

/-- A text that begins with a separator begins with a gap. -/
theorem exists_gap {c : Char} (cs : List Char) (hc : isSeparator c = true) :
    ∃ gap, IsGap gap ∧ c :: cs = gap ++ (c :: cs).dropWhile isSeparator := by
  refine ⟨(c :: cs).takeWhile isSeparator, ⟨?_, fun d hd => ?_⟩, ?_⟩
  · rw [List.takeWhile_cons_of_pos hc]
    exact List.cons_ne_nil _ _
  · exact List.all_eq_true.mp List.all_takeWhile d hd
  · exact List.takeWhile_append_dropWhile.symm

theorem asWord?_eq_some {cs rest : List Char} {w : String} (h : asWord? cs = some (w, rest)) :
    IsAsWord w ∧ ∃ between, IsGap between ∧ cs = w.toList ++ (between ++ rest) := by
  rw [asWord?.eq_def] at h
  split at h
  next a s c cs =>
    split at h
    next hword =>
      cases h
      obtain ⟨between, hbetween, hcs⟩ := exists_gap cs hword.2.2
      rw [List.dropWhile_cons_of_pos hword.2.2] at hcs
      refine ⟨⟨a, s, String.toList_ofList, hword.1, hword.2.1⟩, between, hbetween, ?_⟩
      rw [← hcs, String.toList_ofList]
      rfl
    next => cases h
  next => cases h

/-- An alias that is read stands at the start of the text. -/
theorem exists_writes_of_alias? {cs tail : List Char} {a : TableAlias}
    (h : alias? cs = some (a, tail)) :
    ∃ written, cs = written ++ tail ∧ WritesAlias written (some a) := by
  rw [alias?.eq_def] at h
  split at h
  next => cases h
  next c cs =>
    split at h
    next => cases h
    next hc =>
      rw [Bool.not_eq_true, Bool.not_eq_false'] at hc
      obtain ⟨gap, hgap, hcs⟩ := exists_gap cs hc
      dsimp only at h
      split at h
      next w rest hword =>
        obtain ⟨⟨name, tail'⟩, hname, heq⟩ := Option.map_eq_some_iff.mp h
        cases heq
        obtain ⟨hword, between, hbetween, hbody⟩ := asWord?_eq_some hword
        obtain ⟨hname, hrest⟩ := identifier?_eq_some hname
        refine ⟨_, ?_, .worded hgap hword hbetween hname⟩
        rw [hcs, hbody, hrest]
        simp only [List.append_assoc]
      next =>
        obtain ⟨⟨name, tail'⟩, hname, heq⟩ := Option.map_eq_some_iff.mp h
        cases heq
        obtain ⟨hname, hbody⟩ := identifier?_eq_some hname
        refine ⟨_, ?_, .bare hgap hname⟩
        rw [hcs, hbody, List.append_assoc]

/-- An alias is an identifier, and the word before it is `as`. -/
theorem WritesAlias.isIdentifier {written : List Char} {a : TableAlias}
    (h : WritesAlias written (some a)) :
    IsIdentifier a.name.toList ∧ ∀ w ∈ a.word, IsAsWord w := by
  cases h with
  | bare hgap hname =>
    refine ⟨?_, nofun⟩
    rwa [String.toList_ofList]
  | worded hgap hword hbetween hname =>
    refine ⟨?_, ?_⟩
    · rwa [String.toList_ofList]
    · rintro _ ⟨⟩
      exact hword

/-- The parts of a text that is accepted, and nothing after them. -/
theorem parse_eq_ok_iff {s : String} {t : TableReference} {cs name : List Char}
    (hcs : cs = Text.trimChars s.toList) (hname : name = dottedName cs) :
    parse s = .ok t ↔ name ≠ [] ∧ t.name = String.ofList name ∧
      match alias? (cs.drop name.length) with
      | some (a, tail) => t.tableAlias = some a ∧ tail.dropWhile isSeparator = []
      | none => t.tableAlias = none ∧ (cs.drop name.length).dropWhile isSeparator = [] := by
  -- with an alias or without, nothing but separators may be left at the end
  have hcut : ∀ (found : Option TableAlias) (tail : List Char),
      (if tail.dropWhile isSeparator = [] then
        (Except.ok ⟨String.ofList name, found⟩ : Except Error TableReference)
      else .error (.table s
        ("unexpected trailing content '" ++ String.ofList (tail.dropWhile isSeparator) ++ "'")))
        = .ok t ↔
      t.name = String.ofList name ∧ t.tableAlias = found ∧ tail.dropWhile isSeparator = [] := by
    intro found tail
    split
    next htail =>
      constructor
      · intro h
        cases h
        exact ⟨rfl, rfl, htail⟩
      · intro h
        obtain ⟨hn, ha, -⟩ := h
        rw [← hn, ← ha]
    next htail =>
      constructor
      · intro h
        cases h
      · intro h
        exact absurd h.2.2 htail
  unfold parse
  dsimp only
  rw [← hcs, ← hname]
  split
  next hnil =>
    constructor
    · intro h
      cases h
    · intro h
      exact absurd hnil h.1
  next hne =>
    rw [and_iff_right hne]
    cases alias? (cs.drop name.length) with
    | none => exact hcut none _
    | some found => exact hcut (some found.1) found.2

/-- A reference that is read is well formed. -/
theorem wellFormed_of_parse {s : String} {t : TableReference} (h : parse s = .ok t) :
    t.WellFormed := by
  obtain ⟨hne, hname, h⟩ := (parse_eq_ok_iff rfl rfl).mp h
  have halias : ∀ a ∈ t.tableAlias, IsIdentifier a.name.toList ∧ ∀ w ∈ a.word, IsAsWord w := by
    intro a ha
    split at h
    next a' tail hfound =>
      rw [h.1] at ha
      cases ha
      obtain ⟨written, -, hwritten⟩ := exists_writes_of_alias? hfound
      exact hwritten.isIdentifier
    next =>
      rw [h.1] at ha
      cases ha
  refine ⟨?_, fun a ha => (halias a ha).1, fun a ha => (halias a ha).2⟩
  rw [hname, String.toList_ofList]
  exact isName_dottedName hne

/-! ## What is well formed reads back -/

theorem IsIdentifier.dot_not_mem {cs : List Char} (h : IsIdentifier cs) : '.' ∉ cs := by
  intro hdot
  have hident := h.2 _ hdot
  rw [isIdent_dot] at hident
  cases hident

/-- Segments without dots come back when what they are joined to is split at dots. -/
theorem splitChars_joinSegments {segs : List (List Char)} (hne : segs ≠ [])
    (h : ∀ seg ∈ segs, '.' ∉ seg) : Text.splitChars (· == '.') (joinSegments segs) = segs := by
  induction segs with
  | nil => exact absurd rfl hne
  | cons seg segs ih =>
    have hseg : ∀ c ∈ seg, (c == '.') = false := by
      intro c hc
      rw [beq_eq_false_iff_ne]
      rintro rfl
      exact h seg (List.mem_cons_self ..) hc
    by_cases hsegs : segs = []
    · rw [hsegs]
      exact Text.splitChars_of_no_separator hseg
    · rw [joinSegments_cons hsegs, Text.splitChars_append_separator (by rfl),
        Text.splitChars_of_no_separator hseg,
        ih hsegs fun s hs => h s (List.mem_cons_of_mem _ hs)]
      rfl

/-- A character of joined segments is a dot or stands in a segment. -/
theorem mem_joinSegments {segs : List (List Char)} {c : Char} (h : c ∈ joinSegments segs) :
    c = '.' ∨ ∃ seg ∈ segs, c ∈ seg := by
  induction segs with
  | nil => cases h
  | cons seg segs ih =>
    by_cases hsegs : segs = []
    · rw [hsegs] at h
      exact .inr ⟨seg, List.mem_cons_self .., h⟩
    · rw [joinSegments_cons hsegs] at h
      rcases List.mem_append.mp h with h | h
      · exact .inr ⟨seg, List.mem_cons_self .., h⟩
      · rcases List.mem_cons.mp h with h | h
        · exact .inl h
        · rcases ih h with h | ⟨seg', hseg', hc⟩
          · exact .inl h
          · exact .inr ⟨seg', List.mem_cons_of_mem _ hseg', hc⟩

/-- The characters of a name are those of identifiers, and dots. -/
theorem IsName.isIdent_or_dot {cs : List Char} (h : IsName cs) :
    ∀ c ∈ cs, (isIdent c || c == '.') = true := by
  obtain ⟨segs, -, hsegs, rfl⟩ := h
  intro c hc
  rw [Bool.or_eq_true]
  rcases mem_joinSegments hc with rfl | ⟨seg, hseg, hc⟩
  · exact .inr rfl
  · exact .inl ((hsegs seg hseg).2 c hc)

theorem IsName.ne_nil {cs : List Char} (h : IsName cs) : cs ≠ [] := by
  obtain ⟨segs, hne, hsegs, rfl⟩ := h
  cases segs with
  | nil => exact absurd rfl hne
  | cons seg segs =>
    have hseg := (hsegs seg (List.mem_cons_self ..)).1
    by_cases hrest : segs = []
    · rw [hrest]
      exact hseg
    · rw [joinSegments_cons hrest]
      intro hnil
      exact hseg (List.append_eq_nil_iff.mp hnil).1

/-- A name begins and ends with an identifier character. -/
theorem IsName.ends {cs : List Char} (h : IsName cs) :
    (∀ c ∈ cs.head?, isIdent c = true) ∧ ∀ c ∈ cs.getLast?, isIdent c = true := by
  obtain ⟨segs, -, hsegs, rfl⟩ := h
  induction segs with
  | nil => exact ⟨nofun, nofun⟩
  | cons seg segs ih =>
    have hseg := hsegs seg (List.mem_cons_self ..)
    have hends : (∀ c ∈ seg.head?, isIdent c = true) ∧ ∀ c ∈ seg.getLast?, isIdent c = true :=
      ⟨fun c hc => hseg.2 c (List.mem_of_mem_head? hc),
        fun c hc => hseg.2 c (List.mem_of_mem_getLast? hc)⟩
    by_cases hrest : segs = []
    · rw [hrest]
      exact hends
    · have hlater := ih fun s hs => hsegs s (List.mem_cons_of_mem _ hs)
      have hne : joinSegments segs ≠ [] :=
        IsName.ne_nil ⟨segs, hrest, fun s hs => hsegs s (List.mem_cons_of_mem _ hs), rfl⟩
      rw [joinSegments_cons hrest]
      constructor
      · intro c hc
        rw [List.head?_append, List.head?_eq_some_head hseg.1, Option.some_or] at hc
        exact hends.1 c (by rw [List.head?_eq_some_head hseg.1]; exact hc)
      · intro c hc
        rw [List.getLast?_append, List.getLast?_cons, List.getLast?_eq_some_getLast hne,
          Option.getD_some, Option.some_or] at hc
        exact hlater.2 c (by rw [List.getLast?_eq_some_getLast hne]; exact hc)

/-- A name is the longest name at the start of a text in which something else follows it. -/
theorem IsName.dottedName_append {cs rest : List Char} (h : IsName cs)
    (hrest : ∀ c ∈ rest.head?, (isIdent c || c == '.') = false) :
    dottedName (cs ++ rest) = cs := by
  have htake : (cs ++ rest).takeWhile (fun c => isIdent c || c == '.') = cs := by
    rw [List.takeWhile_append_of_pos h.isIdent_or_dot]
    cases rest with
    | nil => exact List.append_nil cs
    | cons c rest =>
      rw [List.takeWhile_cons_of_neg (by rw [hrest c rfl]; exact Bool.false_ne_true),
        List.append_nil]
  obtain ⟨segs, hne, hsegs, rfl⟩ := h
  have hdots : ∀ seg ∈ segs, '.' ∉ seg := fun seg hseg => (hsegs seg hseg).dot_not_mem
  rw [dottedName, htake, segments, splitChars_joinSegments hne hdots,
    List.takeWhile_eq_self_iff.mpr fun seg hseg => decide_eq_true (hsegs seg hseg).1]

/-- An identifier at the end of a text is read as a whole. -/
theorem IsIdentifier.identifier? {cs : List Char} (h : IsIdentifier cs) :
    TableReference.identifier? cs = some (cs, []) := by
  rw [TableReference.identifier?, List.takeWhile_eq_self_iff.mpr h.2,
    List.dropWhile_eq_nil_iff.mpr h.2]
  split
  next hnil => exact absurd rfl h.1
  next => rfl

theorem IsIdentifier.dropWhile_isSeparator {cs : List Char} (h : IsIdentifier cs) :
    cs.dropWhile isSeparator = cs := by
  cases cs with
  | nil => rfl
  | cons c cs =>
    have hc := isSeparator_of_isIdent (h.2 c (List.mem_cons_self ..))
    rw [List.dropWhile_cons_of_neg (by rw [hc]; exact Bool.false_ne_true)]

/-- An identifier alone is not taken for the word `as`, which needs a separator after it. -/
theorem IsIdentifier.asWord? {cs : List Char} (h : IsIdentifier cs) :
    TableReference.asWord? cs = none := by
  rw [TableReference.asWord?.eq_def]
  split
  next a s c rest =>
    have hc := isSeparator_of_isIdent (h.2 c (by simp))
    rw [if_neg]
    intro h
    obtain ⟨-, -, hsep⟩ := h
    rw [hc] at hsep
    cases hsep
  next => rfl

/-- The word `as` is an identifier itself. -/
theorem IsAsWord.isIdentifier {w : String} (h : IsAsWord w) : IsIdentifier w.toList := by
  obtain ⟨x, y, hchars, hx, hy⟩ := h
  have hletter : ∀ c : Char, c.toLower = 'a' ∨ c.toLower = 's' →
      TableReference.isIdent c = true := by
    intro c hc
    -- above ASCII a letter is its own small letter, so there `c` would be ASCII after all
    by_cases hascii : c.toNat < 128
    · exact Text.forall_ascii (P := fun c => c.toLower = 'a' ∨ c.toLower = 's' →
        TableReference.isIdent c = true) (by decide +kernel) hascii hc
    · rw [Text.toLower_of_not_ascii (by omega)] at hc
      rcases hc with rfl | rfl <;> exact absurd (by decide) hascii
  rw [hchars]
  refine ⟨List.cons_ne_nil _ _, fun c hc => ?_⟩
  rcases List.mem_cons.mp hc with rfl | hc
  · exact hletter c (.inl hx)
  · rw [List.mem_singleton.mp hc]
    exact hletter y (.inr hy)

/-- Separators are passed up to what is none. -/
theorem IsGap.dropWhile_append {gap rest : List Char} (h : IsGap gap)
    (hrest : rest.dropWhile isSeparator = rest) : (gap ++ rest).dropWhile isSeparator = rest := by
  rw [List.dropWhile_append_of_pos h.2, hrest]

/-- The word `as` is read as far as the identifier after it. -/
theorem asWord?_append {w : String} (hw : IsAsWord w) {between cs : List Char}
    (hbetween : IsGap between) (h : IsIdentifier cs) :
    TableReference.asWord? (w.toList ++ (between ++ cs)) = some (w, cs) := by
  obtain ⟨x, y, hchars, hx, hy⟩ := hw
  have hw : String.ofList [x, y] = w := by rw [← hchars, String.ofList_toList]
  have hdrop := hbetween.dropWhile_append h.dropWhile_isSeparator
  obtain ⟨hne, hseparators⟩ := hbetween
  cases between with
  | nil => exact absurd rfl hne
  | cons c between =>
    have hc := hseparators c (List.mem_cons_self ..)
    rw [List.cons_append, List.dropWhile_cons_of_pos hc] at hdrop
    rw [hchars]
    show (if x.toLower = 'a' ∧ y.toLower = 's' ∧ isSeparator c = true then
      some (String.ofList [x, y], (between ++ cs).dropWhile isSeparator) else none) = _
    rw [if_pos ⟨hx, hy, hc⟩, hdrop, hw]

theorem alias?_append {gap body : List Char} (hgap : IsGap gap)
    (hbody : body.dropWhile isSeparator = body) :
    alias? (gap ++ body) =
      match asWord? body with
      | some (word, rest) =>
        (identifier? rest).map fun found => (⟨some word, String.ofList found.1⟩, found.2)
      | none => (identifier? body).map fun found => (⟨none, String.ofList found.1⟩, found.2) := by
  have hdrop := hgap.dropWhile_append hbody
  obtain ⟨hne, hseparators⟩ := hgap
  cases gap with
  | nil => exact absurd rfl hne
  | cons c gap =>
    rw [List.cons_append] at hdrop ⊢
    rw [alias?.eq_def]
    dsimp only
    rw [hdrop, hseparators c (List.mem_cons_self ..)]
    rfl

/-- An alias that is written is read. -/
theorem WritesAlias.alias? {written : List Char} {a : TableAlias}
    (h : WritesAlias written (some a)) : TableReference.alias? written = some (a, []) := by
  cases h with
  | bare hgap hname =>
    rw [alias?_append hgap hname.dropWhile_isSeparator, hname.asWord?]
    dsimp only
    rw [hname.identifier?]
    rfl
  | @worded gap between name word hgap hword hbetween hname =>
    -- the word begins with a letter, so no separator is skipped before it
    have hdrop : (word.toList ++ (between ++ name)).dropWhile isSeparator =
        word.toList ++ (between ++ name) := by
      obtain ⟨hne, hident⟩ := hword.isIdentifier
      cases hchars : word.toList with
      | nil => exact absurd hchars hne
      | cons c cs =>
        have hc := isSeparator_of_isIdent (hident c (by rw [hchars]; exact List.mem_cons_self ..))
        rw [List.cons_append, List.dropWhile_cons_of_neg (by rw [hc]; exact Bool.false_ne_true)]
    rw [alias?_append hgap hdrop, asWord?_append hword hbetween hname]
    dsimp only
    rw [hname.identifier?]
    rfl

/-- What is written after a name begins with a separator. -/
theorem WritesAlias.head {written : List Char} {a : Option TableAlias} (h : WritesAlias written a) :
    ∀ c ∈ written.head?, isSeparator c = true := by
  have hgap : ∀ {gap rest : List Char}, IsGap gap → ∀ c ∈ (gap ++ rest).head?,
      isSeparator c = true := by
    intro gap rest hgap c hc
    rw [List.head?_append, List.head?_eq_some_head hgap.1, Option.some_or] at hc
    exact hgap.2 c (List.mem_of_mem_head? (by rw [List.head?_eq_some_head hgap.1]; exact hc))
  cases h with
  | absent => exact nofun
  | bare h _ => exact hgap h
  | worded h _ _ _ => exact hgap h

/-- And it ends with an identifier character. -/
theorem WritesAlias.last {written : List Char} {a : Option TableAlias} (h : WritesAlias written a) :
    ∀ c ∈ written.getLast?, isIdent c = true := by
  have hname : ∀ {front name : List Char}, IsIdentifier name → ∀ c ∈ (front ++ name).getLast?,
      isIdent c = true := by
    intro front name hname c hc
    rw [List.getLast?_append, List.getLast?_eq_some_getLast hname.1, Option.some_or] at hc
    cases hc
    exact hname.2 _ (List.getLast_mem hname.1)
  cases h with
  | absent => exact nofun
  | bare _ h => exact hname h
  | @worded gap between name word _ _ _ h =>
    rw [show gap ++ (word.toList ++ (between ++ name)) = (gap ++ (word.toList ++ between)) ++ name
      by simp only [List.append_assoc]]
    exact hname h

/-- Separators are neither identifier characters nor dots. -/
theorem not_name_of_isSeparator {c : Char} (h : isSeparator c = true) :
    (isIdent c || c == '.') = false := by
  simp only [isSeparator, Bool.or_eq_true, beq_iff_eq] at h
  rcases h with ((rfl | rfl) | rfl) | rfl <;> decide +kernel

/-- A name with an alias after it is read as just these. -/
theorem parse_of_writes {s : String} {name tail : List Char} {a : Option TableAlias}
    (hcs : Text.trimChars s.toList = name ++ tail) (hname : IsName name)
    (htail : WritesAlias tail a) : parse s = .ok ⟨String.ofList name, a⟩ := by
  have hdotted : dottedName (name ++ tail) = name :=
    hname.dottedName_append fun c hc => not_name_of_isSeparator (htail.head c hc)
  refine (parse_eq_ok_iff hcs.symm hdotted.symm).mpr ⟨hname.ne_nil, rfl, ?_⟩
  rw [List.drop_left]
  cases a with
  | none =>
    cases htail
    exact ⟨rfl, rfl⟩
  | some a =>
    rw [htail.alias?]
    exact ⟨rfl, rfl⟩

/-- An alias is written by its text, after a blank. -/
theorem writesAlias_text {a : TableAlias} (hname : IsIdentifier a.name.toList)
    (hword : ∀ w ∈ a.word, IsAsWord w) : WritesAlias (' ' :: a.text.toList) (some a) := by
  have hblank : IsGap [' '] :=
    ⟨List.cons_ne_nil _ _, fun c hc => by rw [List.mem_singleton.mp hc]; rfl⟩
  obtain ⟨word, name⟩ := a
  cases word with
  | none =>
    have hwritten := WritesAlias.bare hblank hname
    rwa [String.ofList_toList] at hwritten
  | some w =>
    have hwritten := WritesAlias.worded hblank (hword w rfl) hblank hname
    rw [String.ofList_toList] at hwritten
    rw [TableAlias.text]
    dsimp only
    rw [String.toList_append, String.toList_append, List.append_assoc]
    exact hwritten

/-- **Another name before the same alias reads back.** -/
theorem parse_withName {t : TableReference} (ht : t.WellFormed) {name : String}
    (hname : IsName name.toList) : parse (t.withName name) = .ok ⟨name, t.tableAlias⟩ := by
  obtain ⟨tail, htext, htail⟩ : ∃ tail, (t.withName name).toList = name.toList ++ tail ∧
      WritesAlias tail t.tableAlias := by
    rw [withName]
    cases halias : t.tableAlias with
    | none => exact ⟨[], (List.append_nil _).symm, .absent⟩
    | some a =>
      refine ⟨' ' :: a.text.toList, ?_,
        writesAlias_text (ht.alias_name a halias) (ht.alias_word a halias)⟩
      dsimp only
      rw [String.toList_append, String.toList_append, List.append_assoc]
      rfl
  have htrim : Text.trimChars (name.toList ++ tail) = name.toList ++ tail := by
    refine Text.trimChars_of_ends ?_ ?_
    · intro c hc
      rw [List.head?_append, List.head?_eq_some_head hname.ne_nil, Option.some_or] at hc
      exact isBlank_of_isIdent (hname.ends.1 c (by rwa [List.head?_eq_some_head hname.ne_nil]))
    · intro c hc
      rw [List.getLast?_append] at hc
      rcases Option.or_eq_some_iff.mp hc with hc | ⟨-, hc⟩
      · exact isBlank_of_isIdent (htail.last c hc)
      · exact isBlank_of_isIdent (hname.ends.2 c hc)
  have hread := parse_of_writes (s := t.withName name) (by rw [htext, htrim]) hname htail
  rwa [String.ofList_toList] at hread

end TableReference

end QueryScript
