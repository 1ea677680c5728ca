import QueryScript.Policy.Wildcard
import QueryScript.Proofs.Checks
import QueryScript.Proofs.Pattern.Quoting
import QueryScript.Proofs.Text.Folding

/-!
# What a wildcard covers

The stars cut an entry into pieces, and a name is covered when it is the pieces in their order, up
to case, with fillings between them that stay within a segment (`Cut`).  Two readings of the
entry come to the same.  `fits` goes along entry and name and tries at each star the fillings one
after the other, the empty one first; what it finds is a cut, and it finds one if there is one
(`fits_iff_cut`).  And the entry stands for a regular expression, its pieces quoted and joined by
`[^.]*` between the ends of the text (`expression`), which occurs in just these names
(`occurs_iff_cut`).

Both follow the list of pieces, so that neighbouring stars, stars at the ends and pieces that
overlap in the name are no cases of their own.
-/

namespace QueryScript.Wildcard

open Text (fold splitChars)
open Pattern (Reads sequence literal reads_sequence_cons reads_sequence_append reads_literals_iff
  reads_star_set_iff)

/-! ## Cuts -/

/-- The text is the pieces in their order, each of them up to case, with a filling without dots
between one and the next. -/
inductive Cut : List (List Char) → List Char → Prop where
  | last {piece spelled : List Char} (h : spelled.map fold = piece.map fold) :
      Cut [piece] spelled
  | star {piece spelled filling name : List Char} {pieces : List (List Char)}
      (h : spelled.map fold = piece.map fold) (hdot : '.' ∉ filling) (hrest : Cut pieces name) :
      Cut (piece :: pieces) (spelled ++ filling ++ name)

/-- The pieces of an entry between its stars. -/
def pieces (entry : List Char) : List (List Char) :=
  splitChars (· == '*') entry

theorem pieces_ne_nil (entry : List Char) : pieces entry ≠ [] :=
  Text.splitChars_ne_nil _ _

theorem pieces_cons_star (entry : List Char) : pieces ('*' :: entry) = [] :: pieces entry := rfl

theorem exists_pieces_cons {p : Char} (hp : p ≠ '*') (entry : List Char) :
    ∃ piece rest, pieces entry = piece :: rest ∧
      pieces (p :: entry) = (p :: piece) :: rest := by
  obtain ⟨piece, rest, hpieces⟩ := List.exists_cons_of_ne_nil (pieces_ne_nil entry)
  refine ⟨piece, rest, hpieces, ?_⟩
  unfold pieces at hpieces ⊢
  rw [splitChars, if_neg (by simpa using hp), hpieces]

variable {rest : List (List Char)} {name : List Char}

theorem cut_end_iff : Cut [[]] name ↔ name = [] := by
  constructor
  · intro h
    cases h with
    | last h => exact List.map_eq_nil_iff.mp h
    | star _ _ hrest => cases hrest
  · rintro rfl
    exact .last rfl

/-- At a star a filling is passed over. -/
theorem cut_star_iff (hrest : rest ≠ []) :
    Cut ([] :: rest) name ↔ ∃ filling left, name = filling ++ left ∧ '.' ∉ filling ∧
      Cut rest left := by
  constructor
  · intro h
    cases h with
    | last => exact absurd rfl hrest
    | star h hdot hleft =>
      obtain rfl := List.map_eq_nil_iff.mp h
      exact ⟨_, _, rfl, hdot, hleft⟩
  · rintro ⟨filling, left, rfl, hdot, hleft⟩
    have hnone : ([] : List Char).map fold = ([] : List Char).map fold := rfl
    exact .star hnone hdot hleft

/-- At any other character the name goes on with that character up to case. -/
theorem cut_cons_iff {p : Char} {piece : List Char} :
    Cut ((p :: piece) :: rest) name ↔ ∃ c cs, name = c :: cs ∧ fold c = fold p ∧
      Cut (piece :: rest) cs := by
  constructor
  · intro h
    cases h with
    | last h =>
      cases name with
      | nil => cases h
      | cons c cs =>
        obtain ⟨hc, h⟩ := List.cons.inj h
        exact ⟨c, cs, rfl, hc, .last h⟩
    | @star _ spelled filling name _ h hdot hrest =>
      cases spelled with
      | nil => cases h
      | cons c spelled =>
        obtain ⟨hc, h⟩ := List.cons.inj h
        exact ⟨c, spelled ++ filling ++ name, rfl, hc, .star h hdot hrest⟩
  · rintro ⟨c, cs, rfl, hc, h⟩
    cases h with
    | last h => exact .last (List.cons_eq_cons.mpr ⟨hc, h⟩)
    | @star _ spelled filling name _ h hdot hrest =>
      have h' : (c :: spelled).map fold = (p :: piece).map fold := List.cons_eq_cons.mpr ⟨hc, h⟩
      exact .star h' hdot hrest

/-! ## Going along the entry -/

theorem skipSegment_iff {accepts : List Char → Bool} {cs : List Char} :
    skipSegment accepts cs = true ↔ ∃ filling left, cs = filling ++ left ∧ '.' ∉ filling ∧
      accepts left = true := by
  induction cs with
  | nil =>
    constructor
    · intro h
      exact ⟨[], [], rfl, List.not_mem_nil, h⟩
    · rintro ⟨filling, left, hcs, -, h⟩
      obtain ⟨rfl, rfl⟩ := List.append_eq_nil_iff.mp hcs.symm
      exact h
  | cons c cs ih =>
    rw [skipSegment, Bool.or_eq_true, Bool.and_eq_true, bne_iff_ne, ih]
    constructor
    · rintro (h | ⟨hc, filling, left, rfl, hdot, h⟩)
      · exact ⟨[], c :: cs, rfl, List.not_mem_nil, h⟩
      · refine ⟨c :: filling, left, rfl, fun hmem => ?_, h⟩
        rcases List.mem_cons.mp hmem with rfl | hmem
        · exact hc rfl
        · exact hdot hmem
    · rintro ⟨filling, left, hcs, hdot, h⟩
      cases filling with
      | nil => exact .inl (by rw [hcs]; exact h)
      | cons d filling =>
        obtain ⟨rfl, rfl⟩ := List.cons.inj hcs
        have hc : c ≠ '.' := fun hc => hdot (by rw [hc]; exact List.mem_cons_self ..)
        have hrest : '.' ∉ filling := fun hmem => hdot (List.mem_cons_of_mem _ hmem)
        exact .inr ⟨hc, filling, left, rfl, hrest, h⟩

/-- **A name has the form of an entry exactly when it can be cut into its pieces.** -/
theorem fits_iff_cut {entry : List Char} : fits entry name = true ↔ Cut (pieces entry) name := by
  induction entry generalizing name with
  | nil =>
    rw [fits, List.isEmpty_iff]
    exact cut_end_iff.symm
  | cons p entry ih =>
    rw [fits.eq_def]
    dsimp only
    by_cases hstar : p = '*'
    · rw [if_pos hstar, hstar, pieces_cons_star, cut_star_iff (pieces_ne_nil entry),
        skipSegment_iff]
      exact exists_congr fun _ => exists_congr fun _ => and_congr_right fun _ =>
        and_congr_right fun _ => ih
    · obtain ⟨piece, rest, hpieces, hcons⟩ := exists_pieces_cons hstar entry
      rw [if_neg hstar, hcons, cut_cons_iff, ← hpieces]
      cases name with
      | nil => exact ⟨nofun, nofun⟩
      | cons c cs =>
        dsimp only
        rw [Bool.and_eq_true, beq_iff_eq, ih]
        constructor
        · rintro ⟨hc, h⟩
          exact ⟨c, cs, rfl, hc.symm, h⟩
        · rintro ⟨d, ds, hname, hd, h⟩
          obtain ⟨rfl, rfl⟩ := List.cons.inj hname
          exact ⟨hd.symm, h⟩

/-! ## The regular expression -/

/-- The pieces, quoted, with a star of all characters but the dot between them. -/
def quoted : List (List Char) → List Char
  | [] => []
  | [piece] => piece.flatMap Pattern.quoteChar
  | piece :: next :: rest =>
    piece.flatMap Pattern.quoteChar ++ ("[^.]*".toList ++ quoted (next :: rest))

/-- The regular expression of an entry, from the start of a text to its end. -/
def expression (w : Wildcard) : String :=
  String.ofList ('^' :: (quoted (pieces w.text.toList) ++ ['$']))

/-- Any number of characters but dots, as many as possible first. -/
def filler : Pattern := .star true (.set ⟨true, [.one '.']⟩)

/-- The items of the regular expression between the ends. -/
def items : List (List Char) → List Pattern
  | [] => []
  | [piece] => piece.map literal
  | piece :: next :: rest => piece.map literal ++ (filler :: items (next :: rest))

/-- The pattern that the regular expression of an entry is read as. -/
def pattern (w : Wildcard) : Pattern :=
  sequence (.anchor .textStart :: (items (pieces w.text.toList) ++ [.anchor .textEnd]))

open Pattern.Reader (Holds run)

theorem run_filler {held : List Pattern} {r : Pattern.Reader} (h : Holds held r) (cs : List Char) :
    ∃ r', Holds (filler :: held) r' ∧ run r ("[^.]*".toList ++ cs) = run r' cs := by
  have hopen : r.step '[' = some ⟨⟨[], held⟩, [], .cls .start, []⟩ := h.step (by decide)
  refine ⟨⟨⟨[], held⟩, [], .quantified (.set ⟨true, [.one '.']⟩) .star, []⟩, .starred _ _, ?_⟩
  exact Pattern.Reader.run_cons_of_step hopen _

theorem run_quoted {held : List Pattern} {r : Pattern.Reader} (h : Holds held r)
    (ps : List (List Char)) (cs : List Char) :
    ∃ r', Holds ((items ps).reverse ++ held) r' ∧ run r (quoted ps ++ cs) = run r' cs := by
  induction ps generalizing held r with
  | nil => exact ⟨r, h, rfl⟩
  | cons piece ps ih =>
    cases ps with
    | nil => exact h.run_quote piece cs
    | cons next rest =>
      obtain ⟨r₁, h₁, hrun₁⟩ := h.run_quote piece ("[^.]*".toList ++ (quoted (next :: rest) ++ cs))
      obtain ⟨r₂, h₂, hrun₂⟩ := run_filler h₁ (quoted (next :: rest) ++ cs)
      obtain ⟨r₃, h₃, hrun₃⟩ := ih h₂
      refine ⟨r₃, ?_, ?_⟩
      · rw [items, List.reverse_append, List.reverse_cons, List.append_assoc, List.append_assoc]
        exact h₃
      · rw [quoted, List.append_assoc, List.append_assoc, hrun₁, hrun₂, hrun₃]

/-- **The regular expression of an entry is always one.** -/
theorem parse?_expression (w : Wildcard) : Pattern.parse? w.expression = some w.pattern := by
  have hstart : Holds [.anchor .textStart]
      ⟨⟨[], [.anchor .textStart]⟩, [], .plain, []⟩ := .plain _
  obtain ⟨r, hr, hrun⟩ := run_quoted hstart (pieces w.text.toList) ['$']
  have hend : r.step '$' = some ⟨⟨[], .anchor .textEnd ::
      ((items (pieces w.text.toList)).reverse ++ [.anchor .textStart])⟩, [], .plain, []⟩ :=
    hr.step (by decide)
  have hwhole : run .start w.expression.toList =
      run r ['$'] := by
    rw [expression, String.toList_ofList, ← hrun]
    rfl
  rw [Pattern.parse?, hwhole, Pattern.Reader.run_cons_of_step hend]
  refine (Holds.plain _).finish.trans ?_
  rw [List.reverse_cons, List.reverse_append, List.reverse_reverse]
  rfl

/-! ## Where it occurs -/

/-- No other character is a dot up to case. -/
theorem fold_eq_dot_iff {c : Char} : fold c = fold '.' ↔ c = '.' := by
  constructor
  · intro h
    by_cases hforeign : Text.IsForeign c
    · rcases hforeign with rfl | rfl <;> revert h <;> decide +kernel
    · exact Text.eq_of_toLower_eq (by decide) (Text.toLower_eq_of_fold_eq (by decide) h hforeign).2
  · rintro rfl
    rfl

theorem reads_filler_iff {pre text post : List Char} :
    Reads filler pre text post ↔ '.' ∉ text := by
  have hclass : ∀ c : Char, (⟨true, [.one '.']⟩ : Pattern.Class).contains c = true ↔ c ≠ '.' := by
    intro c
    simp [Pattern.Class.contains, Pattern.Part.contains, fold_eq_dot_iff]
  rw [filler, reads_star_set_iff]
  constructor
  · intro h hdot
    exact (hclass '.').mp (h '.' hdot) rfl
  · intro h c hc
    refine (hclass c).mpr ?_
    rintro rfl
    exact h hc

theorem reads_items_iff {ps : List (List Char)} (hps : ps ≠ []) {pre text post : List Char} :
    Reads (sequence (items ps)) pre text post ↔ Cut ps text := by
  induction ps generalizing pre text with
  | nil => exact absurd rfl hps
  | cons piece ps ih =>
    cases ps with
    | nil =>
      rw [items, reads_literals_iff]
      constructor
      · exact .last
      · intro h
        cases h with
        | last h => exact h
        | star _ _ hrest => cases hrest
    | cons next rest =>
      have hne : next :: rest ≠ [] := List.cons_ne_nil _ _
      rw [items, reads_sequence_append]
      constructor
      · rintro ⟨spelled, left, rfl, hspelled, hleft⟩
        obtain ⟨filling, name, rfl, hfilling, hname⟩ := reads_sequence_cons.mp hleft
        rw [← List.append_assoc]
        exact .star (reads_literals_iff.mp hspelled) (reads_filler_iff.mp hfilling)
          ((ih hne).mp hname)
      · intro h
        cases h with
        | @star _ spelled filling name _ hspelled hfilling hname =>
          refine ⟨spelled, filling ++ name, List.append_assoc .., ?_, ?_⟩
          · exact reads_literals_iff.mpr hspelled
          · exact reads_sequence_cons.mpr ⟨filling, name, rfl, reads_filler_iff.mpr hfilling,
              (ih hne).mpr hname⟩

theorem reads_anchor_iff {a : Pattern.Anchor} {pre text post : List Char} :
    Reads (.anchor a) pre text post ↔ text = [] ∧ a.holds (.between pre post) = true := by
  constructor
  · intro h
    cases h with
    | anchor h => exact ⟨rfl, h⟩
  · rintro ⟨rfl, h⟩
    exact .anchor h

/-- The regular expression of an entry occurs in the names that can be cut into the pieces. -/
theorem occurs_iff_cut {w : Wildcard} :
    w.pattern.Occurs name ↔ Cut (pieces w.text.toList) name := by
  have hbetween : ∀ {pre text post : List Char}, Reads (sequence (items (pieces w.text.toList)))
      pre text post ↔ Cut (pieces w.text.toList) text :=
    reads_items_iff (pieces_ne_nil _)
  constructor
  · rintro ⟨pre, text, post, rfl, h⟩
    obtain ⟨first, rest, rfl, hstart, hrest⟩ := reads_sequence_cons.mp h
    obtain ⟨body, last, rfl, hbody, hend⟩ := reads_sequence_append.mp hrest
    obtain ⟨rfl, hbefore⟩ := reads_anchor_iff.mp hstart
    obtain ⟨rfl, hafter⟩ := reads_anchor_iff.mp hend
    -- nothing stands before the start of the text, and nothing after its end
    obtain rfl : pre = [] := List.getLast?_eq_none_iff.mp (Option.isNone_iff_eq_none.mp hbefore)
    obtain rfl : post = [] := List.isEmpty_iff.mp hafter
    rw [List.nil_append, List.append_nil, List.append_nil, List.nil_append]
    exact hbetween.mp hbody
  · intro h
    refine ⟨[], name, [], (List.append_nil _).symm, ?_⟩
    refine reads_sequence_cons.mpr ⟨[], name, rfl, reads_anchor_iff.mpr ⟨rfl, rfl⟩, ?_⟩
    refine reads_sequence_append.mpr ⟨name, [], (List.append_nil _).symm, hbetween.mpr h, ?_⟩
    exact reads_anchor_iff.mpr ⟨rfl, rfl⟩

/-- **A starred entry means what it says.**  If a text has a star between the white space around it,
it is read as an entry, and its regular expression is one.  The entry covers a name exactly when the
name is the pieces between the stars, each of them character by character up to case, with
fillings without dots in the places of the stars; and that is so exactly when the regular
expression occurs in the name. -/
theorem covers_iff_cut (s : String) (hstar : '*' ∈ Text.trimChars s.toList) :
    ∃ w, ofText s = .ok w ∧ Pattern.parse? w.expression = some w.pattern ∧ ∀ name : String,
      (w.covers name = true ↔ Cut (pieces (Text.trimChars s.toList)) name.toList) ∧
      (w.covers name = true ↔ (w.pattern.find? name).isSome = true) := by
  have htrim : (Text.trim s).toList = Text.trimChars s.toList := String.toList_ofList
  have hne : Text.trim s ≠ "" := by
    intro hempty
    rw [← htrim, hempty] at hstar
    cases hstar
  refine ⟨⟨Text.trim s⟩, if_neg hne, parse?_expression _, fun name => ?_⟩
  have hcovers : covers ⟨Text.trim s⟩ name = fits (Text.trim s).toList name.toList := by
    rw [covers, if_pos]
    rw [htrim, List.contains_iff_mem]
    exact hstar
  rw [hcovers, fits_iff_cut, Pattern.find?_isSome_iff, occurs_iff_cut, htrim]
  exact ⟨Iff.rfl, Iff.rfl⟩

/-- Neighbouring stars, brackets, and characters beyond ASCII that are the same up to case: the
Kelvin sign is a `k`, the long s an `s`.  No filling passes a dot. -/
theorem covers_iff_cut_brackets :
    '*' ∈ Text.trimChars " K.**(+)*s\n".toList ∧ ∃ w, ofText " K.**(+)*s\n" = .ok w ∧
      w.expression = "^K\\.[^.]*[^.]*\\(\\+\\)[^.]*s$" ∧
      (w.pattern.find? "\u212a.ab(+)x\u017f").isSome = true ∧
      Cut (pieces (Text.trimChars " K.**(+)*s\n".toList)) "\u212a.ab(+)x\u017f".toList ∧
      ¬ Cut (pieces (Text.trimChars " K.**(+)*s\n".toList)) "k.a.b(+)s".toList := by
  have hstar : '*' ∈ Text.trimChars " K.**(+)*s\n".toList := by decide +kernel
  obtain ⟨hread, hexpression, hcovered, hdotted⟩ :
      (ofText " K.**(+)*s\n").toOption = some ⟨"K.**(+)*s"⟩ ∧
      expression ⟨"K.**(+)*s"⟩ = "^K\\.[^.]*[^.]*\\(\\+\\)[^.]*s$" ∧
      covers ⟨"K.**(+)*s"⟩ "\u212a.ab(+)x\u017f" = true ∧
      covers ⟨"K.**(+)*s"⟩ "k.a.b(+)s" ≠ true := by
    decide +kernel
  obtain ⟨w, hw, -, hcovers⟩ := covers_iff_cut " K.**(+)*s\n" hstar
  obtain rfl : ⟨"K.**(+)*s"⟩ = w :=
    Except.ok.inj ((Checks.eq_ok_of_mem_toOption hread).symm.trans hw)
  obtain ⟨hcut, hfind⟩ := hcovers "\u212a.ab(+)x\u017f"
  refine ⟨hstar, _, hw, hexpression, hfind.mp hcovered, hcut.mp hcovered, fun h => ?_⟩
  exact hdotted ((hcovers "k.a.b(+)s").1.mpr h)

end QueryScript.Wildcard
