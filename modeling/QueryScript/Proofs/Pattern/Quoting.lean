import QueryScript.Pattern.Reader
import QueryScript.Proofs.Pattern.Reading

/-!
# Patterns put together from text

A text becomes a part of a pattern by quoting: a character that has a meaning in patterns is
written after a backslash, every other one as it is.  What is quoted is read as one literal
after the other (`Holds.run_quote`), so it reads the text itself, up to case, and nothing else
(`reads_literals_iff`).

Outside of groups the reader holds the items it has read, and one thing more: a star that has
just been read may still turn out to prefer fewer.  `Holds` covers both, since what is put
together here never goes on with a question mark.
-/

namespace QueryScript.Pattern

/-! ## Items one after the other -/

theorem reads_empty_iff {pre text post : List Char} : Reads .empty pre text post ↔ text = [] := by
  constructor
  · intro h
    cases h
    rfl
  · rintro rfl
    exact .empty

/-- A sequence reads what its first item reads and then what the others do. -/
theorem reads_sequence_cons {p : Pattern} {ps : List Pattern} {pre text post : List Char} :
    Reads (sequence (p :: ps)) pre text post ↔ ∃ first rest, text = first ++ rest ∧
      Reads p pre first (rest ++ post) ∧ Reads (sequence ps) (pre ++ first) rest post := by
  cases ps with
  | nil =>
    constructor
    · intro h
      exact ⟨text, [], (List.append_nil _).symm, h, .empty⟩
    · rintro ⟨first, rest, rfl, hfirst, hrest⟩
      obtain rfl := reads_empty_iff.mp hrest
      rw [List.append_nil]
      exact hfirst
  | cons q qs =>
    constructor
    · intro h
      cases h with
      | seq hfirst hrest => exact ⟨_, _, rfl, hfirst, hrest⟩
    · rintro ⟨first, rest, rfl, hfirst, hrest⟩
      exact .seq hfirst hrest

/-- Patterns in a row read a text that splits between them. -/
theorem reads_sequence_append {ps qs : List Pattern} {pre text post : List Char} :
    Reads (sequence (ps ++ qs)) pre text post ↔ ∃ first rest, text = first ++ rest ∧
      Reads (sequence ps) pre first (rest ++ post) ∧
        Reads (sequence qs) (pre ++ first) rest post := by
  induction ps generalizing pre text with
  | nil =>
    constructor
    · intro h
      exact ⟨[], text, rfl, .empty, by rwa [List.append_nil]⟩
    · rintro ⟨first, rest, rfl, hfirst, hrest⟩
      obtain rfl := reads_empty_iff.mp hfirst
      rwa [List.append_nil] at hrest
  | cons p ps ih =>
    rw [List.cons_append, reads_sequence_cons]
    constructor
    · rintro ⟨first, rest, rfl, hfirst, hrest⟩
      obtain ⟨mid, last, rfl, hmid, hlast⟩ := ih.mp hrest
      refine ⟨first ++ mid, last, by rw [List.append_assoc], ?_, by rwa [← List.append_assoc]⟩
      exact reads_sequence_cons.mpr ⟨first, mid, rfl, by rwa [← List.append_assoc], hmid⟩
    · rintro ⟨first, rest, rfl, hfirst, hrest⟩
      obtain ⟨head, mid, rfl, hhead, hmid⟩ := reads_sequence_cons.mp hfirst
      refine ⟨head, mid ++ rest, by rw [List.append_assoc], by rwa [List.append_assoc], ?_⟩
      exact ih.mpr ⟨mid, rest, rfl, hmid, by rwa [List.append_assoc]⟩

/-! ## Literals and runs of a class -/

/-- A character that stands for itself, up to case. -/
def literal (c : Char) : Pattern := .set (.one c)

theorem reads_set_iff {cls : Class} {pre text post : List Char} :
    Reads (.set cls) pre text post ↔ ∃ c, text = [c] ∧ cls.contains c = true := by
  constructor
  · intro h
    cases h with
    | set hc => exact ⟨_, rfl, hc⟩
  · rintro ⟨c, rfl, hc⟩
    exact .set hc

theorem contains_one {c d : Char} :
    (Class.one c).contains d = true ↔ Text.fold d = Text.fold c := by
  simp [Class.contains, Class.one, Part.contains]

/-- Literals read their own text up to case. -/
theorem reads_literals_iff {cs pre text post : List Char} :
    Reads (sequence (cs.map literal)) pre text post ↔
      text.map Text.fold = cs.map Text.fold := by
  induction cs generalizing pre text with
  | nil =>
    rw [List.map_nil, List.map_nil, List.map_eq_nil_iff]
    exact reads_empty_iff
  | cons c cs ih =>
    rw [List.map_cons, reads_sequence_cons]
    constructor
    · rintro ⟨first, rest, rfl, hfirst, hrest⟩
      obtain ⟨d, rfl, hd⟩ := reads_set_iff.mp hfirst
      show Text.fold d :: rest.map Text.fold = Text.fold c :: cs.map Text.fold
      rw [contains_one.mp hd, ih.mp hrest]
    · intro h
      cases text with
      | nil => cases h
      | cons d text =>
        obtain ⟨hd, htext⟩ := List.cons.inj h
        exact ⟨[d], text, rfl, reads_set_iff.mpr ⟨d, rfl, contains_one.mpr hd⟩, ih.mpr htext⟩

/-- A class repeated reads any text of its characters. -/
theorem reads_star_set_iff {greedy : Bool} {cls : Class} {pre text post : List Char} :
    Reads (.star greedy (.set cls)) pre text post ↔ ∀ c ∈ text, cls.contains c = true := by
  constructor
  · intro h
    generalize hp : Pattern.star greedy (.set cls) = p at h
    induction h with
    | stop => exact nofun
    | more hbody _ _ ih =>
      cases hp
      obtain ⟨c, rfl, hc⟩ := reads_set_iff.mp hbody
      intro d hd
      rcases List.mem_cons.mp hd with rfl | hd
      · exact hc
      · exact ih rfl d hd
    | _ => cases hp
  · intro h
    induction text generalizing pre with
    | nil => exact .stop
    | cons c text ih =>
      have hfirst : Reads (.set cls) pre [c] (text ++ post) := .set (h c (List.mem_cons_self ..))
      have hrest := @ih (pre ++ [c]) fun d hd => h d (List.mem_cons_of_mem _ hd)
      exact .more hfirst hrest

/-! ## Reading what is put together -/

/-- The characters that have a meaning in patterns or may be given one. -/
def metaCharacters : List Char :=
  ['\\', '.', '+', '*', '?', '(', ')', '|', '[', ']', '\x7b', '\x7d', '^', '$', '#', '&', '-', '~']

/-- A character written so that it stands for itself. -/
def quoteChar (c : Char) : List Char :=
  if c ∈ metaCharacters then ['\\', c] else [c]

/-- Outside of groups, the reader has read these items, the last one first. -/
inductive Reader.Holds : List Pattern → Reader → Prop where
  | plain (items : List Pattern) : Holds items ⟨⟨[], items⟩, [], .plain, []⟩
  | starred (body : Pattern) (items : List Pattern) :
      Holds (.star true body :: items) ⟨⟨[], items⟩, [], .quantified body .star, []⟩

namespace Reader

variable {items : List Pattern} {r : Reader}

/-- Behind a repetition only a question mark is read otherwise. -/
theorem Holds.step (h : Holds items r) {c : Char} (hc : c ≠ '?') :
    r.step c = plainStep ⟨⟨[], items⟩, [], .plain, []⟩ c := by
  cases h with
  | plain => rfl
  | starred body items =>
    rw [Reader.step]
    dsimp only
    rw [if_neg hc]
    rfl

/-- What has been read is the sequence of the items. -/
theorem Holds.finish (h : Holds items r) : r.finish = some (sequence items.reverse) := by
  cases h with
  | plain => rfl
  | starred => rfl

theorem plainStep_of_not_meta {c : Char} (hc : c ∉ metaCharacters) (r : Reader) :
    r.plainStep c = some (r.push (literal c)) := by
  unfold plainStep
  split
  case h_13 => rfl
  -- in every other case the character is one of those with a meaning
  all_goals exact absurd (by decide) hc

theorem escapeItem?_of_meta {c : Char} (hc : c ∈ metaCharacters) :
    escapeItem? c = some (literal c) := by
  have hall : metaCharacters.map escapeItem? = metaCharacters.map fun c => some (literal c) := rfl
  exact List.map_inj_left.mp hall c hc

theorem ofLetter?_of_meta {c : Char} (hc : c ∈ metaCharacters) :
    CodePoint.ofLetter? c = none := by
  have hall : metaCharacters.map CodePoint.ofLetter? = metaCharacters.map fun _ => none := rfl
  exact List.map_inj_left.mp hall c hc

/-- Reading goes on from where one step leads. -/
theorem run_cons_of_step {c : Char} {next : Reader} (h : r.step c = some next) (cs : List Char) :
    run r (c :: cs) = run next cs := by
  rw [run, h]
  rfl

theorem Holds.run_quoteChar (h : Holds items r) (c : Char) (cs : List Char) :
    run r (quoteChar c ++ cs) = run ⟨⟨[], literal c :: items⟩, [], .plain, []⟩ cs := by
  unfold quoteChar
  split
  next hmeta =>
    have hescape : (⟨⟨[], items⟩, [], .escape, []⟩ : Reader).step c =
        some ⟨⟨[], literal c :: items⟩, [], .plain, []⟩ := by
      rw [Reader.step]
      dsimp only
      rw [ofLetter?_of_meta hmeta, escapeItem?_of_meta hmeta]
      rfl
    exact (run_cons_of_step (h.step (by decide)) (c :: cs)).trans (run_cons_of_step hescape cs)
  next hmeta =>
    refine run_cons_of_step ?_ cs
    have hc : c ≠ '?' := by
      rintro rfl
      exact hmeta (by decide)
    rw [h.step hc, plainStep_of_not_meta hmeta]
    rfl

/-- **What is quoted is read as literals.** -/
theorem Holds.run_quote (h : Holds items r) (piece cs : List Char) :
    ∃ r', Holds ((piece.map literal).reverse ++ items) r' ∧
      run r (piece.flatMap quoteChar ++ cs) = run r' cs := by
  induction piece generalizing items r with
  | nil => exact ⟨r, h, rfl⟩
  | cons c piece ih =>
    obtain ⟨r', hr', hrun⟩ := ih (.plain (literal c :: items))
    refine ⟨r', ?_, ?_⟩
    · rw [List.map_cons, List.reverse_cons, List.append_assoc]
      exact hr'
    · rw [List.flatMap_cons, List.append_assoc, h.run_quoteChar, hrun]

end Reader

end QueryScript.Pattern
