import QueryScript.Proofs.TableReference.Characters

/-!
# The grammar of references

A text without the white space around it is a reference exactly when it is a name, and
then possibly an alias, as `IsName` and `WritesAlias` describe them
(`parse_eq_ok_iff_writes`).  Nothing is backtracked by the reader, and nothing needs to be: a name
ends before the first separator, and a word after the name is `as` only if separators and
an identifier follow it, so that each text is put together in one way at most.

The separators are four characters and white space is many more.  Trimming goes by white
space, so what is left of a text ends with no separator, and whatever the reader has not
taken is more than a gap.
-/

namespace QueryScript

namespace Text

/-- Trimming leaves no white space at the end. -/
theorem isBlank_of_mem_getLast?_trimChars {cs : List Char} {c : Char}
    (hc : c ∈ (trimChars cs).getLast?) : isBlank c = false := by
  rw [trimChars, List.getLast?_reverse] at hc
  have hhead := List.head?_dropWhile_not isBlank (cs.dropWhile isBlank).reverse
  rw [hc] at hhead
  exact hhead

end Text

namespace TableReference

theorem isBlank_of_isSeparator {c : Char} (h : isSeparator c = true) : Text.isBlank c = true := by
  simp only [isSeparator, Bool.or_eq_true, beq_iff_eq] at h
  rcases h with ((rfl | rfl) | rfl) | rfl <;> decide

/-- What is left of a trimmed text is nothing, if it is separators only. -/
theorem eq_nil_of_trimmed {cs front rest : List Char} (hcs : Text.trimChars cs = front ++ rest)
    (hrest : rest.dropWhile isSeparator = []) : rest = [] := by
  refine Classical.byContradiction fun hne => ?_
  have hlast : rest.getLast hne ∈ (Text.trimChars cs).getLast? := by
    rw [hcs, List.getLast?_append, List.getLast?_eq_some_getLast hne]
    rfl
  have hseparator := List.dropWhile_eq_nil_iff.mp hrest _ (List.getLast_mem hne)
  have hblank := isBlank_of_isSeparator hseparator
  rw [Text.isBlank_of_mem_getLast?_trimChars hlast] at hblank
  cases hblank

/-- What is read as a reference is a name with an alias after it. -/
theorem exists_writes_of_parse {s : String} {t : TableReference} (h : parse s = .ok t) :
    ∃ name tail, Text.trimChars s.toList = name ++ tail ∧ IsName name ∧
      WritesAlias tail t.tableAlias ∧ t.name = String.ofList name := by
  generalize hcs : Text.trimChars s.toList = cs
  generalize hdotted : dottedName cs = name
  obtain ⟨hne, hname, h⟩ := (parse_eq_ok_iff hcs.symm hdotted.symm).mp h
  have hstart := dottedName_prefix cs
  rw [hdotted] at hstart
  obtain ⟨tail, rfl⟩ := hstart.trans (List.takeWhile_prefix _)
  rw [List.drop_left] at h
  refine ⟨name, tail, rfl, hdotted ▸ isName_dottedName (hdotted.symm ▸ hne), ?_, hname⟩
  split at h
  next a rest halias =>
    obtain ⟨written, rfl, hwritten⟩ := exists_writes_of_alias? halias
    obtain rfl := eq_nil_of_trimmed (hcs.trans (List.append_assoc ..).symm) h.2
    rw [h.1, List.append_nil]
    exact hwritten
  next =>
    obtain rfl := eq_nil_of_trimmed hcs h.2
    rw [h.1]
    exact .absent

/-! ## The alias as text -/

/-- The words of a text with one blank between them; no text if there are none. -/
def collapsed? (cs : List Char) : Option String :=
  if cs = [] then none
  else some (Text.joinWith " " ((Text.tokens isSeparator cs).map String.ofList))

/-- A gap and the word after it are one token. -/
theorem tokens_gap {gap word : List Char} (hgap : IsGap gap) (hword : IsIdentifier word)
    (rest : List Char) (hrest : ∀ c ∈ rest.head?, isSeparator c = true) :
    Text.tokens isSeparator (gap ++ (word ++ rest)) = word :: Text.tokens isSeparator rest := by
  have hword' : Text.tokens isSeparator word = [word] :=
    Text.tokens_of_no_separator (fun c hc => isSeparator_of_isIdent (hword.2 c hc)) hword.1
  have hskip : ∀ gap : List Char, (∀ c ∈ gap, isSeparator c = true) → ∀ cs,
      Text.tokens isSeparator (gap ++ cs) = Text.tokens isSeparator cs := by
    intro gap
    induction gap with
    | nil => exact fun _ _ => rfl
    | cons c gap ih =>
      intro hgap cs
      exact (Text.tokens_append_separator (hgap c (List.mem_cons_self ..)) [] (gap ++ cs)).trans
        (ih (fun d hd => hgap d (List.mem_cons_of_mem _ hd)) cs)
  rw [hskip gap hgap.2]
  cases rest with
  | nil => rw [List.append_nil, hword']; rfl
  | cons c rest =>
    have hc := hrest c rfl
    rw [Text.tokens_append_separator hc, hword']
    exact congrArg (word :: ·) (Text.tokens_append_separator hc [] rest).symm

/-- The text of an alias is what is written, with one blank between its words. -/
theorem WritesAlias.text_eq {tail : List Char} {a : Option TableAlias}
    (h : WritesAlias tail a) : a.map TableAlias.text = collapsed? tail := by
  have hgaps : ∀ {gap cs : List Char}, IsGap gap → gap ++ cs ≠ [] := fun hgap =>
    List.append_ne_nil_of_left_ne_nil hgap.1 _
  cases h with
  | absent => rfl
  | @bare gap name hgap hname =>
    have htokens := tokens_gap hgap hname [] nofun
    rw [List.append_nil] at htokens
    rw [collapsed?, if_neg (hgaps hgap), htokens]
    rfl
  | @worded gap between name word hgap hword hbetween hname =>
    have htokens := tokens_gap hbetween hname [] nofun
    rw [List.append_nil] at htokens
    have hseparated : ∀ c ∈ (between ++ name).head?, isSeparator c = true :=
      (WritesAlias.bare hbetween hname).head
    rw [collapsed?, if_neg (hgaps hgap), tokens_gap hgap hword.isIdentifier _ hseparated, htokens]
    show some (word ++ " " ++ String.ofList name) =
      some (String.ofList word.toList ++ " " ++ String.ofList name)
    rw [String.ofList_toList]

/-- **The reader accepts exactly the grammar.**  A text is read as a reference exactly when, without
the white space around it, it is a name, which is identifiers with dots between them, and after
it possibly an alias.  The name is taken as it is written, and the alias, as text, is what is
written after the name with one blank for each gap in it.  A single word there is the alias
itself, even if it is the word `as` or begins like it. -/
theorem parse_eq_ok_iff_writes (s : String) (t : TableReference) :
    parse s = .ok t ↔ ∃ name tail, Text.trimChars s.toList = name ++ tail ∧ IsName name ∧
      WritesAlias tail t.tableAlias ∧ t.name = String.ofList name ∧
      t.tableAlias.map TableAlias.text = collapsed? tail := by
  constructor
  · intro h
    obtain ⟨name, tail, hcs, hname, htail, heq⟩ := exists_writes_of_parse h
    exact ⟨name, tail, hcs, hname, htail, heq, htail.text_eq⟩
  · intro h
    obtain ⟨name, tail, hcs, hname, htail, heq, -⟩ := h
    rw [parse_of_writes hcs hname htail, ← heq]

/-- A blank that is no separator is trimmed at the ends, and separates nothing. -/
example : (parse "\u3000sales.orders \t AS").toOption =
      some ⟨"sales.orders", some ⟨none, "AS"⟩⟩ ∧
    (parse "users as\nassets").toOption = some ⟨"users", some ⟨some "as", "assets"⟩⟩ ∧
    (parse "users\u3000u").toOption = none := by decide +kernel

end TableReference

end QueryScript
