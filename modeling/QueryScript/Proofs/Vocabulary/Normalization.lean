import QueryScript.Proofs.Text.Cutting
import QueryScript.Proofs.Text.LetterCase
import QueryScript.Vocabulary.Action

/-!
# Names of actions taken apart

Taking a name apart first takes the combinator off its front.  What is left is the stem, and
the base and the negation are read off the stem alone (`normalize_congr`).  The forms of an action
with `and` and `or` in front all have the name of the action as their stem, and so has the action
itself, for a name that takes a combinator does not begin with one (`Combines.stem_eq`).

Nothing is lost on the way but the case of letters.  A name is its combinator and its stem
(`lower_eq_combinator_stem`), and the stem is the base with the `not` that was taken out of it put
back in.  It was taken out between two positions of the stem, for what stands before them is spelled
with ASCII letters (`stem_of_negated`).
-/

namespace QueryScript.Action

/-- The name without its combinator, with a small first letter. -/
def stem (name : String) : List Char :=
  Text.decapitalize (splitCombinator name.toList).2

/-- The name begins with an ASCII small letter. -/
def startsSmall (name : String) : Bool :=
  name.toList.head?.any Char.isLower

/-- The action is registered, and so are its forms with a combinator in front. -/
def Combines (name : String) : Prop :=
  isRegistered name = true ∧ ∀ form ∈ combinedForms name, isRegistered form = true

instance (name : String) : Decidable (Combines name) :=
  inferInstanceAs (Decidable (_ ∧ _))

variable {name name' form : String} {c : Char} {cs : List Char}

/-! ## Stems -/

/-- Names with the same stem have the same base, and are negated alike. -/
theorem normalize_congr (h : stem name = stem name') :
    (normalize name).base = (normalize name').base ∧
      (normalize name).negated = (normalize name').negated := by
  unfold stem at h
  unfold normalize
  dsimp only
  rw [h]
  split <;> exact ⟨rfl, rfl⟩

/-- The base of a name that is not negated is its stem. -/
theorem base_of_not_negated (h : (normalize name).negated = false) :
    (normalize name).base = String.ofList (stem name) := by
  unfold normalize at h ⊢
  dsimp only at h ⊢
  split at h
  next => cases h
  next hplain => rw [if_neg hplain, stem]

/-- A small letter is the one of its capital, which is a capital. -/
theorem toUpper_of_isLower (h : c.isLower = true) :
    c.toUpper.isUpper = true ∧ c.toUpper.toLower = c ∧ c.toLower = c := by
  have hascii : c.toNat < 128 := by
    have hle : c.toNat ≤ 122 := by
      have hlast : c.val ≤ 'z'.val := of_decide_eq_true (Bool.and_eq_true_iff.mp h).2
      exact UInt32.le_iff_toNat_le.mp hlast
    omega
  exact Text.forall_ascii (P := fun c => c.isLower = true →
    c.toUpper.isUpper = true ∧ c.toUpper.toLower = c ∧ c.toLower = c) (by decide) hascii h

theorem splitCombinator_and (h : c.isUpper = true) :
    splitCombinator ('a' :: 'n' :: 'd' :: c :: cs) = (.and, c :: cs) :=
  if_pos h

theorem splitCombinator_or (h : c.isUpper = true) :
    splitCombinator ('o' :: 'r' :: c :: cs) = (.or, c :: cs) :=
  if_pos h

/-- A name without a combinator is left whole. -/
theorem splitCombinator_of_plain (h : (splitCombinator cs).1 = .plain) :
    splitCombinator cs = (.plain, cs) := by
  revert h
  unfold splitCombinator
  split
  next =>
    split
    next => exact nofun
    next => exact fun _ => rfl
  next =>
    split
    next => exact nofun
    next => exact fun _ => rfl
  next => exact fun _ => rfl

/-- A small first letter stays as it is. -/
theorem decapitalize_toList (h : startsSmall name = true) :
    Text.decapitalize name.toList = name.toList := by
  unfold startsSmall at h
  cases hname : name.toList with
  | nil => rfl
  | cons c cs =>
    rw [hname] at h
    rw [Text.decapitalize, (toUpper_of_isLower h).2.2]

/-- A form of an action has the combinator in front that it is made with, and the name of the
action as its stem. -/
theorem splitCombinator_of_mem_combinedForms (hsmall : startsSmall name = true)
    (hform : form ∈ combinedForms name) :
    (splitCombinator form.toList).1 ≠ .plain ∧ stem form = name.toList := by
  unfold startsSmall at hsmall
  cases hname : name.toList with
  | nil =>
    rw [hname] at hsmall
    cases hsmall
  | cons c cs =>
    rw [hname] at hsmall
    obtain ⟨hupper, hlower, -⟩ := toUpper_of_isLower hsmall
    have hcapital : (Text.capitalize name).toList = c.toUpper :: cs := by
      rw [Text.capitalize, hname]
      exact String.toList_ofList
    have hand : ("and" ++ Text.capitalize name).toList = 'a' :: 'n' :: 'd' :: c.toUpper :: cs := by
      rw [String.toList_append, hcapital]
      rfl
    have hor : ("or" ++ Text.capitalize name).toList = 'o' :: 'r' :: c.toUpper :: cs := by
      rw [String.toList_append, hcapital]
      rfl
    rcases List.mem_cons.mp hform with rfl | hform
    · rw [stem, hand, splitCombinator_and hupper, Text.decapitalize, hlower]
      exact ⟨nofun, rfl⟩
    · rw [List.mem_singleton.mp hform, stem, hor, splitCombinator_or hupper, Text.decapitalize,
        hlower]
      exact ⟨nofun, rfl⟩

/-! ## Actions that take a combinator -/

/-- Registered names begin with a small letter, and behind a combinator stands a stem without
one. -/
theorem spec_of_isRegistered (h : isRegistered name = true) :
    startsSmall name = true ∧ ((splitCombinator name.toList).1 ≠ .plain →
      (splitCombinator (stem name)).1 = .plain) := by
  have hall : ∀ name ∈ names, startsSmall name = true ∧
      ((splitCombinator name.toList).1 ≠ .plain → (splitCombinator (stem name)).1 = .plain) := by
    decide +kernel
  exact hall name (List.contains_iff_mem.mp h)

namespace Combines

theorem stem_form (h : Combines name) (hform : form ∈ combinedForms name) :
    stem form = name.toList :=
  (splitCombinator_of_mem_combinedForms (spec_of_isRegistered h.1).1 hform).2

/-- A name that takes a combinator is its own stem: it does not begin with one. -/
theorem stem_eq (h : Combines name) : stem name = name.toList := by
  have hsmall := (spec_of_isRegistered h.1).1
  have hform : "and" ++ Text.capitalize name ∈ combinedForms name := List.mem_cons_self ..
  obtain ⟨hcombined, hstem⟩ := splitCombinator_of_mem_combinedForms hsmall hform
  have hplain := (spec_of_isRegistered (h.2 _ hform)).2 hcombined
  rw [hstem] at hplain
  rw [stem, splitCombinator_of_plain hplain]
  exact decapitalize_toList hsmall

/-- A combinator in front of an action changes nothing about its base. -/
theorem base_form (h : Combines name) (hform : form ∈ combinedForms name) :
    (normalize form).base = (normalize name).base :=
  (normalize_congr ((h.stem_form hform).trans h.stem_eq.symm)).1

/-- An action that takes a combinator and is not negated is its own base. -/
theorem base_eq (h : Combines name) (hplain : (normalize name).negated = false) :
    (normalize name).base = name := by
  rw [base_of_not_negated hplain, h.stem_eq, String.ofList_toList]

end Combines

/-! ## Names put together again -/

/-- The text with `not` put in behind its first five characters. -/
def insertNot (s : String) : String :=
  String.ofList (s.toList.take 5 ++ "not".toList ++ s.toList.drop 5)

/-- The name that was taken apart, in small letters. -/
def NormalForm.lowerName (form : NormalForm) : String :=
  form.combinator.text ++
    if form.negated then insertNot (Text.lower form.base) else Text.lower form.base

/-- A name is the combinator in front of it and the rest. -/
theorem splitCombinator_append (cs : List Char) :
    (splitCombinator cs).1.text.toList ++ (splitCombinator cs).2 = cs := by
  unfold splitCombinator
  split
  next c rest =>
    split
    next =>
      show "and".toList ++ c :: rest = _
      rfl
    next => rfl
  next c rest =>
    split
    next =>
      show "or".toList ++ c :: rest = _
      rfl
    next => rfl
  next => rfl

theorem combinator_normalize (name : String) :
    (normalize name).combinator = (splitCombinator name.toList).1 := by
  unfold normalize
  dsimp only
  split <;> rfl

theorem negated_normalize (name : String) :
    (normalize name).negated = isNegated (stem name) := by
  unfold normalize stem
  dsimp only
  split
  next h => exact h.symm
  next h => exact (Bool.eq_false_iff.mpr h).symm

theorem base_of_negated (h : (normalize name).negated = true) :
    (normalize name).base = String.ofList ((stem name).take 5 ++ (stem name).drop 8) := by
  unfold normalize at h ⊢
  dsimp only at h ⊢
  split at h
  next hnegated => rw [if_pos hnegated, stem]
  next => cases h

theorem map_toLower_decapitalize (cs : List Char) :
    (Text.decapitalize cs).map Char.toLower = cs.map Char.toLower := by
  cases cs with
  | nil => rfl
  | cons c cs => rw [Text.decapitalize, List.map_cons, List.map_cons, Text.ignoresCase_toLower c]

/-- A name is its combinator and its stem. -/
theorem lower_eq_combinator_stem (name : String) :
    Text.lower name =
      (normalize name).combinator.text ++ Text.lower (String.ofList (stem name)) := by
  have hsmall : ∀ c : Combinator, c.text.toList.map Char.toLower = c.text.toList := by
    intro c
    cases c <;> rfl
  have hwhole : name.toList.map Char.toLower = (splitCombinator name.toList).1.text.toList ++
      (splitCombinator name.toList).2.map Char.toLower := by
    conv => lhs; rw [← splitCombinator_append name.toList]
    rw [List.map_append, hsmall]
  rw [Text.lower_ofList, stem, map_toLower_decapitalize, combinator_normalize, Text.lower, hwhole,
    String.ofList_append, String.ofList_toList]

/-- A negated stem begins with the ASCII letters of `where` and `not`, in some case. -/
theorem exists_of_isNegated {cs : List Char} (h : isNegated cs = true) :
    ∃ front gap back, cs = front ++ gap ++ back ∧
      front.map Char.toLower = "where".toList ∧ gap.map Char.toLower = "not".toList := by
  obtain ⟨rest, hrest⟩ := List.isPrefixOf_iff_prefix.mp h
  have hparts : "wherenot".toList = "where".toList ++ "not".toList := rfl
  rw [hparts] at hrest
  obtain ⟨both, back, rfl, hboth, -⟩ := List.map_eq_append_iff.mp hrest.symm
  obtain ⟨front, gap, rfl, hfront, hgap⟩ := List.map_eq_append_iff.mp hboth
  exact ⟨front, gap, back, rfl, hfront, hgap⟩

/-- Characters that are ASCII characters in small letters are ASCII characters. -/
theorem ascii_of_map_toLower {cs ds : List Char} (h : cs.map Char.toLower = ds)
    (hds : ds.all (·.toNat < 128) = true) : ∀ c ∈ cs, c.toNat < 128 := by
  intro c hc
  by_cases hascii : c.toNat < 128
  · exact hascii
  · have hmem : c.toLower ∈ ds := h ▸ List.mem_map_of_mem hc
    rw [Text.toLower_of_not_ascii (by omega)] at hmem
    exact of_decide_eq_true (List.all_eq_true.mp hds c hmem)

/-- The base of a negated name is its stem without `not`, taken out between two positions, and
with `not` it is the stem again. -/
theorem stem_of_negated {name : String} (h : (normalize name).negated = true) :
    insertNot (Text.lower (normalize name).base) = Text.lower (String.ofList (stem name)) ∧
      "where".toList <+: (Text.lower (normalize name).base).toList ∧
      Text.LeavesOut (String.ofList (stem name)) 5 8 (normalize name).base := by
  obtain ⟨front, gap, back, hstem, hfront, hgap⟩ :=
    exists_of_isNegated (negated_normalize name ▸ h)
  have hfive : front.length = 5 := by
    rw [← List.length_map Char.toLower, hfront]
    rfl
  have hthree : gap.length = 3 := by
    rw [← List.length_map Char.toLower, hgap]
    rfl
  have hbase : (normalize name).base = String.ofList (front ++ back) := by
    have htake : (front ++ gap ++ back).take 5 = front := by
      rw [List.append_assoc, List.take_left' hfive]
    have hdrop : (front ++ gap ++ back).drop 8 = back :=
      List.drop_left' (by rw [List.length_append, hfive, hthree])
    rw [base_of_negated h, hstem, htake, hdrop]
  refine ⟨?_, ?_, ?_⟩
  · rw [hbase, hstem, Text.lower_ofList, Text.lower_ofList, insertNot, String.toList_ofList,
      List.map_append, List.map_append, List.map_append, hfront, hgap]
    rfl
  · have hlower : (Text.lower (normalize name).base).toList =
        front.map Char.toLower ++ back.map Char.toLower := by
      rw [hbase, Text.toList_lower, String.toList_ofList, List.map_append]
    rw [hlower, hfront]
    exact List.prefix_append _ _
  · have hcut := Text.leavesOut_of_ascii back
      (ascii_of_map_toLower hfront (by decide)) (ascii_of_map_toLower hgap (by decide))
    rw [hbase, hstem]
    rwa [hfive, hthree] at hcut

/-- **Nothing is lost but the case of letters.**  In small letters, a name is its combinator and its
base, with `not` behind the first five letters of the base, which are those of `where`, if it is
negated.  The base is the stem then without the bytes from 5 up to 8, no character being cut, and
else the whole stem.  So names that are taken apart alike are equal up to the case of letters. -/
theorem normalize_recovers (name : String) :
    Text.lower name = (normalize name).lowerName ∧
      ((normalize name).negated = true →
        "where".toList <+: (Text.lower (normalize name).base).toList ∧
          Text.LeavesOut (String.ofList (stem name)) 5 8 (normalize name).base) ∧
      ((normalize name).negated = false → (normalize name).base = String.ofList (stem name)) ∧
      ∀ other, normalize other = normalize name → Text.eqIgnoreCase other name = true := by
  have hrecovers : ∀ name, Text.lower name = (normalize name).lowerName := by
    intro name
    rw [NormalForm.lowerName, lower_eq_combinator_stem]
    split
    next h => rw [(stem_of_negated h).1]
    next h => rw [base_of_not_negated (Bool.eq_false_iff.mpr h)]
  refine ⟨hrecovers name, fun h => (stem_of_negated h).2, base_of_not_negated, fun other h => ?_⟩
  rw [Text.eqIgnoreCase_iff, hrecovers other, hrecovers name, h]

end QueryScript.Action
