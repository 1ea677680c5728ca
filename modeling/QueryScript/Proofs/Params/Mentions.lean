import QueryScript.Condition.Basic
import QueryScript.Proofs.Json.Literal

/-!
# The parameters that a value mentions

A parameter is mentioned by name in three ways: by a marker object, by a `$name$` in a text,
and by a condition.  Here each of them is said without reference to what parameters are put
in: `Template.Finds` scans a text from left to right for names, `Json.Refers` looks for
markers and templates in all parts of a value, and `Condition.Asks` goes through a condition.

Nothing else of the parameters matters.  Two maps that agree on the names in a text fill it
in the same way (`Template.fill_congr`), and likewise for a value (`Json.resolve_congr`) and
for a condition (`Condition.holds_congr`).  So what is put in is not read again: its own
names are not among those that the maps have to agree on.
-/

namespace QueryScript

namespace Template

/-! ## Names in a text -/

/-- The name at the front of a text, and what follows it: a dollar sign, a name, and a dollar
sign. -/
def nameAt? : List Char → Option (String × List Char)
  | '$' :: c :: cs =>
    if startsName c then
      match cs.dropWhile Text.isWord with
      | '$' :: rest => some (String.ofList (c :: cs.takeWhile Text.isWord), rest)
      | _ => none
    else none
  | _ => none

/-- A name is found in a text that is read from left to right: where a name stands, reading
goes on behind it, and elsewhere at the next character. -/
inductive Finds (name : String) : List Char → Prop where
  | here {cs rest : List Char} (h : nameAt? cs = some (name, rest)) : Finds name cs
  | behind {other : String} {cs rest : List Char} (h : nameAt? cs = some (other, rest))
      (hrest : Finds name rest) : Finds name cs
  | next {c : Char} {cs : List Char} (h : nameAt? (c :: cs) = none) (hcs : Finds name cs) :
      Finds name (c :: cs)

/-- A name: a letter or an underscore, and then characters of words. -/
def IsName : List Char → Prop
  | [] => False
  | c :: cs => startsName c = true ∧ cs.all Text.isWord = true

/-- What has been read of a name so far could begin one. -/
def Pending.Begins : Pending → Prop
  | none => True
  | some taken => taken = [] ∨ IsName taken.reverse

/-- What has been read behind a dollar sign is a name, once anything has. -/
theorem Pending.Begins.isName {c : Char} {cs : List Char}
    (h : Pending.Begins (some (c :: cs))) : IsName (c :: cs).reverse :=
  h.resolve_left (List.cons_ne_nil c cs)

variable {name : String} {c : Char} {cs rest taken : List Char}

theorem isWord_dollar : Text.isWord '$' = false := by decide

theorem startsName_dollar : startsName '$' = false := by decide

theorem nameAt?_of_ne (h : c ≠ '$') : nameAt? (c :: cs) = none := by
  unfold nameAt?
  split
  next heq => exact absurd (List.cons.inj heq).1 h
  next => rfl

@[simp] theorem not_finds_nil : ¬ Finds name [] := by
  intro h
  cases h with
  | here h => cases h
  | behind h _ => cases h

/-- What is found in a text is at its front, or found behind what is there. -/
theorem finds_cons :
    Finds name (c :: cs) ↔
      match nameAt? (c :: cs) with
      | some (other, rest) => other = name ∨ Finds name rest
      | none => Finds name cs := by
  constructor
  · intro h
    cases h with
    | here h =>
      rw [h]
      exact .inl rfl
    | behind h hrest =>
      rw [h]
      exact .inr hrest
    | next h hcs =>
      rw [h]
      exact hcs
  · intro h
    split at h
    next hat =>
      rcases h with rfl | h
      · exact .here hat
      · exact .behind hat h
    next hat => exact .next hat h

/-- A character other than the dollar sign is passed over. -/
theorem Finds.pass (hc : c ≠ '$') (h : Finds name cs) : Finds name (c :: cs) :=
  .next (nameAt?_of_ne hc) h

/-- A piece of a text without dollar signs is passed over. -/
theorem Finds.append {before : List Char} (hbefore : '$' ∉ before) (h : Finds name rest) :
    Finds name (before ++ rest) := by
  induction before with
  | nil => exact h
  | cons c before ih =>
    obtain ⟨hc, hrest⟩ := not_or.mp fun hmem => hbefore (List.mem_cons.mpr hmem)
    exact (ih hrest).pass fun heq => hc heq.symm

/-- A dollar sign is passed over if no name starts behind it. -/
theorem Finds.unopened (hc : startsName c = false) (h : Finds name (c :: cs)) :
    Finds name ('$' :: c :: cs) := by
  refine .next ?_ h
  rw [nameAt?, hc]
  rfl

/-! ## Names that have been begun -/

namespace IsName

/-- A name goes on with a character of words. -/
theorem snoc (h : IsName taken) (hc : Text.isWord c = true) : IsName (taken ++ [c]) := by
  cases taken with
  | nil => exact h.elim
  | cons first more =>
    obtain ⟨hfirst, hmore⟩ := h
    refine ⟨hfirst, ?_⟩
    show (more ++ [c]).all Text.isWord = true
    rw [List.all_append, hmore, List.all_cons, hc]
    rfl

/-- No dollar sign stands in a name. -/
theorem dollar_notMem (h : IsName taken) : '$' ∉ taken := by
  cases taken with
  | nil => exact h.elim
  | cons first more =>
    obtain ⟨hfirst, hmore⟩ := h
    intro hmem
    rcases List.mem_cons.mp hmem with heq | hmem
    · rw [← heq, startsName_dollar] at hfirst
      cases hfirst
    · have hdollar := List.all_eq_true.mp hmore _ hmem
      rw [isWord_dollar] at hdollar
      cases hdollar

/-- A dollar sign, the beginning of a name and a character that ends it: a name stands here
exactly if that character is a dollar sign. -/
theorem nameAt?_ended (h : IsName taken) (hc : Text.isWord c = false) :
    nameAt? ('$' :: (taken ++ c :: cs)) =
      if c = '$' then some (String.ofList taken, cs) else none := by
  cases taken with
  | nil => exact h.elim
  | cons first more =>
    obtain ⟨hfirst, hmore⟩ := h
    have htake : (more ++ c :: cs).takeWhile Text.isWord = more := by
      rw [List.takeWhile_append_of_pos (List.all_eq_true.mp hmore), List.takeWhile_cons_of_neg]
      · rw [List.append_nil]
      · rw [hc]
        exact Bool.false_ne_true
    have hdrop : (more ++ c :: cs).dropWhile Text.isWord = c :: cs := by
      rw [List.dropWhile_append_of_pos (List.all_eq_true.mp hmore), List.dropWhile_cons_of_neg]
      rw [hc]
      exact Bool.false_ne_true
    rw [List.cons_append, nameAt?, if_pos hfirst, hdrop, htake]
    by_cases hdollar : c = '$'
    · subst hdollar
      rfl
    · rw [if_neg hdollar]
      split
      next heq => exact absurd (List.cons.inj heq).1 hdollar
      next => rfl

/-- A name between dollar signs stands at the first of them. -/
theorem nameAt?_closed (h : IsName taken) :
    nameAt? ('$' :: (taken ++ '$' :: cs)) = some (String.ofList taken, cs) := by
  rw [h.nameAt?_ended isWord_dollar, if_pos rfl]

/-- A name that its closing dollar sign is missing from is passed over, and no other begins in
it. -/
theorem finds_broken (h : IsName taken) (hword : Text.isWord c = false) (hc : c ≠ '$')
    (hfinds : Finds name cs) : Finds name ('$' :: (taken ++ c :: cs)) := by
  refine .next ?_ ((hfinds.pass hc).append h.dollar_notMem)
  rw [h.nameAt?_ended hword, if_neg hc]

end IsName

/-- **A text is filled in by the names that stand in it.**  The induction is on what is left to
be read; before it stands the part of a name that has been read already. -/
theorem fill_congr {lookup lookup' : String → Option String} (pending : Pending) (cs : List Char)
    (hbegins : pending.Begins)
    (h : ∀ name, Finds name (pending.written ++ cs) → lookup name = lookup' name) :
    fill lookup pending cs = fill lookup' pending cs := by
  induction pending, cs using fill.induct lookup with
  | case1 pending => rw [fill, fill]
  | case2 cs ih =>
    -- outside of a name
    rw [fill, fill, if_pos rfl, if_pos rfl]
    exact ih (.inl rfl) h
  | case3 c cs hc ih =>
    rw [fill, fill, if_neg hc, if_neg hc, ih trivial fun name hfinds => h name (hfinds.pass hc)]
  | case4 cs ih =>
    -- behind a dollar sign
    rw [fill, fill, if_pos rfl, if_pos rfl,
      ih (.inl rfl) fun name hfinds => h name (.unopened startsName_dollar hfinds)]
  | case5 c cs hc hstarts ih =>
    rw [fill, fill, if_neg hc, if_neg hc, if_pos hstarts, if_pos hstarts]
    exact ih (.inr ⟨hstarts, rfl⟩) h
  | case6 c cs hc hstarts ih =>
    rw [fill, fill, if_neg hc, if_neg hc, if_neg hstarts, if_neg hstarts]
    rw [ih trivial fun name hfinds =>
      h name (.unopened (Bool.not_eq_true _ ▸ hstarts) (hfinds.pass hc))]
  | case7 t ts cs ih =>
    -- in a name
    have hname : IsName (t :: ts).reverse := hbegins.isName
    rw [fill, fill, if_pos rfl, if_pos rfl]
    dsimp only
    rw [h _ (.here hname.nameAt?_closed),
      ih trivial fun name hfinds => h name (.behind hname.nameAt?_closed hfinds)]
  | case8 t ts c cs hc hword ih =>
    have hname : IsName (t :: ts).reverse := hbegins.isName
    rw [fill, fill, if_neg hc, if_neg hc, if_pos hword, if_pos hword]
    refine ih (.inr ?_) fun name hfinds => h name ?_
    · rw [List.reverse_cons]
      exact hname.snoc hword
    · rw [Pending.written, List.reverse_cons, List.cons_append, List.append_assoc] at hfinds
      exact hfinds
  | case9 t ts c cs hc hword ih =>
    have hname : IsName (t :: ts).reverse := hbegins.isName
    rw [fill, fill, if_neg hc, if_neg hc, if_neg hword, if_neg hword]
    rw [ih trivial fun name hfinds =>
      h name (hname.finds_broken (Bool.not_eq_true _ ▸ hword) hc hfinds)]

end Template

namespace Json

/-! ## Names in a value -/

/-- A value refers to a parameter: by a marker that occurs in it, or by a template in a text that
occurs in it. -/
inductive Refers (v : Json) (name : String) : Prop where
  | marker {es : Entries} (hpart : Part (.obj es) v) (h : paramName? (.obj es) = some name)
  | template {s : String} (hpart : Part (.str s) v) (h : Template.Finds name s.toList)

variable {v w : Json} {name : String} {params params' : Params}

/-- What a part refers to, the whole does. -/
theorem Refers.part (h : w.Refers name) (hpart : Part w v) : v.Refers name := by
  cases h with
  | marker hmarker h => exact .marker (hmarker.trans hpart) h
  | template htext h => exact .template (htext.trans hpart) h

@[simp] theorem refers_num (n : Number) : ¬ (Json.num n).Refers name := by
  intro h
  cases h with
  | marker hpart _ => cases hpart
  | template hpart _ => cases hpart

@[simp] theorem refers_str {s : String} :
    (Json.str s).Refers name ↔ Template.Finds name s.toList := by
  constructor
  · intro h
    cases h with
    | marker hpart _ => cases hpart
    | template hpart h =>
      cases hpart
      exact h
  · intro h
    exact .template .self h

/-- An array refers to what its items do. -/
@[simp] theorem refers_arr {xs : List Json} :
    (Json.arr xs).Refers name ↔ ∃ x ∈ xs, x.Refers name := by
  constructor
  · intro h
    cases h with
    | marker hpart h =>
      cases hpart with
      | item hx hpart => exact ⟨_, hx, .marker hpart h⟩
    | template hpart h =>
      cases hpart with
      | item hx hpart => exact ⟨_, hx, .template hpart h⟩
  · intro h
    obtain ⟨x, hx, h⟩ := h
    exact h.part (.item hx .self)

/-- An object refers to what its values do, and to what it marks itself. -/
@[simp] theorem refers_obj {es : Entries} :
    (Json.obj es).Refers name ↔
      paramName? (.obj es) = some name ∨ ∃ entry ∈ es, entry.2.Refers name := by
  constructor
  · intro h
    cases h with
    | marker hpart h =>
      cases hpart with
      | self => exact .inl h
      | entry hentry hpart => exact .inr ⟨_, hentry, .marker hpart h⟩
    | template hpart h =>
      cases hpart with
      | entry hentry hpart => exact .inr ⟨_, hentry, .template hpart h⟩
  · intro h
    rcases h with h | ⟨entry, hentry, h⟩
    · exact .marker .self h
    · exact h.part (.entry hentry .self)

/-- The same for a text and two maps of parameters. -/
theorem fillText_congr {s : String}
    (h : ∀ name, Template.Finds name s.toList → params.get? name = params'.get? name) :
    fillText params s = fillText params' s := by
  rw [fillText, fillText, Template.fill_congr none s.toList trivial]
  intro name hfinds
  rw [Params.text?, Params.text?, h name hfinds]

/-- **A value is filled in by the parameters that it refers to.** -/
theorem resolve_congr : ∀ v : Json,
    (∀ name, v.Refers name → params.get? name = params'.get? name) →
      v.resolve params = v.resolve params'
  | .null, _ => rfl
  | .bool _, _ => rfl
  | .num _, _ => rfl
  | .str s, h => by
    rw [resolve, resolve, fillText_congr fun name hfinds => h name (.template .self hfinds)]
  | .arr xs, h => by
    have hitems : ∀ x ∈ xs, x.resolve params = x.resolve params' := by
      intro x hx
      have hsize := List.sizeOf_lt_of_mem hx
      exact resolve_congr x fun name hname => h name (hname.part (.item hx .self))
    rw [resolve, resolve, resolveItems_eq_map, resolveItems_eq_map, List.map_congr_left hitems]
  | .obj es, h => by
    have hentries : ∀ entry ∈ es,
        (entry.1, entry.2.resolve params) = (entry.1, entry.2.resolve params') := by
      intro entry hentry
      obtain ⟨key, w⟩ := entry
      have hsize := sizeOf_lt_of_mem_entries hentry
      rw [resolve_congr w fun name hname => h name (hname.part (.entry hentry .self))]
    rw [resolve, resolve]
    cases hname : paramName? (.obj es) with
    | some name =>
      dsimp only
      rw [h name (.marker .self hname)]
    | none =>
      dsimp only
      rw [resolveEntries_eq_map, resolveEntries_eq_map, List.map_congr_left hentries]
termination_by v => sizeOf v

end Json

namespace Condition

/-! ## Names in a condition -/

/-- A condition asks for a parameter. -/
inductive Asks (name : String) : Condition → Prop where
  | param (test : ParamTest) : Asks name (.param name test)
  | all {c : Condition} {operands : List Condition} (hc : c ∈ operands) (h : Asks name c) :
      Asks name (.all operands)
  | any {c : Condition} {operands : List Condition} (hc : c ∈ operands) (h : Asks name c) :
      Asks name (.any operands)
  | not {operand : Condition} (h : Asks name operand) : Asks name (.not operand)

variable {args : List Json} {params params' : Params}

/-- All operands hold if each does, one by one. -/
theorem holdsAll_eq (operands : List Condition) :
    holdsAll args params operands = (operands.map (holds args params)).all id := by
  induction operands with
  | nil => rfl
  | cons c operands ih => rw [holdsAll, ih, List.map_cons, List.all_cons, id]

/-- Some operand holds if one does, one by one. -/
theorem holdsAny_eq (operands : List Condition) :
    holdsAny args params operands = (operands.map (holds args params)).any id := by
  induction operands with
  | nil => rfl
  | cons c operands ih => rw [holdsAny, ih, List.map_cons, List.any_cons, id]

/-- **A condition is decided by the parameters that it asks for.** -/
theorem holds_congr : ∀ c : Condition,
    (∀ name, c.Asks name → params.get? name = params'.get? name) →
      c.holds args params = c.holds args params'
  | .literal _, _ => rfl
  | .hasValues, _ => rfl
  | .isEmpty, _ => rfl
  | .argEmptiness _ _, _ => rfl
  | .argCompare _ _, _ => rfl
  | .unreadable, _ => rfl
  | .param name test, h => by rw [holds, holds, h name (.param test)]
  | .all operands, h => by
    have hall : ∀ c ∈ operands, c.holds args params = c.holds args params' := by
      intro c hc
      have hsize := List.sizeOf_lt_of_mem hc
      exact holds_congr c fun name hname => h name (.all hc hname)
    rw [holds, holds, holdsAll_eq, holdsAll_eq, List.map_congr_left hall]
  | .any operands, h => by
    have hall : ∀ c ∈ operands, c.holds args params = c.holds args params' := by
      intro c hc
      have hsize := List.sizeOf_lt_of_mem hc
      exact holds_congr c fun name hname => h name (.any hc hname)
    rw [holds, holds, holdsAny_eq, holdsAny_eq, List.map_congr_left hall]
  | .not operand, h => by
    rw [holds, holds, holds_congr operand fun name hname => h name (.not hname)]
termination_by c => sizeOf c

end Condition

end QueryScript
