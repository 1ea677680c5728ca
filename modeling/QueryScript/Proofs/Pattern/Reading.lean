import QueryScript.Pattern.Basic

/-!
# What a pattern reads

`Pattern.ends` lists the places where a match can stop, by running the pattern.
`Reads` says the same without running it: between a piece `pre` of a text and a
piece `post`, the pattern reads what stands there.  The two agree place by place
(`mem_ends_iff`), so that `Pattern.find?` answers exactly when the pattern reads
something somewhere in the text (`find?_isSome_iff`).

The only trouble is the repetition, which `ends` runs on a budget of steps that
move on.  A step that does not move leads back to the place where it began, so
it can be left out of a reading; every other step shortens what is left by at
least one character, and the budget is the number of characters that are left.
-/

namespace QueryScript.Pattern

/-- The place between two pieces of a text. -/
def Place.between (pre post : List Char) : Place := ⟨pre.getLast?, post⟩

/-- Between `pre` and `post` the pattern reads `text`. -/
inductive Reads : Pattern → (pre text post : List Char) → Prop where
  | empty {pre post : List Char} : Reads .empty pre [] post
  | set {cls : Class} {c : Char} {pre post : List Char} (h : cls.contains c = true) :
      Reads (.set cls) pre [c] post
  | anchor {a : Anchor} {pre post : List Char} (h : a.holds (.between pre post) = true) :
      Reads (.anchor a) pre [] post
  | seq {first second : Pattern} {pre text rest post : List Char}
      (h₁ : Reads first pre text (rest ++ post)) (h₂ : Reads second (pre ++ text) rest post) :
      Reads (.seq first second) pre (text ++ rest) post
  | preferred {p other : Pattern} {pre text post : List Char} (h : Reads p pre text post) :
      Reads (.alt p other) pre text post
  | other {p other : Pattern} {pre text post : List Char} (h : Reads other pre text post) :
      Reads (.alt p other) pre text post
  | stop {greedy : Bool} {body : Pattern} {pre post : List Char} :
      Reads (.star greedy body) pre [] post
  | more {greedy : Bool} {body : Pattern} {pre text rest post : List Char}
      (h₁ : Reads body pre text (rest ++ post))
      (h₂ : Reads (.star greedy body) (pre ++ text) rest post) :
      Reads (.star greedy body) pre (text ++ rest) post

/-- The pattern reads something somewhere in the text. -/
def Occurs (pattern : Pattern) (cs : List Char) : Prop :=
  ∃ pre text post, cs = pre ++ text ++ post ∧ Reads pattern pre text post

/-! ## A place that is listed is read up to -/

/-- What a step reads, its repetition reads any number of times. -/
theorem reads_of_mem_repeated {body : Pattern} {greedy : Bool} {step : Place → List Place}
    (hstep : ∀ pre after q, q ∈ step (.between pre after) →
      ∃ text post, after = text ++ post ∧ q = .between (pre ++ text) post ∧
        Reads body pre text post) :
    ∀ (fuel : Nat) (pre after : List Char) (q : Place),
      q ∈ repeated greedy step fuel (.between pre after) →
      ∃ text post, after = text ++ post ∧ q = .between (pre ++ text) post ∧
        Reads (.star greedy body) pre text post := by
  intro fuel
  induction fuel with
  | zero =>
    intro pre after q hq
    rw [repeated, List.mem_singleton] at hq
    exact ⟨[], after, rfl, by rw [List.append_nil]; exact hq, .stop⟩
  | succ fuel ih =>
    intro pre after q hq
    have hcases : q = .between pre after ∨
        q ∈ (step (.between pre after)).flatMap fun m =>
          if m.after.length < after.length then repeated greedy step fuel m else [m] := by
      rw [repeated] at hq
      cases greedy with
      | true =>
        rcases List.mem_append.mp hq with hq | hq
        · exact .inr hq
        · exact .inl (List.mem_singleton.mp hq)
      | false => exact List.mem_cons.mp hq
    rcases hcases with rfl | hmore
    · exact ⟨[], after, rfl, by rw [List.append_nil], .stop⟩
    · obtain ⟨m, hm, hq⟩ := List.mem_flatMap.mp hmore
      obtain ⟨text, rest, rfl, rfl, hbody⟩ := hstep pre after m hm
      -- a step that stays where it is ends the repetition, and is one reading of the body
      split at hq
      · obtain ⟨text', post, rfl, rfl, hstar⟩ := ih (pre ++ text) rest q hq
        exact ⟨text ++ text', post, by rw [List.append_assoc], by rw [List.append_assoc],
          .more hbody hstar⟩
      · rw [List.mem_singleton] at hq
        exact ⟨text ++ [], rest, by rw [List.append_nil], by rw [List.append_nil]; exact hq,
          .more hbody .stop⟩

/-- A place that `ends` lists is the end of a reading. -/
theorem reads_of_mem_ends (pattern : Pattern) :
    ∀ (pre after : List Char) (q : Place), q ∈ ends pattern (.between pre after) →
      ∃ text post, after = text ++ post ∧ q = .between (pre ++ text) post ∧
        Reads pattern pre text post := by
  induction pattern with
  | empty =>
    intro pre after q hq
    rw [ends, List.mem_singleton] at hq
    exact ⟨[], after, rfl, by rw [List.append_nil]; exact hq, .empty⟩
  | set cls =>
    intro pre after q hq
    cases after with
    | nil => simp [ends, Place.between] at hq
    | cons c cs =>
      simp only [ends, Place.between] at hq
      by_cases hc : cls.contains c = true
      · rw [if_pos hc, List.mem_singleton] at hq
        refine ⟨[c], cs, rfl, ?_, .set hc⟩
        rw [hq, Place.between, List.getLast?_append, List.getLast?_singleton]
        rfl
      · rw [if_neg hc] at hq
        cases hq
  | anchor a =>
    intro pre after q hq
    rw [ends] at hq
    by_cases ha : a.holds (.between pre after) = true
    · rw [if_pos ha, List.mem_singleton] at hq
      exact ⟨[], after, rfl, by rw [List.append_nil]; exact hq, .anchor ha⟩
    · rw [if_neg ha] at hq
      cases hq
  | seq first second ih₁ ih₂ =>
    intro pre after q hq
    rw [ends] at hq
    obtain ⟨m, hm, hq⟩ := List.mem_flatMap.mp hq
    obtain ⟨text, rest, rfl, rfl, h₁⟩ := ih₁ pre after m hm
    obtain ⟨text', post, rfl, rfl, h₂⟩ := ih₂ (pre ++ text) rest q hq
    exact ⟨text ++ text', post, by rw [List.append_assoc], by rw [List.append_assoc],
      .seq h₁ h₂⟩
  | alt p other ih₁ ih₂ =>
    intro pre after q hq
    rw [ends] at hq
    rcases List.mem_append.mp hq with hq | hq
    · obtain ⟨text, post, ht, hplace, h⟩ := ih₁ pre after q hq
      exact ⟨text, post, ht, hplace, .preferred h⟩
    · obtain ⟨text, post, ht, hplace, h⟩ := ih₂ pre after q hq
      exact ⟨text, post, ht, hplace, .other h⟩
  | star greedy body ih =>
    intro pre after q hq
    rw [ends] at hq
    exact reads_of_mem_repeated ih _ pre after q hq

/-! ## A place that is read up to is listed -/

/-- No repetition is one of the repetitions. -/
theorem self_mem_repeated (greedy : Bool) (step : Place → List Place) (fuel : Nat) (p : Place) :
    p ∈ repeated greedy step fuel p := by
  cases fuel with
  | zero => exact List.mem_singleton.mpr rfl
  | succ fuel =>
    rw [repeated]
    cases greedy with
    | true => exact List.mem_append_right _ (List.mem_singleton.mpr rfl)
    | false => exact List.mem_cons_self ..

/-- One step that moves on, and then what is reached from there. -/
theorem mem_repeated_succ {greedy : Bool} {step : Place → List Place} {fuel : Nat}
    {p m q : Place} (hm : m ∈ step p) (hlt : m.after.length < p.after.length)
    (hq : q ∈ repeated greedy step fuel m) : q ∈ repeated greedy step (fuel + 1) p := by
  have hmore : q ∈ (step p).flatMap fun m =>
      if m.after.length < p.after.length then repeated greedy step fuel m else [m] :=
    List.mem_flatMap.mpr ⟨m, hm, by rw [if_pos hlt]; exact hq⟩
  rw [repeated]
  cases greedy with
  | true => exact List.mem_append_left _ hmore
  | false => exact List.mem_cons_of_mem _ hmore

/-- A larger budget loses no place. -/
theorem repeated_succ_of_mem {greedy : Bool} {step : Place → List Place} :
    ∀ (fuel : Nat) {p q : Place}, q ∈ repeated greedy step fuel p →
      q ∈ repeated greedy step (fuel + 1) p := by
  intro fuel
  induction fuel with
  | zero =>
    intro p q hq
    rw [repeated, List.mem_singleton] at hq
    rw [hq]
    exact self_mem_repeated ..
  | succ fuel ih =>
    intro p q hq
    have hmono : ∀ m ∈ step p,
        q ∈ (if m.after.length < p.after.length then repeated greedy step fuel m else [m]) →
        q ∈ (if m.after.length < p.after.length then repeated greedy step (fuel + 1) m
          else [m]) := by
      intro m _ hmem
      split at hmem
      next hlt => rw [if_pos hlt]; exact ih hmem
      next hlt => rw [if_neg hlt]; exact hmem
    rw [repeated] at hq ⊢
    cases greedy with
    | true =>
      rcases List.mem_append.mp hq with hq | hq
      · obtain ⟨m, hm, hq⟩ := List.mem_flatMap.mp hq
        exact List.mem_append_left _ (List.mem_flatMap.mpr ⟨m, hm, hmono m hm hq⟩)
      · exact List.mem_append_right _ hq
    | false =>
      rcases List.mem_cons.mp hq with hq | hq
      · exact List.mem_cons.mpr (.inl hq)
      · obtain ⟨m, hm, hq⟩ := List.mem_flatMap.mp hq
        exact List.mem_cons_of_mem _ (List.mem_flatMap.mpr ⟨m, hm, hmono m hm hq⟩)

theorem repeated_mono {greedy : Bool} {step : Place → List Place} {p q : Place} {fuel : Nat}
    (extra : Nat) (hq : q ∈ repeated greedy step fuel p) :
    q ∈ repeated greedy step (fuel + extra) p := by
  induction extra with
  | zero => exact hq
  | succ extra ih => exact repeated_succ_of_mem _ ih

/-- The end of a reading is a place that `ends` lists. -/
theorem mem_ends_of_reads {pattern : Pattern} {pre text post : List Char}
    (h : Reads pattern pre text post) :
    .between (pre ++ text) post ∈ ends pattern (.between pre (text ++ post)) := by
  induction h with
  | empty => simp [ends, Place.between]
  | set h => simp [ends, Place.between, h]
  | @anchor a pre post h => simp [ends, h]
  | @seq first second pre text rest post _ _ ih₁ ih₂ =>
    rw [ends]
    refine List.mem_flatMap.mpr ⟨.between (pre ++ text) (rest ++ post), ?_, ?_⟩
    · rw [List.append_assoc]; exact ih₁
    · rw [← List.append_assoc pre text rest]; exact ih₂
  | preferred _ ih =>
    rw [ends]
    exact List.mem_append_left _ ih
  | other _ ih =>
    rw [ends]
    exact List.mem_append_right _ ih
  | stop =>
    rw [ends, List.append_nil]
    exact self_mem_repeated ..
  | @more greedy body pre text rest post _ _ ih₁ ih₂ =>
    rw [ends] at ih₂ ⊢
    rw [← List.append_assoc pre text rest, List.append_assoc text rest post]
    cases text with
    | nil =>
      -- the step did not move: it is left out
      rw [List.append_nil] at ih₂ ⊢
      exact ih₂
    | cons c cs =>
      have hbudget : (Place.between pre (c :: cs ++ (rest ++ post))).after.length
          = (rest ++ post).length + cs.length + 1 := by
        simp only [Place.between, List.cons_append, List.length_cons, List.length_append]
        omega
      rw [hbudget]
      refine mem_repeated_succ ih₁ ?_ (repeated_mono cs.length ih₂)
      rw [hbudget]
      show (rest ++ post).length < _
      omega

/-- The places that `ends` lists are the ends of the readings. -/
theorem mem_ends_iff {pattern : Pattern} {pre after : List Char} {q : Place} :
    q ∈ ends pattern (.between pre after) ↔
      ∃ text post, after = text ++ post ∧ q = .between (pre ++ text) post ∧
        Reads pattern pre text post := by
  constructor
  · exact reads_of_mem_ends pattern pre after q
  · intro h
    obtain ⟨text, post, rfl, rfl, h⟩ := h
    exact mem_ends_of_reads h

/-! ## Searching -/

theorem matchAt?_eq_none_iff {pattern : Pattern} {pre after : List Char} :
    pattern.matchAt? (.between pre after) = none ↔
      ∀ text post, after = text ++ post → ¬ Reads pattern pre text post := by
  rw [matchAt?, Option.map_eq_none_iff, List.head?_eq_none_iff]
  constructor
  · intro hnil text post hafter h
    subst hafter
    have hmem := mem_ends_of_reads h
    rw [hnil] at hmem
    cases hmem
  · intro h
    rw [List.eq_nil_iff_forall_not_mem]
    intro q hq
    obtain ⟨text, post, ht, _, hr⟩ := mem_ends_iff.mp hq
    exact h text post ht hr

/-- A piece of a text begins at its first character or further on. -/
theorem forall_split_cons {c : Char} {cs : List Char} {P : (mid text post : List Char) → Prop} :
    (∀ mid text post, c :: cs = mid ++ text ++ post → P mid text post) ↔
      (∀ text post, c :: cs = text ++ post → P [] text post) ∧
        ∀ mid text post, cs = mid ++ text ++ post → P (c :: mid) text post := by
  constructor
  · intro h
    constructor
    · intro text post hcs
      exact h [] text post hcs
    · intro mid text post hcs
      exact h (c :: mid) text post (by rw [hcs]; rfl)
  · intro h mid text post hcs
    obtain ⟨hhere, hlater⟩ := h
    cases mid with
    | nil => exact hhere text post hcs
    | cons d mid =>
      rw [List.cons_append, List.cons_append] at hcs
      obtain ⟨rfl, htail⟩ := List.cons.inj hcs
      exact hlater mid text post htail

/-- The search fails when the pattern reads nothing from here on. -/
theorem findFrom?_eq_none_iff {pattern : Pattern} :
    ∀ {cs pre : List Char}, pattern.findFrom? pre.getLast? cs = none ↔
      ∀ mid text post, cs = mid ++ text ++ post → ¬ Reads pattern (pre ++ mid) text post := by
  intro cs
  induction cs with
  | nil =>
    intro pre
    rw [findFrom?]
    show pattern.matchAt? (.between pre []) = none ↔ _
    rw [matchAt?_eq_none_iff]
    constructor
    · intro h mid text post hnil
      obtain ⟨hpre, rfl⟩ := List.append_eq_nil_iff.mp hnil.symm
      obtain ⟨rfl, rfl⟩ := List.append_eq_nil_iff.mp hpre
      rw [List.append_nil]
      exact h [] [] rfl
    · intro h text post hnil
      have := h [] text post (by rw [List.nil_append]; exact hnil)
      rwa [List.append_nil] at this
  | cons c cs ih =>
    intro pre
    have hnext : pattern.findFrom? (some c) cs = pattern.findFrom? (pre ++ [c]).getLast? cs := by
      rw [List.getLast?_append, List.getLast?_singleton]
      rfl
    have hhere : pattern.matchAt? ⟨pre.getLast?, c :: cs⟩ = none ↔
        ∀ text post, c :: cs = text ++ post → ¬ Reads pattern pre text post :=
      matchAt?_eq_none_iff
    rw [findFrom?, forall_split_cons, List.append_nil, ← hhere]
    cases hm : pattern.matchAt? ⟨pre.getLast?, c :: cs⟩ with
    | some found =>
      constructor
      · intro h
        cases h
      · intro h
        cases h.1
    | none =>
      dsimp only
      rw [hnext, ih, and_iff_right rfl]
      -- the two sides differ in where the character that was passed stands
      constructor
      · intro h mid text post hcs
        have hlater := h mid text post hcs
        rwa [List.append_assoc] at hlater
      · intro h mid text post hcs
        rw [List.append_assoc]
        exact h mid text post hcs

/-- The search answers exactly when the pattern occurs in the text. -/
theorem find?_isSome_iff {pattern : Pattern} {s : String} :
    (pattern.find? s).isSome ↔ pattern.Occurs s.toList := by
  rw [find?, Option.isSome_map, ← Option.ne_none_iff_isSome]
  have hnone := @findFrom?_eq_none_iff pattern s.toList []
  rw [List.getLast?_nil] at hnone
  rw [ne_eq, hnone]
  constructor
  · intro h
    refine Classical.byContradiction fun hno => h ?_
    intro mid text post hcs hr
    exact hno ⟨mid, text, post, hcs, hr⟩
  · intro hoccurs h
    obtain ⟨pre, text, post, hcs, hr⟩ := hoccurs
    exact h pre text post hcs hr

end QueryScript.Pattern
