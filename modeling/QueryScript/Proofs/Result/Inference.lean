import QueryScript.Proofs.Grouping
import QueryScript.Result.Census

/-!
# The type of a column, by rules

The type of a column depends on the types of its values alone.  `ColumnType.Settles` states the
rules, each with the case it applies in, and without a tally: what counts is which types occur,
how often, and which of them occurs first.  The rules leave no choice (`Settles.unique`).

A tally counts every type and keeps the types in the order in which they first occur
(`Tally.counts_ofTypes`), so what it is resolved to is the type that the rules settle
(`Tally.settles_resolve`).  The scan for the most frequent type keeps the first of several
because it replaces the best so far only by a better one (`Tally.exists_split_mostFrequent`).
-/

namespace QueryScript

namespace ColumnType

/-- The type that occurs most often in a list, and of several the one that occurs first. -/
structure IsMode (types : List ColumnType) (type : ColumnType) : Prop where
  mem : type ∈ types
  most : ∀ t ∈ types, types.count t ≤ types.count type
  first : ∀ t ∈ types, types.count t = types.count type → types.idxOf type ≤ types.idxOf t

/-- Two different types occur in a list. -/
def Mixed (types : List ColumnType) : Prop :=
  ∃ t ∈ types, ∃ u ∈ types, t ≠ u

/-- A number occurs in a list beside text. -/
def NumbersAndText (types : List ColumnType) : Prop :=
  (∃ t ∈ types, t.isNumeric = true) ∧ .varchar ∈ types

instance (types : List ColumnType) : Decidable (NumbersAndText types) :=
  inferInstanceAs (Decidable (_ ∧ _))

/-- The rules for the type of a column whose values have these types. -/
structure Settles (types : List ColumnType) (type : ColumnType) : Prop where
  /-- A column without values is text. -/
  none : types = [] → type = .varchar
  /-- Values of one type have that type. -/
  single : ∀ t ∈ types, (∀ u ∈ types, u = t) → type = t
  /-- Different numbers widen to the largest kind. -/
  numbers : Mixed types → (∀ t ∈ types, t.isNumeric = true) →
    type = if .decimal ∈ types then .decimal else .bigint
  /-- Numbers beside text are text. -/
  text : Mixed types → NumbersAndText types → type = .varchar
  /-- Of other mixtures the most frequent type wins. -/
  other : Mixed types → (∃ t ∈ types, t.isNumeric = false) → ¬ NumbersAndText types →
    IsMode types type

variable {types : List ColumnType} {type type' : ColumnType}

/-- One type at most occurs most often and first. -/
theorem IsMode.unique (h : IsMode types type) (h' : IsMode types type') : type = type' := by
  have hcount : types.count type = types.count type' := by
    have hle := h.most type' h'.mem
    have hge := h'.most type h.mem
    omega
  have hindex : types.idxOf type = types.idxOf type' := by
    have hle := h.first type' h'.mem hcount.symm
    have hge := h'.first type h.mem hcount
    omega
  exact (List.idxOf_inj h.mem).mp hindex

/-- Types that are not mixed are all the same. -/
theorem eq_of_not_mixed (h : ¬ Mixed types) {t u : ColumnType} (ht : t ∈ types)
    (hu : u ∈ types) : u = t := by
  by_contra hne
  exact h ⟨u, hu, t, ht, hne⟩

/-- **The rules leave no choice.** -/
theorem Settles.unique (h : Settles types type) (h' : Settles types type') : type = type' := by
  by_cases hmixed : Mixed types
  · by_cases hnumbers : ∀ t ∈ types, t.isNumeric = true
    · rw [h.numbers hmixed hnumbers, h'.numbers hmixed hnumbers]
    · by_cases htext : NumbersAndText types
      · rw [h.text hmixed htext, h'.text hmixed htext]
      · have hother : ∃ t ∈ types, t.isNumeric = false := by simpa using hnumbers
        exact (h.other hmixed hother htext).unique (h'.other hmixed hother htext)
  · cases types with
    | nil => rw [h.none rfl, h'.none rfl]
    | cons t rest =>
      have hsame : ∀ u ∈ t :: rest, u = t := fun u hu =>
        eq_of_not_mixed hmixed (List.mem_cons_self ..) hu
      rw [h.single t (List.mem_cons_self ..) hsame, h'.single t (List.mem_cons_self ..) hsame]

end ColumnType

namespace Tally

open ColumnType

variable {tally : Tally} {types : List ColumnType}

/-- The tally counts these types: each type stands in it where it first occurs, with the number
of its occurrences. -/
abbrev Counts (tally : Tally) (types : List ColumnType) : Prop :=
  Groups id List.length tally types

/-- The tally of a list of types. -/
def ofTypes (types : List ColumnType) : Tally :=
  types.foldl add []

theorem put_add (tally : Tally) (t : ColumnType) : Put t 0 (· + 1) tally (tally.add t) := by
  induction tally with
  | nil => exact .opened (by simp)
  | cons entry rest ih =>
    obtain ⟨u, n⟩ := entry
    rw [add]
    by_cases hut : u = t
    · rw [if_pos hut, hut]
      exact .head rest
    · rw [if_neg hut]
      exact ih.cons hut

/-- A tally counts the types that it is made of. -/
theorem counts_ofTypes (types : List ColumnType) : (ofTypes types).Counts types := by
  have hnil : Counts [] [] := .nil
  have h := hnil.foldl (fun _ _ => List.length_append) put_add types
  rwa [List.nil_append] at h

/-- A type is entered in a tally with the number of its occurrences. -/
theorem Counts.count (h : tally.Counts types) {t : ColumnType} {n : Nat} (ht : (t, n) ∈ tally) :
    n = types.count t := by
  rw [h.summed t n ht, List.count_eq_length_filter]
  rfl

theorem Counts.mem_types (h : tally.Counts types) {t : ColumnType} :
    t ∈ tally.map Prod.fst ↔ t ∈ types := by
  rw [h.seen.mem_iff, List.map_id]

/-- The types stand in a tally in the order in which they first occur. -/
theorem Counts.ordered (h : tally.Counts types) :
    tally.Pairwise fun e e' => types.idxOf e.1 < types.idxOf e'.1 := by
  have hordered := h.seen.ordered
  rwa [List.map_id, List.pairwise_map] at hordered

/-! ## The most frequent type -/

/-- The scan ends at an entry with a higher count than all before it, and at least the count of
all after it. -/
theorem exists_split_mostFrequent (rest : Tally) (best : ColumnType × Nat) :
    ∃ n before after, best :: rest = before ++ (mostFrequent rest best, n) :: after ∧
      (∀ e ∈ before, e.2 < n) ∧ ∀ e ∈ after, e.2 ≤ n := by
  induction rest generalizing best with
  | nil => exact ⟨best.2, [], [], rfl, by simp, by simp⟩
  | cons entry rest ih =>
    obtain ⟨t, m⟩ := entry
    rw [mostFrequent]
    by_cases hbetter : best.2 < m
    · rw [if_pos hbetter]
      obtain ⟨n, before, after, hsplit, hbefore, hafter⟩ := ih (t, m)
      have hmn : m ≤ n := by
        cases before with
        | nil => exact Nat.le_of_eq (congrArg Prod.snd (List.cons.inj hsplit).1)
        | cons e before =>
          have hlt := hbefore e (List.mem_cons_self ..)
          rw [← (List.cons.inj hsplit).1] at hlt
          exact Nat.le_of_lt hlt
      refine ⟨n, best :: before, after, by rw [hsplit, List.cons_append], ?_, hafter⟩
      exact List.forall_mem_cons.mpr ⟨Nat.lt_of_lt_of_le hbetter hmn, hbefore⟩
    · rw [if_neg hbetter]
      obtain ⟨n, before, after, hsplit, hbefore, hafter⟩ := ih best
      cases before with
      | nil =>
        -- the best so far stays the best, and the new entry stands after it
        obtain ⟨hbest, hrest⟩ := List.cons.inj hsplit
        have hn : best.2 = n := congrArg Prod.snd hbest
        refine ⟨n, [], (t, m) :: after, by rw [List.nil_append, ← hbest, ← hrest], by simp, ?_⟩
        refine List.forall_mem_cons.mpr ⟨?_, hafter⟩
        show m ≤ n
        omega
      | cons e before =>
        obtain ⟨hbest, hrest⟩ := List.cons.inj hsplit
        have hlt := hbefore e (List.mem_cons_self ..)
        rw [← hbest] at hlt
        refine ⟨n, best :: (t, m) :: before, after, congrArg (best :: (t, m) :: ·) hrest, ?_,
          hafter⟩
        refine List.forall_mem_cons.mpr ⟨hlt, List.forall_mem_cons.mpr ⟨?_, ?_⟩⟩
        · show m < n
          omega
        · exact fun e' he' => hbefore e' (List.mem_cons_of_mem _ he')

/-- **The scan finds the most frequent of the types, and of several the first.** -/
theorem Counts.isMode {first : ColumnType × Nat} {rest : Tally}
    (h : Counts (first :: rest) types) : IsMode types (mostFrequent rest first) := by
  obtain ⟨n, before, after, hsplit, hbefore, hafter⟩ := exists_split_mostFrequent rest first
  rw [hsplit] at h
  have hn : n = types.count (mostFrequent rest first) := h.count (by simp)
  have hordered := (List.pairwise_append.mp h.ordered).2.1
  -- a type stands before the one found, is the one found, or stands after it
  have hplace : ∀ t ∈ types, types.count t < n ∨ t = mostFrequent rest first ∨
      (types.count t ≤ n ∧ types.idxOf (mostFrequent rest first) < types.idxOf t) := by
    intro t ht
    obtain ⟨⟨u, m⟩, hmem, rfl⟩ := List.mem_map.mp (h.mem_types.mpr ht)
    have hm : m = types.count u := h.count hmem
    rcases List.mem_append.mp hmem with hmem | hmem
    · exact .inl (hm ▸ hbefore _ hmem)
    · rcases List.mem_cons.mp hmem with heq | hmem
      · exact .inr (.inl (congrArg Prod.fst heq))
      · exact .inr (.inr ⟨hm ▸ hafter _ hmem, (List.pairwise_cons.mp hordered).1 _ hmem⟩)
  constructor
  · rw [← h.mem_types]
    simp
  · intro t ht
    rcases hplace t ht with hlt | rfl | ⟨hle, -⟩
    · omega
    · exact Nat.le_refl _
    · omega
  · intro t ht hcount
    rcases hplace t ht with hlt | rfl | ⟨-, hlt⟩
    · omega
    · exact Nat.le_refl _
    · omega

/-! ## What a tally is resolved to -/

/-- A tally of different types has two entries at least. -/
theorem Counts.exists_of_mixed (h : tally.Counts types) (hmixed : Mixed types) :
    ∃ first second rest, tally = first :: second :: rest := by
  obtain ⟨t, ht, u, hu, hne⟩ := hmixed
  rw [← h.mem_types] at ht hu
  match tally with
  | [] => cases ht
  | [entry] =>
    simp only [List.map_cons, List.map_nil, List.mem_singleton] at ht hu
    exact absurd (ht.trans hu.symm) hne
  | first :: second :: rest => exact ⟨first, second, rest, rfl⟩

/-- How the tally of different types is resolved, read off the types. -/
theorem Counts.resolve_of_mixed (h : tally.Counts types) (hmixed : Mixed types) :
    ∃ first rest, tally = first :: rest ∧ tally.resolve =
      if ∀ t ∈ types, t.isNumeric = true then
        if .decimal ∈ types then .decimal else .bigint
      else if NumbersAndText types then .varchar
      else mostFrequent rest first := by
  obtain ⟨first, second, rest, rfl⟩ := h.exists_of_mixed hmixed
  refine ⟨first, second :: rest, rfl, ?_⟩
  have hall : ((first :: second :: rest).map Prod.fst).all isNumeric = true ↔
      ∀ t ∈ types, t.isNumeric = true := by
    simp only [List.all_eq_true, h.mem_types]
  have hdecimal : ((first :: second :: rest).map Prod.fst).contains .decimal = true ↔
      .decimal ∈ types := by
    rw [List.contains_iff_mem, h.mem_types]
  have htext : (((first :: second :: rest).map Prod.fst).any isNumeric &&
      ((first :: second :: rest).map Prod.fst).contains .varchar) = true ↔
      NumbersAndText types := by
    rw [Bool.and_eq_true, List.contains_iff_mem, h.mem_types, NumbersAndText]
    simp only [List.any_eq_true, h.mem_types]
  simp only [resolve, hall, hdecimal, htext]

/-- **A tally is resolved to the type that the rules settle.** -/
theorem settles_resolve (h : tally.Counts types) : Settles types tally.resolve where
  none hnone := by
    have hempty : tally.map Prod.fst = [] := by
      rw [List.eq_nil_iff_forall_not_mem]
      intro t ht
      rw [h.mem_types, hnone] at ht
      cases ht
    rw [List.map_eq_nil_iff.mp hempty]
    rfl
  single t ht hsame := by
    have hnodup := h.seen.nodup
    rw [← h.mem_types] at ht
    match tally with
    | [] => cases ht
    | [(u, n)] => exact hsame u (h.mem_types.mp (by simp))
    | first :: second :: rest =>
      have hfirst := hsame first.1 (h.mem_types.mp (by simp))
      have hsecond := hsame second.1 (h.mem_types.mp (by simp))
      simp [hfirst, hsecond] at hnodup
  numbers hmixed hnumbers := by
    obtain ⟨first, rest, -, hresolve⟩ := h.resolve_of_mixed hmixed
    rw [hresolve, if_pos hnumbers]
  text hmixed htext := by
    obtain ⟨first, rest, -, hresolve⟩ := h.resolve_of_mixed hmixed
    have hnumbers : ¬ ∀ t ∈ types, t.isNumeric = true := fun hall => by
      cases hall _ htext.2
    rw [hresolve, if_neg hnumbers, if_pos htext]
  other hmixed hother htext := by
    obtain ⟨first, rest, rfl, hresolve⟩ := h.resolve_of_mixed hmixed
    have hnumbers : ¬ ∀ t ∈ types, t.isNumeric = true := by simpa using hother
    rw [hresolve, if_neg hnumbers, if_neg htext]
    exact h.isMode

end Tally

end QueryScript
