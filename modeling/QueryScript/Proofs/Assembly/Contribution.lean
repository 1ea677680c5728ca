import Mathlib.Data.List.Forall2
import QueryScript.Assembly.Application

/-!
# What items contribute in two passes

A definition is taken up in two passes, first the items that name common table expressions and
then all others.  An item contributes a list of actions to the pass that it belongs to: its own
action, or what is taken up in its place.  `Contribution.replay` puts the contributions together,
each action with its place in the document.

The names are meant to come first and everything else in the order of the document
(`Taken.Precedes`).  An item that is replaced may contribute to the wrong pass: names to the
second, or other actions to the first.  What two items contribute is in order exactly if none of
this matters between them (`Contribution.precedes_iff_keeps`).
-/

namespace QueryScript

/-! ## Lists in two passes -/

section

variable {α : Type} {l : List α}

theorem mem_twoPasses {p : α → Bool} {x : α} : x ∈ l.filter p ++ l.filter (!p ·) ↔ x ∈ l := by
  rw [List.mem_append, List.mem_filter, List.mem_filter]
  cases p x <;> simp

/-- A list in two passes keeps a relation exactly if its pairs keep it in the order in which they
are passed. -/
theorem pairwise_twoPasses_iff {R : α → α → Prop} {p : α → Bool} :
    (l.filter p ++ l.filter (!p ·)).Pairwise R ↔
      l.Pairwise fun x y => if p y && !p x then R y x else R x y := by
  induction l with
  | nil => simp
  | cons x l ih =>
    rw [List.pairwise_cons, ← ih]
    cases hx : p x with
    | true =>
      rw [List.filter_cons_of_pos hx, List.filter_cons_of_neg (by simp [hx]), List.cons_append,
        List.pairwise_cons]
      simp only [mem_twoPasses, Bool.not_true, Bool.and_false]
      simp
    | false =>
      rw [List.filter_cons_of_neg (by simp [hx]), List.filter_cons_of_pos (by simp [hx])]
      simp only [List.pairwise_append, List.pairwise_cons, List.mem_cons, List.mem_filter]
      constructor
      · intro h
        obtain ⟨hfirst, ⟨hx', hlast⟩, hacross⟩ := h
        refine ⟨fun y hy => ?_, hfirst, hlast, fun y hy z hz => hacross y hy z (.inr hz)⟩
        cases hpy : p y with
        | true => exact hacross y ⟨hy, hpy⟩ x (.inl rfl)
        | false => exact hx' y ⟨hy, by rw [hpy]; rfl⟩
      · intro h
        obtain ⟨hx', hfirst, hlast, hacross⟩ := h
        refine ⟨hfirst, ⟨fun y hy => ?_, hlast⟩, fun y hy z hz => ?_⟩
        · have hpy : p y = false := by simpa using hy.2
          simpa [hpy] using hx' y hy.1
        · rcases hz with rfl | hz
          · simpa [hy.2, hx] using hx' y hy.1
          · exact hacross y hy z hz

/-- Numbered entries keep a relation if the entries keep what it says of entries in this order. -/
theorem pairwise_zipIdx_iff {S : α × Nat → α × Nat → Prop} {P : α → α → Prop}
    (h : ∀ x y i j, i < j → (S (x, i) (y, j) ↔ P x y)) (k : Nat) :
    (l.zipIdx k).Pairwise S ↔ l.Pairwise P := by
  induction l generalizing k with
  | nil => simp
  | cons x l ih =>
    rw [List.zipIdx_cons, List.pairwise_cons, List.pairwise_cons, ih]
    refine and_congr_left fun _ => ?_
    constructor
    · intro hall y hy
      obtain ⟨i, hi, rfl⟩ := List.mem_iff_getElem.mp hy
      have hmem : (l[i], k + 1 + i) ∈ l.zipIdx (k + 1) :=
        List.mk_add_mem_zipIdx_iff_getElem?.mpr (List.getElem?_eq_getElem hi)
      exact (h x l[i] k (k + 1 + i) (by omega)).mp (hall _ hmem)
    · intro hall (y, j) hy
      have hj := List.le_snd_of_mem_zipIdx hy
      have hmem := List.fst_mem_of_mem_zipIdx hy
      exact (h x y k j (by dsimp only at hj; omega)).mpr (hall y hmem)

end

/-! ## What is taken up -/

/-- An action that is taken up, with its place: the position of its item in the definition, and
below it, if the item is replaced by its `else` definition, the place in that. -/
structure Taken where
  place : List Nat
  action : Application

namespace Taken

/-- Whether the action names a common table expression. -/
def declares (t : Taken) : Bool :=
  t.action.route = .withQuery

/-- The action taken up in place of the item at a position. -/
def under (position : Nat) (t : Taken) : Taken :=
  { t with place := position :: t.place }

/-- The first action may be taken up before the second: it names something, or neither does and
it stands before the second in the document. -/
def Precedes (t t' : Taken) : Prop :=
  t.declares = true ∨ (t'.declares = false ∧ t.place < t'.place)

@[simp] theorem declares_under (position : Nat) (t : Taken) :
    (t.under position).declares = t.declares := rfl

@[simp] theorem place_under (position : Nat) (t : Taken) :
    (t.under position).place = position :: t.place := rfl

@[simp] theorem action_under (position : Nat) (t : Taken) :
    (t.under position).action = t.action := rfl

end Taken

/-- What an item contributes, in the pass that it belongs to. -/
structure Contribution where
  /-- Whether the item names a common table expression, so that it belongs to the first pass. -/
  declares : Bool
  taken : List Taken

namespace Contribution

/-- What an item without an action contributes. -/
def nothing : Contribution := ⟨false, []⟩

/-- The contribution of the item at a position. -/
def placed (c : Contribution) (position : Nat) : Contribution :=
  { c with taken := c.taken.map (.under position) }

/-- The contributions of the items of a definition, each at its position. -/
def allPlaced (cs : List Contribution) : List Contribution :=
  cs.zipIdx.map fun c => c.1.placed c.2

/-- What the items of a definition contribute, in two passes. -/
def replay (cs : List Contribution) : List Taken :=
  ((allPlaced cs).filter (·.declares) ++ (allPlaced cs).filter (!·.declares)).flatMap (·.taken)

/-- The item contributes an action that names nothing. -/
def Acts (c : Contribution) : Prop :=
  ∃ t ∈ c.taken, t.declares = false

/-- The item contributes an action that names something. -/
def Names (c : Contribution) : Prop :=
  ∃ t ∈ c.taken, t.declares = true

/-- The item and one that is written after it do not get in each other's way.  If the second is
passed first, it contributes nothing but names, or the first contributes nothing.  Otherwise the
second contributes no names, or the first contributes nothing but names. -/
def Keeps (c c' : Contribution) : Prop :=
  if c'.declares && !c.declares then c'.Acts → c.taken = [] else c.Acts → ¬ c'.Names

variable {cs : List Contribution} {R : Taken → Taken → Prop}

theorem mem_allPlaced {c : Contribution} :
    c ∈ allPlaced cs ↔ ∃ (c' : Contribution) (i : Nat), cs[i]? = some c' ∧ c'.placed i = c := by
  rw [allPlaced, List.mem_map]
  constructor
  · intro h
    obtain ⟨⟨c', i⟩, hmem, rfl⟩ := h
    exact ⟨c', i, List.mem_zipIdx_iff_getElem?.mp hmem, rfl⟩
  · intro h
    obtain ⟨c', i, hget, rfl⟩ := h
    exact ⟨(c', i), List.mem_zipIdx_iff_getElem?.mpr hget, rfl⟩

/-- What is replayed is what the items contribute, each action under the position of its item. -/
theorem mem_replay {t : Taken} :
    t ∈ replay cs ↔
      ∃ (c : Contribution) (i : Nat), cs[i]? = some c ∧ ∃ t' ∈ c.taken, t'.under i = t := by
  simp only [replay, List.mem_flatMap, mem_twoPasses, mem_allPlaced]
  constructor
  · intro h
    obtain ⟨_, ⟨c, i, hget, rfl⟩, ht⟩ := h
    exact ⟨c, i, hget, List.mem_map.mp ht⟩
  · intro h
    obtain ⟨c, i, hget, ht⟩ := h
    exact ⟨c.placed i, ⟨c, i, hget, rfl⟩, List.mem_map.mpr ht⟩

/-- The places aside, the contributions are passed as they are. -/
theorem map_action_replay (cs : List Contribution) :
    (replay cs).map (·.action) =
      (cs.filter (·.declares) ++ cs.filter (!·.declares)).flatMap
        fun c => c.taken.map (·.action) := by
  have hpass : ∀ p : Bool → Bool,
      ((allPlaced cs).filter fun c => p c.declares).flatMap (fun c => c.taken.map (·.action)) =
        (cs.filter fun c => p c.declares).flatMap fun c => c.taken.map (·.action) := by
    intro p
    have hfst : (cs.zipIdx.filter fun c => p c.1.declares).map Prod.fst =
        cs.filter fun c => p c.declares := by
      conv_rhs => rw [← List.zipIdx_map_fst 0 cs, List.filter_map]
      rfl
    rw [allPlaced, List.filter_map, List.flatMap_map, ← hfst, List.flatMap_map]
    refine List.flatMap_congr fun c _ => ?_
    simp [placed, Function.comp_def]
  rw [replay, List.map_flatMap, List.flatMap_append, List.flatMap_append]
  exact congrArg₂ (· ++ ·) (hpass id) (hpass (!·))

/-- What two passes take up keeps a relation exactly if what each item contributes does, and the
contributions of any two items do in the order in which they are passed. -/
theorem pairwise_replay_iff {K : Contribution → Contribution → Prop}
    (hunder : ∀ i t t', R (t.under i) (t'.under i) ↔ R t t')
    (hacross : ∀ (c c' : Contribution) (i j : Nat), i < j →
      ((if c'.declares && !c.declares then
          ∀ t ∈ c'.taken, ∀ t' ∈ c.taken, R (t.under j) (t'.under i)
        else ∀ t ∈ c.taken, ∀ t' ∈ c'.taken, R (t.under i) (t'.under j)) ↔ K c c')) :
    (replay cs).Pairwise R ↔ (∀ c ∈ cs, c.taken.Pairwise R) ∧ cs.Pairwise K := by
  rw [replay, List.pairwise_flatMap, pairwise_twoPasses_iff, allPlaced, List.pairwise_map]
  refine and_congr ?_ ?_
  · constructor
    · intro h c hc
      obtain ⟨i, hget⟩ := List.mem_iff_getElem?.mp hc
      have hplaced := h (c.placed i) (mem_twoPasses.mpr (mem_allPlaced.mpr ⟨c, i, hget, rfl⟩))
      simpa only [placed, List.pairwise_map, hunder] using hplaced
    · intro h c hc
      obtain ⟨c', i, hget, rfl⟩ := mem_allPlaced.mp (mem_twoPasses.mp hc)
      simpa only [placed, List.pairwise_map, hunder] using h c' (List.mem_of_getElem? hget)
  · refine pairwise_zipIdx_iff (fun c c' i j hij => ?_) 0
    rw [← hacross c c' i j hij]
    simp only [placed, List.forall_mem_map]

/-- What two items contribute is in order exactly if they do not get in each other's way. -/
theorem precedes_iff_keeps (c c' : Contribution) {i j : Nat} (hij : i < j) :
    (if c'.declares && !c.declares then
        ∀ t ∈ c'.taken, ∀ t' ∈ c.taken, (t.under j).Precedes (t'.under i)
      else ∀ t ∈ c.taken, ∀ t' ∈ c'.taken, (t.under i).Precedes (t'.under j)) ↔ c.Keeps c' := by
  have hback : ∀ t t' : Taken, (t.under j).Precedes (t'.under i) ↔ t.declares = true := by
    intro t t'
    simp only [Taken.Precedes, Taken.declares_under, Taken.place_under, List.cons_lt_cons_iff]
    constructor
    · intro h
      rcases h with h | ⟨-, h | ⟨h, -⟩⟩
      · exact h
      · omega
      · omega
    · exact .inl
  have hforth : ∀ t t' : Taken, (t.under i).Precedes (t'.under j) ↔
      (t.declares = false → t'.declares = false) := by
    intro t t'
    simp only [Taken.Precedes, Taken.declares_under, Taken.place_under, List.cons_lt_cons_iff]
    cases t.declares <;> simp [hij]
  unfold Keeps
  split
  · simp only [hback]
    constructor
    · intro h hacts
      obtain ⟨t, ht, hact⟩ := hacts
      refine List.eq_nil_iff_forall_not_mem.mpr fun t' ht' => ?_
      rw [h t ht t' ht'] at hact
      cases hact
    · intro h t ht t' ht'
      cases hdeclares : t.declares with
      | true => rfl
      | false =>
        rw [h ⟨t, ht, hdeclares⟩] at ht'
        cases ht'
  · simp only [hforth]
    constructor
    · intro h hacts hnames
      obtain ⟨t, ht, hact⟩ := hacts
      obtain ⟨t', ht', hname⟩ := hnames
      rw [h t ht t' ht' hact] at hname
      cases hname
    · intro h t ht t' ht' hact
      cases hdeclares : t'.declares with
      | false => rfl
      | true => exact absurd ⟨t', ht', hdeclares⟩ (h ⟨t, ht, hact⟩)

end Contribution

end QueryScript
