import Mathlib.Data.List.Basic
import Mathlib.Data.List.Nodup

/-!
# Grouping in one pass

Items are grouped by a key in one pass: an item goes to the group of its key, and a key that is
met for the first time opens a group at the end (`Put`).  So the keys stand in the order in
which they first occur (`FirstSeen`), and each group sums up the items of its key in their
order.  `Groups` says both; one item keeps it (`Groups.put`), and so does a whole pass
(`Groups.foldl`).

`FirstSeen` leaves no choice: there is one list of the elements of a list in the order in which
they first occur (`FirstSeen.unique`).
-/

namespace QueryScript

variable {α β ι : Type}

/-- The elements of a list, each once, in the order in which they first occur in it. -/
structure FirstSeen [DecidableEq α] (seen all : List α) : Prop where
  mem_iff : ∀ x, x ∈ seen ↔ x ∈ all
  ordered : seen.Pairwise fun x y => all.idxOf x < all.idxOf y

namespace FirstSeen

variable [DecidableEq α] {seen all xs ys : List α} {x : α}

/-- Of no elements none has been seen. -/
theorem nil : FirstSeen ([] : List α) [] where
  mem_iff _ := Iff.rfl
  ordered := .nil

/-- What has been seen is listed once. -/
theorem nodup (h : FirstSeen seen all) : seen.Nodup := by
  refine h.ordered.imp fun hlt heq => ?_
  rw [heq] at hlt
  exact Nat.lt_irrefl _ hlt

/-- What follows does not change the order of what has been seen. -/
theorem ordered_append (h : FirstSeen seen all) (rest : List α) :
    seen.Pairwise fun x y => (all ++ rest).idxOf x < (all ++ rest).idxOf y := by
  refine h.ordered.imp_of_mem fun {x y} hx hy hlt => ?_
  rw [List.idxOf_append_of_mem ((h.mem_iff x).mp hx),
    List.idxOf_append_of_mem ((h.mem_iff y).mp hy)]
  exact hlt

/-- What has been seen before adds nothing. -/
theorem append (h : FirstSeen seen all) {rest : List α} (hrest : ∀ x ∈ rest, x ∈ all) :
    FirstSeen seen (all ++ rest) where
  mem_iff x := by
    rw [h.mem_iff, List.mem_append]
    exact ⟨.inl, fun hx => hx.elim id (hrest x)⟩
  ordered := h.ordered_append rest

/-- What is new goes to the end. -/
theorem snoc (h : FirstSeen seen all) (hx : x ∉ all) : FirstSeen (seen ++ [x]) (all ++ [x]) where
  mem_iff y := by rw [List.mem_append, List.mem_append, h.mem_iff]
  ordered := by
    rw [List.pairwise_append]
    refine ⟨h.ordered_append [x], List.pairwise_singleton _ _, fun y hy z hz => ?_⟩
    obtain rfl := List.mem_singleton.mp hz
    have hold := (h.mem_iff y).mp hy
    have hlt := List.idxOf_lt_length_of_mem hold
    rw [List.idxOf_append_of_mem hold, List.idxOf_append_of_notMem hx]
    omega

/-- Distinct elements stand in the order in which they occur. -/
theorem self (h : xs.Nodup) : FirstSeen xs xs where
  mem_iff _ := Iff.rfl
  ordered := by
    rw [List.pairwise_iff_getElem]
    intro i j hi hj hij
    rw [h.idxOf_getElem i hi, h.idxOf_getElem j hj]
    exact hij

/-- Distinct elements that come again and again are seen the first time. -/
theorem flatMap_const (h : xs.Nodup) {items : List β} (hne : items ≠ []) :
    FirstSeen xs (items.flatMap fun _ => xs) := by
  cases items with
  | nil => exact absurd rfl hne
  | cons item rest =>
    rw [List.flatMap_cons]
    refine (self h).append fun x hx => ?_
    obtain ⟨_, -, hx⟩ := List.mem_flatMap.mp hx
    exact hx

/-- **There is one list of the elements of a list in the order in which they first occur.** -/
theorem unique (h : FirstSeen xs all) (h' : FirstSeen ys all) : xs = ys := by
  have hperm : xs.Perm ys := by
    rw [List.perm_ext_iff_of_nodup h.nodup h'.nodup]
    intro x
    rw [h.mem_iff, h'.mem_iff]
  refine hperm.eq_of_pairwise (fun x y _ _ hxy hyx => ?_) h.ordered h'.ordered
  omega

end FirstSeen

/-- An item is put into the group of its key `k`: `f` changes the group, and a new group is made
from `start`. -/
inductive Put (k : α) (start : β) (f : β → β) : List (α × β) → List (α × β) → Prop where
  | found {before after : List (α × β)} {b : β} (hk : k ∉ before.map Prod.fst) :
      Put k start f (before ++ (k, b) :: after) (before ++ (k, f b) :: after)
  | opened {groups : List (α × β)} (hk : k ∉ groups.map Prod.fst) :
      Put k start f groups (groups ++ [(k, f start)])

/-- An item of the first group. -/
theorem Put.head {k : α} {start : β} {f : β → β} {b : β} (groups : List (α × β)) :
    Put k start f ((k, b) :: groups) ((k, f b) :: groups) := by
  rw [← List.nil_append ((k, b) :: groups), ← List.nil_append ((k, f b) :: groups)]
  exact .found List.not_mem_nil

/-- A group before the one of the item stays where it is. -/
theorem Put.cons {k : α} {start : β} {f : β → β} {groups groups' : List (α × β)}
    (h : Put k start f groups groups') {entry : α × β} (hne : entry.1 ≠ k) :
    Put k start f (entry :: groups) (entry :: groups') := by
  have hnot : ∀ {keys : List α}, k ∉ keys → k ∉ entry.1 :: keys := by
    intro keys hk hmem
    rcases List.mem_cons.mp hmem with heq | hmem
    · exact hne heq.symm
    · exact hk hmem
  cases h with
  | found hk =>
    rw [← List.cons_append, ← List.cons_append]
    exact .found (hnot hk)
  | opened hk => exact .opened (hnot hk)

/-- The groups of some items by a key: the keys in the order in which they first occur, each
with the summary of its items. -/
structure Groups [DecidableEq α] (key : ι → α) (summary : List ι → β) (groups : List (α × β))
    (items : List ι) : Prop where
  seen : FirstSeen (groups.map Prod.fst) (items.map key)
  summed : ∀ k b, (k, b) ∈ groups → b = summary (items.filter (key · = k))

namespace Groups

variable [DecidableEq α] {key : ι → α} {summary : List ι → β} {groups groups' : List (α × β)}
  {items : List ι}

/-- No items make no groups. -/
theorem nil : Groups key summary [] [] where
  seen := .nil
  summed _ _ h := by cases h

/-- An item is not among those of another key. -/
theorem filter_snoc_of_ne {x : ι} {k : α} (h : key x ≠ k) :
    (items ++ [x]).filter (key · = k) = items.filter (key · = k) := by
  rw [List.filter_append, List.filter_cons_of_neg (by simpa using h), List.filter_nil,
    List.append_nil]

theorem filter_snoc {x : ι} :
    (items ++ [x]).filter (key · = key x) = items.filter (key · = key x) ++ [x] := by
  rw [List.filter_append, List.filter_cons_of_pos (by simp), List.filter_nil]

/-- **One more item keeps the groups those of the items.** -/
theorem put {x : ι} {f : β → β} (h : Groups key summary groups items)
    (hf : ∀ xs, summary (xs ++ [x]) = f (summary xs))
    (hput : Put (key x) (summary []) f groups groups') :
    Groups key summary groups' (items ++ [x]) := by
  have hkeys : (items ++ [x]).map key = items.map key ++ [key x] := by simp
  cases hput with
  | @found before after b hk =>
    have hnodup := h.seen.nodup
    rw [List.map_append, List.map_cons, List.nodup_append, List.nodup_cons] at hnodup
    obtain ⟨-, ⟨hafter, -⟩, -⟩ := hnodup
    constructor
    · have hold : key x ∈ items.map key := by
        rw [← h.seen.mem_iff]
        simp
      have hseen : FirstSeen ((before ++ (key x, b) :: after).map Prod.fst)
          (items.map key ++ [key x]) := h.seen.append (by simpa using hold)
      rw [hkeys]
      simpa using hseen
    · intro k c hc
      by_cases hkx : key x = k
      · -- the group of the item is the one that has changed, for its key occurs once
        have hcb : c = f b := by
          subst hkx
          rcases List.mem_append.mp hc with hc | hc
          · exact absurd (List.mem_map.mpr ⟨_, hc, rfl⟩) hk
          · rcases List.mem_cons.mp hc with hc | hc
            · exact (Prod.mk.inj hc).2
            · exact absurd (List.mem_map.mpr ⟨_, hc, rfl⟩) hafter
        subst hkx
        rw [filter_snoc, hf, hcb, h.summed (key x) b (by simp)]
      · rw [filter_snoc_of_ne hkx]
        refine h.summed k c ?_
        simp only [List.mem_append, List.mem_cons, Prod.mk.injEq] at hc ⊢
        rcases hc with hc | ⟨heq, -⟩ | hc
        · exact .inl hc
        · exact absurd heq.symm hkx
        · exact .inr (.inr hc)
  | opened hk =>
    have hnew : key x ∉ items.map key := by rwa [← h.seen.mem_iff]
    constructor
    · rw [hkeys, List.map_append]
      exact h.seen.snoc hnew
    · intro k c hc
      rcases List.mem_append.mp hc with hc | hc
      · have hkx : key x ≠ k := by
          intro heq
          exact hk (heq ▸ List.mem_map.mpr ⟨_, hc, rfl⟩)
        rw [filter_snoc_of_ne hkx]
        exact h.summed k c hc
      · obtain ⟨rfl, rfl⟩ := Prod.mk.inj (List.mem_singleton.mp hc)
        have hnone : items.filter (key · = key x) = [] := by
          rw [List.filter_eq_nil_iff]
          intro y hy heq
          exact hnew (List.mem_map.mpr ⟨y, hy, by simpa using heq⟩)
        rw [filter_snoc, hnone, hf]

/-- **A pass that puts every item into the group of its key groups the items.** -/
theorem foldl {step : List (α × β) → ι → List (α × β)} {f : ι → β → β}
    (hf : ∀ x xs, summary (xs ++ [x]) = f x (summary xs))
    (hstep : ∀ groups x, Put (key x) (summary []) (f x) groups (step groups x))
    (h : Groups key summary groups items) (more : List ι) :
    Groups key summary (more.foldl step groups) (items ++ more) := by
  induction more generalizing groups items with
  | nil => rwa [List.append_nil]
  | cons x more ih =>
    rw [List.foldl_cons, List.append_cons]
    exact ih (h.put (hf x) (hstep groups x))

end Groups

end QueryScript
