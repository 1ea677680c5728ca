import Mathlib.Data.List.Perm.Subperm
import QueryScript.Condition.Comparison
import QueryScript.Proofs.Json.Keys

/-!
# The laws of the comparisons

Equality and order of two values are computed apart, and each has its own rule for values of
different kinds.  What ties them together is that values come to be in an order in three ways
only: as two texts, as two booleans, or as numbers, one of which is written as a number
(`Json.Ordered`).  In each of them the sides swapped are in the order swapped, and the values
are equal exactly when neither comes first.

Equality of values that are in no order is symmetric as well.  It looks the entries of the left
object up in the right one, so this takes a count of the keys (`Json.same_symm`).

So of two values in an order exactly one of `gt`, `eq` and `lt` holds, and `gte` and `lte` are
what their names say (`Comparison.holds_coherent`).  Texts that read as an infinity are in order
with every number, and texts that read as not-a-number with none.
-/

namespace QueryScript

/-! ## Doubles -/

namespace Binary64

/-- Two doubles are equal exactly when they are in order and neither comes first. -/
theorem eq_iff_order (x y : Binary64) : x.eq y = true ↔ x.order y = some .eq := by
  unfold eq order
  cases x.place with
  | none => simp
  | some i =>
    cases y.place with
    | none => simp
    | some j => simp

theorem order_swap (x y : Binary64) : y.order x = (x.order y).map Ordering.swap := by
  unfold order
  cases x.place with
  | none => cases y.place <;> rfl
  | some i =>
    cases y.place with
    | none => rfl
    | some j => exact congrArg some (Int.compare_swap i j).symm

/-- Equality of doubles is symmetric. -/
theorem eq_comm (x y : Binary64) : x.eq y = y.eq x := by
  rw [Bool.eq_iff_iff, eq_iff_order, eq_iff_order, order_swap x y]
  cases x.order y with
  | none => simp
  | some o => cases o <;> simp

end Binary64

theorem Number.same_comm (m n : Number) : m.same n = n.same m := by
  cases m with
  | int i =>
    cases n with
    | int j => exact BEq.comm
    | double => rfl
  | double x =>
    cases n with
    | int => rfl
    | double y => exact Binary64.eq_comm x y

namespace Json

/-! ## Equality of values -/

theorem sameItems_symm {xs ys : List Json}
    (hitems : ∀ x ∈ xs, ∀ y ∈ ys, x.same y = true → y.same x = true)
    (h : sameItems xs ys = true) : sameItems ys xs = true := by
  induction xs generalizing ys with
  | nil =>
    cases ys with
    | nil => rfl
    | cons => cases h
  | cons x xs ih =>
    cases ys with
    | nil => cases h
    | cons y ys =>
      rw [sameItems, Bool.and_eq_true] at h ⊢
      have hhead := hitems x List.mem_cons_self y List.mem_cons_self h.1
      refine ⟨hhead, ih (fun x' hx' y' hy' => ?_) h.2⟩
      exact hitems x' (List.mem_cons_of_mem _ hx') y' (List.mem_cons_of_mem _ hy')

theorem sameEntries_iff {es fs : Entries} :
    sameEntries es fs = true ↔
      ∀ entry ∈ es, ∃ y, Entries.get? fs entry.1 = some y ∧ entry.2.same y = true := by
  induction es with
  | nil => simp [sameEntries]
  | cons entry es ih =>
    obtain ⟨key, x⟩ := entry
    rw [sameEntries, Bool.and_eq_true, ih, List.forall_mem_cons]
    refine and_congr_left fun _ => ?_
    cases Entries.get? fs key with
    | none => simp
    | some y => simp

/-- Objects with equally many keys, those on the left among those on the right, have the same
keys. -/
theorem mem_keys_of_sameEntries {es fs : Entries} (hes : (Entries.keys es).Nodup)
    (hlength : es.length = fs.length) (h : sameEntries es fs = true) {key : String}
    (hkey : key ∈ Entries.keys fs) : key ∈ Entries.keys es := by
  have hsub : Entries.keys es ⊆ Entries.keys fs := by
    intro k hk
    obtain ⟨entry, hentry, rfl⟩ := List.mem_map.mp hk
    obtain ⟨y, hy, -⟩ := sameEntries_iff.mp h entry hentry
    exact List.mem_map.mpr ⟨_, Entries.mem_of_get? hy, rfl⟩
  have hlength' : (Entries.keys fs).length = (Entries.keys es).length := by
    rw [Entries.keys, Entries.keys, List.length_map, List.length_map, hlength]
  exact ((hes.subperm hsub).perm_of_length_le (Nat.le_of_eq hlength')).mem_iff.mpr hkey

/-- Equality of values is symmetric. -/
theorem same_symm {a b : Json} (ha : a.KeysDistinct) (hb : b.KeysDistinct)
    (h : a.same b = true) : b.same a = true := by
  induction a using Json.induction generalizing b with
  | null =>
    cases b with
    | null => rfl
    | _ => cases h
  | bool s =>
    cases b with
    | bool t => rwa [same, BEq.comm, ← same]
    | _ => cases h
  | num m =>
    cases b with
    | num n => rwa [same, Number.same_comm, ← same]
    | _ => cases h
  | str s =>
    cases b with
    | str t => rwa [same, BEq.comm, ← same]
    | _ => cases h
  | arr xs ih =>
    cases b with
    | arr ys =>
      rw [keysDistinct_arr] at ha hb
      rw [same] at h ⊢
      exact sameItems_symm (fun x hx y hy => ih x hx (ha x hx) (hb y hy)) h
    | _ => cases h
  | obj es ih =>
    cases b with
    | obj fs =>
      rw [keysDistinct_obj] at ha hb
      rw [same, Bool.and_eq_true, beq_iff_eq] at h ⊢
      obtain ⟨hlength, hsame⟩ := h
      refine ⟨hlength.symm, sameEntries_iff.mpr fun (key, y) hy => ?_⟩
      have hkey : key ∈ Entries.keys es :=
        mem_keys_of_sameEntries ha.1 hlength hsame (List.mem_map.mpr ⟨_, hy, rfl⟩)
      obtain ⟨⟨_, x⟩, hx, rfl⟩ := List.mem_map.mp hkey
      obtain ⟨y', hy', hxy⟩ := sameEntries_iff.mp hsame _ hx
      -- the keys on the right are distinct too, so this is the entry that was found there
      rw [(Entries.get?_eq_some_iff hb.1).mpr hy] at hy'
      cases hy'
      exact ⟨x, (Entries.get?_eq_some_iff ha.1).mpr hx, ih _ hx (ha.2 _ hx) (hb.2 _ hy) hxy⟩
    | _ => cases h

/-! ## Order of values -/

theorem orderText_swap (s t : String) : orderText t s = (orderText s t).swap := by
  unfold orderText
  by_cases hst : s < t
  · rw [if_pos hst, if_neg (String.lt_asymm hst), if_neg (String.ne_of_lt hst).symm]
    rfl
  · rw [if_neg hst]
    by_cases hts : t < s
    · rw [if_pos hts, if_neg (String.ne_of_lt hts).symm]
      rfl
    · obtain rfl := String.le_antisymm hts hst
      rw [if_neg hts, if_pos rfl]
      rfl

theorem orderText_eq_iff {s t : String} : orderText s t = .eq ↔ s = t := by
  unfold orderText
  by_cases hst : s < t
  · rw [if_pos hst]
    simp [String.ne_of_lt hst]
  · rw [if_neg hst]
    by_cases heq : s = t <;> simp [heq]

/-- How two values come to be in an order. -/
inductive Ordered : Json → Json → Ordering → Prop where
  | texts (s t : String) : Ordered (.str s) (.str t) (orderText s t)
  | booleans (s t : Bool) : Ordered (.bool s) (.bool t) (compare s.toNat t.toNat)
  | numbers {a b : Json} {x y : Binary64} {o : Ordering}
      (hnumber : (a.isNumber || b.isNumber) = true) (hx : a.asDouble? = some x)
      (hy : b.asDouble? = some y) (ho : x.order y = some o) : Ordered a b o

variable {a b : Json} {o : Ordering}

/-- A value that counts as a number is one, or is a text. -/
theorem isNumber_or_str {x : Binary64} (h : a.asDouble? = some x) :
    a.isNumber = true ∨ ∃ s, a = .str s := by
  cases a with
  | num => exact .inl rfl
  | str s => exact .inr ⟨s, rfl⟩
  | _ => cases h

theorem order?_of_isNumber (h : (a.isNumber || b.isNumber) = true) :
    a.order? b =
      match a.asDouble?, b.asDouble? with
      | some x, some y => x.order y
      | _, _ => none := by
  unfold order?
  split
  · cases h
  · cases h
  · rfl

theorem order?_eq_some_iff : a.order? b = some o ↔ Ordered a b o := by
  constructor
  · intro h
    by_cases hnumber : (a.isNumber || b.isNumber) = true
    · rw [order?_of_isNumber hnumber] at h
      split at h
      next x y hx hy => exact .numbers hnumber hx hy h
      next => cases h
    · unfold order? at h
      split at h
      · cases h
        exact .texts _ _
      · cases h
        exact .booleans _ _
      next hstr _ =>
        split at h
        next x y hx hy =>
          -- neither side is a number, so both are texts, and these were read before
          obtain ⟨s, rfl⟩ := (isNumber_or_str hx).resolve_left fun ha =>
            hnumber (by rw [ha, Bool.true_or])
          obtain ⟨t, rfl⟩ := (isNumber_or_str hy).resolve_left fun hb =>
            hnumber (by rw [hb, Bool.or_true])
          exact (hstr s t rfl rfl).elim
        next => cases h
  · intro h
    cases h with
    | texts => rfl
    | booleans => rfl
    | numbers hnumber hx hy ho =>
      rw [order?_of_isNumber hnumber, hx, hy]
      exact ho

/-- The order of two values, seen from the other side. -/
theorem Ordered.swap (h : Ordered a b o) : Ordered b a o.swap := by
  cases h with
  | texts s t =>
    rw [← orderText_swap]
    exact .texts t s
  | booleans s t =>
    rw [Nat.compare_swap]
    exact .booleans t s
  | numbers hnumber hx hy ho =>
    refine .numbers (by rwa [Bool.or_comm]) hy hx ?_
    rw [Binary64.order_swap, ho]
    rfl

/-- Values in an order are equal exactly when neither comes first. -/
theorem Ordered.equals_iff (h : Ordered a b o) : a.equals b = true ↔ o = .eq := by
  cases h with
  | texts s t =>
    rw [orderText_eq_iff]
    simp [equals, isNumber, same]
  | booleans s t =>
    cases s <;> cases t <;> simp [equals, isNumber, same]
  | @numbers _ _ x y _ hnumber hx hy ho =>
    unfold equals
    rw [if_pos hnumber, hx, hy]
    dsimp only
    rw [Binary64.eq_iff_order, ho, Option.some.injEq]

theorem order?_swap (a b : Json) : b.order? a = (a.order? b).map Ordering.swap := by
  cases hab : a.order? b with
  | some o => exact order?_eq_some_iff.mpr (order?_eq_some_iff.mp hab).swap
  | none =>
    cases hba : b.order? a with
    | none => rfl
    | some o =>
      have hswap := order?_eq_some_iff.mpr (order?_eq_some_iff.mp hba).swap
      rw [hab] at hswap
      cases hswap

/-- Equality as conditions see it is symmetric. -/
theorem equals_comm (ha : a.KeysDistinct) (hb : b.KeysDistinct) : a.equals b = b.equals a := by
  unfold equals
  rw [Bool.or_comm]
  split
  · cases a.asDouble? with
    | none => cases b.asDouble? <;> rfl
    | some x =>
      cases b.asDouble? with
      | none => rfl
      | some y => exact Binary64.eq_comm x y
  · exact Bool.eq_iff_iff.mpr ⟨same_symm ha hb, same_symm hb ha⟩

end Json

/-! ## The six comparisons -/

namespace Comparison

variable {a b : Json}

/-- Whether a comparison admits an order of its sides. -/
def admits : Comparison → Ordering → Bool
  | .gt, o => o.isGT
  | .gte, o => o.isGE
  | .lt, o => o.isLT
  | .lte, o => o.isLE
  | .eq, o => o.isEq
  | .neq, o => o.isNe

/-- Where two values have an order, a comparison holds if it admits the order. -/
theorem holds_of_order {o : Ordering} (h : a.order? b = some o) (c : Comparison) :
    c.holds a b = c.admits o := by
  have heq : a.equals b = o.isEq := by
    rw [Bool.eq_iff_iff, (Json.order?_eq_some_iff.mp h).equals_iff, Ordering.isEq_iff_eq_eq]
  unfold holds admits
  cases c with
  | eq => exact heq
  | neq =>
    dsimp only
    rw [heq]
    cases o <;> rfl
  | _ =>
    dsimp only
    rw [h]
    cases o <;> rfl

theorem existsUnique_admits (o : Ordering) : ∃! c, c ∈ [gt, eq, lt] ∧ c.admits o = true := by
  have hunique : ∀ c ∈ [gt, eq, lt], ∀ c' ∈ [gt, eq, lt],
      c.admits o = true → c'.admits o = true → c' = c := by
    cases o <;> decide
  have hexists : ∃ c ∈ [gt, eq, lt], c.admits o = true := by
    cases o <;> decide
  obtain ⟨c, hc, h⟩ := hexists
  exact ⟨c, ⟨hc, h⟩, fun c' ⟨hc', h'⟩ => hunique c hc c' hc' h h'⟩

/-- The comparisons that ask for an order. -/
def orderings : List Comparison := [.gt, .gte, .lt, .lte]

theorem holds_of_unordered (h : a.order? b = none) {c : Comparison} (hc : c ∈ orderings) :
    c.holds a b = false := by
  unfold holds
  cases c with
  | eq => exact absurd hc (by decide)
  | neq => exact absurd hc (by decide)
  | _ =>
    dsimp only
    rw [h]
    rfl

/-- **The comparisons are coherent.**  `neq` is the negation of `eq`, `eq` is symmetric, and `gt`
and `gte` are `lt` and `lte` with the sides swapped.  Of the four comparisons that ask for an
order none holds, or exactly one of `gt`, `eq` and `lt` holds, `gte` is `gt` or `eq`, and `lte` is
`lt` or `eq`.  Of objects in the values only the keys are taken to be distinct, as the reader of
texts makes them (`Entries.insert`). -/
theorem holds_coherent (ha : a.KeysDistinct) (hb : b.KeysDistinct) :
    neq.holds a b = !eq.holds a b ∧
      eq.holds a b = eq.holds b a ∧
      gt.holds a b = lt.holds b a ∧
      gte.holds a b = lte.holds b a ∧
      ((∀ c ∈ orderings, c.holds a b = false) ∨
        (∃! c, c ∈ [gt, eq, lt] ∧ c.holds a b = true) ∧
          gte.holds a b = (gt.holds a b || eq.holds a b) ∧
          lte.holds a b = (lt.holds a b || eq.holds a b)) := by
  have hswap := Json.order?_swap a b
  refine ⟨rfl, Json.equals_comm ha hb, ?_, ?_, ?_⟩
  · unfold holds
    dsimp only
    rw [hswap]
    rcases a.order? b with _ | _ | _ | _ <;> rfl
  · unfold holds
    dsimp only
    rw [hswap]
    rcases a.order? b with _ | _ | _ | _ <;> rfl
  · cases h : a.order? b with
    | none => exact .inl fun c hc => holds_of_unordered h hc
    | some o =>
      right
      simp only [holds_of_order h]
      refine ⟨existsUnique_admits o, ?_, ?_⟩ <;> cases o <;> rfl

/-- A padded text that reads as a number is compared as that number. -/
theorem holds_coherent_paddedNumber :
    (Json.str " 10").KeysDistinct ∧ (Json.int 9).KeysDistinct ∧
      gt.holds (.str " 10") (.int 9) = true ∧ lt.holds (.int 9) (.str " 10") = true ∧
      ∃! c, c ∈ [gt, eq, lt] ∧ c.holds (.str " 10") (.int 9) = true := by
  have htext : (Json.str " 10").KeysDistinct := Json.keysDistinct_str _
  have hnumber : (Json.int 9).KeysDistinct := Json.keysDistinct_num _
  have hgt : gt.holds (.str " 10") (.int 9) = true := by decide +kernel
  obtain ⟨-, -, hswap, -, hcases⟩ := holds_coherent htext hnumber
  refine ⟨htext, hnumber, hgt, hswap ▸ hgt, ?_⟩
  rcases hcases with hnone | ⟨hone, -⟩
  · have hnot := hnone gt (by decide)
    rw [hgt] at hnot
    cases hnot
  · exact hone

end Comparison

end QueryScript
