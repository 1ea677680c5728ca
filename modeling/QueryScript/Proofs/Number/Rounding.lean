import QueryScript.Number.Binary64
import QueryScript.Number.Word

/-!
# Rounding to the nearest double

What a finite double can be worth is told without the rounding: a count of units with 53
significant bits (`Binary64.IsUnits`).  Of these, one is nearest to a given count, and a tie goes
to the neighbour that is an even multiple of the distance between the two (`Binary64.Nearest`).
There is only one such (`Nearest.unique`), and rounding never turns an order around
(`Nearest.mono`).

`roundUnits` finds it (`nearest_roundUnits`).  The counts of units near a number lie on a grid of
`gap` units; what has 53 significant bits and lies on no grid line is below the whole stretch of
grid that the number is on (`gap_dvd_of_isUnits`), so only the two grid lines beside the number
come into question.

So the double that an integer of 64 bits becomes lies where the nearest count of units does
(`exists_place_ofInt`).
-/

namespace QueryScript

/-- Integers that 64 bits hold, with a sign or without. -/
def Word.Holds (i : Int) : Prop :=
  -(signedLimit : Int) ≤ i ∧ i < limit

instance (i : Int) : Decidable (Word.Holds i) :=
  inferInstanceAs (Decidable (_ ∧ _))

namespace Binary64

/-- A count of units with 53 significant bits, as those of finite doubles are. -/
def IsUnits (x : Int) : Prop :=
  ∃ m e : Nat, m ≤ Nat.pow 2 53 ∧ x.natAbs = m * Nat.pow 2 e

/-- `x` is what a double near to `t` units is worth: nothing with 53 significant bits is nearer,
and where two are equally near it is the one that is an even multiple of their distance. -/
structure Nearest (x t : Int) : Prop where
  isUnits : IsUnits x
  closest : ∀ y, IsUnits y → (x - t).natAbs ≤ (y - t).natAbs
  even : ∀ y, IsUnits y → y ≠ x → (y - t).natAbs = (x - t).natAbs → 2 * (y - x) ∣ x

/-! ## Laws of rounding -/

theorem isUnits_neg {x : Int} (h : IsUnits x) : IsUnits (-x) := by
  obtain ⟨m, e, hm, hx⟩ := h
  exact ⟨m, e, hm, by rw [Int.natAbs_neg]; exact hx⟩

namespace Nearest

variable {x y s t : Int}

/-- A number that is a double is the double nearest to it. -/
theorem self (ht : IsUnits t) : Nearest t t where
  isUnits := ht
  closest y _ := by omega
  even y _ hne hy := by omega

/-- Only one count of units is nearest. -/
theorem unique (hx : Nearest x t) (hy : Nearest y t) : x = y := by
  have hxy := hx.closest y hy.isUnits
  have hyx := hy.closest x hx.isUnits
  have htie : (y - t).natAbs = (x - t).natAbs := Nat.le_antisymm hyx hxy
  by_cases hne : y = x
  · exact hne.symm
  · -- a tie between two that are both even multiples of their distance
    have hevenx := hx.even y hy.isUnits hne htie
    have heveny := hy.even x hx.isUnits (Ne.symm hne) htie.symm
    have hback : 2 * (y - x) ∣ y := by
      rw [show 2 * (y - x) = -(2 * (x - y)) by omega]
      exact Int.neg_dvd.mpr heveny
    have hdiff : 2 * (y - x) ∣ y - x := Int.dvd_sub hback hevenx
    have hsize := Int.natAbs_dvd_natAbs.mpr hdiff
    have hle := Nat.le_of_dvd (by omega) hsize
    omega

/-- What has 53 significant bits is not rounded. -/
theorem eq_of_isUnits (h : Nearest x t) (ht : IsUnits t) : x = t :=
  h.unique (.self ht)

/-- The double nearest to the opposite number is the opposite double. -/
theorem neg (h : Nearest x t) : Nearest (-x) (-t) where
  isUnits := isUnits_neg h.isUnits
  closest y hy := by
    have hclosest := h.closest (-y) (isUnits_neg hy)
    omega
  even y hy hne htie := by
    have heven := h.even (-y) (isUnits_neg hy) (by omega) (by omega)
    rw [show 2 * (y - -x) = -(2 * (-y - x)) by omega]
    exact Int.dvd_neg.mpr (Int.neg_dvd.mpr heven)

/-- Rounding keeps the order. -/
theorem mono (hx : Nearest x s) (hy : Nearest y t) (h : s ≤ t) : x ≤ y := by
  have hxy := hx.closest y hy.isUnits
  have hyx := hy.closest x hx.isUnits
  by_cases hlt : y < x
  · -- both would have to lie in the middle between the two
    obtain rfl : s = t := by omega
    have heq := hx.unique hy
    omega
  · omega

end Nearest

/-! ## The grid around a number -/

/-- The quotient is rounded to the nearest, a half to the even one. -/
theorem roundQuotient_spec (num : Nat) {den : Nat} (hden : 0 < den) :
    2 * ((roundQuotient num den * den : Nat) - num : Int).natAbs ≤ den ∧
      (2 * ((roundQuotient num den * den : Nat) - num : Int).natAbs = den →
        roundQuotient num den % 2 = 0) := by
  have hsplit := Nat.div_add_mod num den
  have hrest := Nat.mod_lt num hden
  have hcomm := Nat.mul_comm den (num / den)
  have hnext : (num / den + 1) * den = num / den * den + den := Nat.succ_mul _ _
  unfold roundQuotient
  dsimp only
  split
  next => omega
  next =>
    split
    next => omega
    next =>
      have hparity := Nat.mod_two_eq_zero_or_one (num / den)
      rcases hparity with hp | hp
      · rw [hp, Nat.add_zero]
        omega
      · rw [hp]
        omega

theorem gap_pos (n : Nat) : 0 < gap n :=
  Nat.pow_pos (by decide)

/-- A number has 53 significant bits above its grid. -/
theorem lt_mul_gap (n : Nat) : n < Nat.pow 2 53 * gap n := by
  have hlt : n < 2 ^ (n.log2 + 1) := Nat.lt_log2_self
  have hle : 2 ^ (n.log2 + 1) ≤ 2 ^ (53 + (n.log2 - 52)) :=
    Nat.pow_le_pow_right (by decide) (by omega)
  have hsplit : Nat.pow 2 53 * gap n = 2 ^ (53 + (n.log2 - 52)) := (Nat.pow_add 2 53 _).symm
  omega

/-- Beyond the whole numbers, the 53rd bit of a number is set. -/
theorem mul_gap_le {n : Nat} (h : 1 < gap n) : Nat.pow 2 52 * gap n ≤ n := by
  have hlog : 52 < n.log2 := by
    rcases Nat.lt_or_ge 52 n.log2 with hlt | hge
    · exact hlt
    · rw [gap, show n.log2 - 52 = 0 by omega] at h
      exact absurd h (by decide)
  have hn : n ≠ 0 := by
    intro hzero
    rw [hzero] at hlog
    exact absurd hlog (by decide)
  have hsplit : Nat.pow 2 52 * gap n = 2 ^ (52 + (n.log2 - 52)) := (Nat.pow_add 2 52 _).symm
  rw [hsplit, show 52 + (n.log2 - 52) = n.log2 by omega]
  exact Nat.log2_self_le hn

/-- What has 53 significant bits lies on the grid, or below all of the stretch that the number
is on. -/
theorem gap_dvd_of_isUnits (n : Nat) {y : Int} (hy : IsUnits y) :
    (gap n : Int) ∣ y ∨ 1 < gap n ∧ y.natAbs < Nat.pow 2 52 * gap n := by
  obtain ⟨m, e, hm, hsize⟩ := hy
  rw [← Int.natAbs_dvd_natAbs, Int.natAbs_natCast, hsize]
  by_cases he : n.log2 - 52 ≤ e
  · exact .inl (Nat.dvd_mul_left_of_dvd (Nat.pow_dvd_pow 2 he) m)
  · have hnext : Nat.pow 2 (e + 1) ≤ gap n := Nat.pow_le_pow_right (by decide) (by omega)
    have hdouble : Nat.pow 2 (e + 1) = Nat.pow 2 e * 2 := rfl
    have hpos : 0 < Nat.pow 2 e := Nat.pow_pos (by decide)
    have hle : m * Nat.pow 2 e ≤ Nat.pow 2 53 * Nat.pow 2 e := Nat.mul_le_mul_right _ hm
    have hlimit : Nat.pow 2 53 * Nat.pow 2 e = Nat.pow 2 52 * Nat.pow 2 (e + 1) := by
      rw [hdouble, show Nat.pow 2 53 = Nat.pow 2 52 * 2 from rfl]
      ac_rfl
    have hbelow : Nat.pow 2 52 * Nat.pow 2 (e + 1) ≤ Nat.pow 2 52 * gap n :=
      Nat.mul_le_mul_left _ hnext
    by_cases heq : m * Nat.pow 2 e = Nat.pow 2 52 * gap n
    · exact .inl (heq ▸ Nat.dvd_mul_left _ _)
    · exact .inr ⟨by omega, by omega⟩

/-! ## Rounding finds the nearest -/

theorem isUnits_roundUnits (n : Nat) : IsUnits (roundUnits n 1 : Nat) := by
  refine ⟨roundQuotient n (gap n), n.log2 - 52, ?_, ?_⟩
  · have hlt : n / gap n < Nat.pow 2 53 :=
      (Nat.div_lt_iff_lt_mul (gap_pos n)).mpr (lt_mul_gap n)
    unfold roundQuotient
    dsimp only
    split
    next => omega
    next =>
      split <;> omega
  · simp only [Int.natAbs_natCast, roundUnits, Nat.div_one, Nat.one_mul]
    rfl

/-- Two grid lines are a gap apart. -/
theorem gap_le_of_dvd {g : Nat} {x y : Int} (hx : (g : Int) ∣ x) (hy : (g : Int) ∣ y)
    (hne : y ≠ x) : g ≤ (y - x).natAbs := by
  have hdvd := Int.natAbs_dvd_natAbs.mpr (Int.dvd_sub hy hx)
  rw [Int.natAbs_natCast] at hdvd
  exact Nat.le_of_dvd (by omega) hdvd

/-- **Rounding a count of units finds the nearest that a double is worth.** -/
theorem nearest_roundUnits (n : Nat) : Nearest (roundUnits n 1 : Nat) n := by
  obtain ⟨hhalf, heven⟩ := roundQuotient_spec n (gap_pos n)
  have hunits : roundUnits n 1 = roundQuotient n (gap n) * gap n := by
    simp only [roundUnits, Nat.div_one, Nat.one_mul]
  rw [← hunits] at hhalf heven
  have hdvd : (gap n : Int) ∣ (roundUnits n 1 : Nat) := by
    rw [hunits]
    exact Int.natCast_dvd_natCast.mpr (Nat.dvd_mul_left _ _)
  -- the other grid lines are at least as far from the number
  have hgrid : ∀ y : Int, (gap n : Int) ∣ y → y ≠ (roundUnits n 1 : Nat) →
      gap n ≤ (y - (roundUnits n 1 : Nat)).natAbs := fun y hy hne => gap_le_of_dvd hdvd hy hne
  -- and what lies on none is farther, since a grid line lies between it and the number
  have hoff : ∀ y : Int, IsUnits y → ¬ (gap n : Int) ∣ y →
      ((roundUnits n 1 : Nat) - n : Int).natAbs < (y - n).natAbs := by
    intro y hy hnot
    obtain ⟨hgap, hbelow⟩ := (gap_dvd_of_isUnits n hy).resolve_left hnot
    have hstretch := mul_gap_le hgap
    have hline : (gap n : Int) ∣ (Nat.pow 2 52 * gap n : Nat) :=
      Int.natCast_dvd_natCast.mpr (Nat.dvd_mul_left _ _)
    by_cases heq : ((Nat.pow 2 52 * gap n : Nat) : Int) = (roundUnits n 1 : Nat)
    · omega
    · have hfar := hgrid _ hline heq
      omega
  refine ⟨isUnits_roundUnits n, fun y hy => ?_, fun y hy hne htie => ?_⟩
  · by_cases hline : (gap n : Int) ∣ y
    · by_cases heq : y = (roundUnits n 1 : Nat)
      · exact Nat.le_of_eq (by rw [heq])
      · have hfar := hgrid y hline heq
        omega
    · exact Nat.le_of_lt (hoff y hy hline)
  · by_cases hline : (gap n : Int) ∣ y
    · have hfar := hgrid y hline hne
      have hparity := heven (by omega)
      have hfactor : 2 * gap n ∣ roundUnits n 1 := by
        rw [hunits]
        exact Nat.mul_dvd_mul_right (Nat.dvd_of_mod_eq_zero hparity) _
      have hdistance : (2 * (y - (roundUnits n 1 : Nat))).natAbs = 2 * gap n := by omega
      rw [← Int.natAbs_dvd_natAbs, hdistance, Int.natAbs_natCast]
      exact hfactor
    · have hfar := hoff y hy hline
      omega

/-! ## Integers as doubles -/

theorem one_pos : 0 < one := by
  unfold one
  generalize 1074 = e
  exact Nat.pow_pos (by decide)

theorem isUnits_mul_pow {i : Int} (h : i.natAbs ≤ Nat.pow 2 53) (e : Nat) :
    IsUnits (i * (Nat.pow 2 e : Nat)) :=
  ⟨i.natAbs, e, h, by rw [Int.natAbs_mul, Int.natAbs_natCast]⟩

/-- Integers of up to 53 bits are doubles. -/
theorem isUnits_mul_one {i : Int} (h : i.natAbs ≤ Nat.pow 2 53) : IsUnits (i * one) := by
  unfold one
  generalize 1074 = e
  exact isUnits_mul_pow h e

/-- Rounding at most doubles a count of units, since nothing is a double too. -/
theorem roundUnits_le (n : Nat) : roundUnits n 1 ≤ 2 * n := by
  have hclosest := (nearest_roundUnits n).closest 0 ⟨0, 0, Nat.zero_le _, rfl⟩
  omega

/-- An integer of 64 bits does not become an infinity. -/
theorem roundUnits_lt_overflow {n : Nat} (h : n ≤ Word.limit) : roundUnits (n * one) 1 < overflow := by
  have hroom : 2 * (Word.limit * one) < overflow := by decide +kernel
  have hscaled : 2 * (n * one) ≤ 2 * (Word.limit * one) :=
    Nat.mul_le_mul_left 2 (Nat.mul_le_mul_right one h)
  exact Nat.lt_of_le_of_lt (Nat.le_trans (roundUnits_le _) hscaled) hroom

theorem ofUnits_of_lt {negative : Bool} {num den : Nat} (h : roundUnits num den < overflow) :
    ofUnits negative num den = .finite negative (roundUnits num den) := by
  unfold ofUnits
  dsimp only
  rw [if_neg (Nat.not_le.mpr h)]

/-- A rounded count of units under a sign is nearest to the count under that sign. -/
theorem nearest_place (n : Nat) (negative : Bool) :
    ∃ x, (finite negative (roundUnits n 1)).place = some x ∧
      Nearest x (if negative then -n else n) := by
  refine ⟨_, rfl, ?_⟩
  cases negative with
  | true => exact (nearest_roundUnits n).neg
  | false => exact nearest_roundUnits n

/-- **An integer of 64 bits becomes the double that is nearest to it.** -/
theorem exists_place_ofInt {i : Int} (hi : Word.Holds i) :
    ∃ x, (ofInt i).place = some x ∧ Nearest x (i * one) := by
  have hsize : i.natAbs ≤ Word.limit := by
    obtain ⟨hlow, hhigh⟩ := hi
    simp only [Word.signedLimit, Word.limit] at hlow hhigh ⊢
    omega
  have hsigned : (if decide (i < 0) then -((i.natAbs * one : Nat) : Int)
      else (i.natAbs * one : Nat)) = i * one := by
    rw [Int.natCast_mul]
    by_cases hneg : i < 0
    · rw [if_pos (decide_eq_true hneg), ← Int.neg_mul, show -(i.natAbs : Int) = i by omega]
    · rw [if_neg (by simpa using hneg), show (i.natAbs : Int) = i by omega]
  rw [ofInt, ofUnits_of_lt (roundUnits_lt_overflow hsize), ← hsigned]
  exact nearest_place _ _

end Binary64

end QueryScript
