import QueryScript.Proofs.Condition.Comparison
import QueryScript.Proofs.Number.Rounding

/-!
# Comparing integers

Numbers are compared as doubles, integers too.  An integer of 64 bits becomes the nearest double
(`Binary64.exists_place_ofInt`), and rounding keeps the order, so two integers are compared as
they should be or come out equal (`Binary64.compare_nearest`).  They come out equal exactly if one
double is nearest to both (`Comparison.SharesDouble`).

So a comparison of two different integers that share their double answers what it answers for
equal ones, and every other comparison of integers is exact (`Comparison.holds_int_iff`).
Integers of up to 53 bits are doubles themselves and share none.
-/

namespace QueryScript

namespace Binary64

variable {x y s t : Int}

/-- Rounding keeps the order of two numbers or makes them equal. -/
theorem compare_nearest (hx : Nearest x s) (hy : Nearest y t) :
    compare x y = compare s t ∨ x = y := by
  by_cases heq : x = y
  · exact .inr heq
  · left
    rcases Int.lt_trichotomy s t with hlt | rfl | hgt
    · have hle := hx.mono hy (Int.le_of_lt hlt)
      rw [Int.compare_eq_lt.mpr hlt, Int.compare_eq_lt]
      omega
    · exact absurd (hx.unique hy) heq
    · have hle := hy.mono hx (Int.le_of_lt hgt)
      rw [Int.compare_eq_gt.mpr hgt, Int.compare_eq_gt]
      omega

theorem order_of_place {u v : Binary64} (hu : u.place = some x) (hv : v.place = some y) :
    u.order v = some (compare x y) := by
  unfold order
  rw [hu, hv]

/-- Integers compare as their counts of units do. -/
theorem compare_mul_one (a b : Int) : compare (a * one) (b * one) = compare a b := by
  have hpos : (0 : Int) < one := Int.natCast_pos.mpr one_pos
  rcases Int.lt_trichotomy a b with hlt | rfl | hgt
  · rw [Int.compare_eq_lt.mpr hlt, Int.compare_eq_lt]
    exact Int.mul_lt_mul_of_pos_right hlt hpos
  · rw [Int.compare_eq_eq.mpr rfl, Int.compare_eq_eq.mpr rfl]
  · rw [Int.compare_eq_gt.mpr hgt, Int.compare_eq_gt]
    exact Int.mul_lt_mul_of_pos_right hgt hpos

end Binary64

theorem Json.order?_int (a b : Int) :
    (Json.int a).order? (.int b) = (Binary64.ofInt a).order (.ofInt b) :=
  rfl

namespace Comparison

open Binary64 (Nearest one)

variable {a b : Int}

/-- One double is nearest to both integers. -/
def SharesDouble (a b : Int) : Prop :=
  ∃ x, Nearest x (a * one) ∧ Nearest x (b * one)

/-- Integers of up to 53 bits share a double with no other such integer. -/
theorem SharesDouble.eq (h : SharesDouble a b) (ha : a.natAbs ≤ Nat.pow 2 53)
    (hb : b.natAbs ≤ Nat.pow 2 53) : a = b := by
  obtain ⟨x, hxa, hxb⟩ := h
  have heqa : x = a * one := hxa.eq_of_isUnits (Binary64.isUnits_mul_one ha)
  have heqb : x = b * one := hxb.eq_of_isUnits (Binary64.isUnits_mul_one hb)
  rw [← Int.compare_eq_eq, ← Binary64.compare_mul_one, Int.compare_eq_eq, ← heqa, heqb]

/-- Integers are compared as what they share, or as themselves. -/
theorem holds_int (ha : Word.Holds a) (hb : Word.Holds b) (c : Comparison) :
    SharesDouble a b ∧ c.holds (.int a) (.int b) = c.admits .eq ∨
      ¬ SharesDouble a b ∧ c.holds (.int a) (.int b) = c.admits (compare a b) := by
  obtain ⟨x, hplacea, hxa⟩ := Binary64.exists_place_ofInt ha
  obtain ⟨y, hplaceb, hyb⟩ := Binary64.exists_place_ofInt hb
  have horder : (Json.int a).order? (.int b) = some (compare x y) := by
    rw [Json.order?_int, Binary64.order_of_place hplacea hplaceb]
  rw [holds_of_order horder]
  by_cases hxy : x = y
  · left
    refine ⟨⟨x, hxa, hxy ▸ hyb⟩, ?_⟩
    rw [Int.compare_eq_eq.mpr hxy]
  · right
    refine ⟨fun ⟨z, hza, hzb⟩ => hxy ?_, ?_⟩
    · rw [hxa.unique hza, hyb.unique hzb]
    · rw [(Binary64.compare_nearest hxa hyb).resolve_right hxy, Binary64.compare_mul_one]

/-- **A comparison of integers of 64 bits is exact but for different integers that share their
double.**  These come out equal, so it answers what it answers for equal ones.  No two different
integers of up to 53 bits share their double. -/
theorem holds_int_iff (ha : Word.Holds a) (hb : Word.Holds b) :
    (∀ c : Comparison, c.holds (.int a) (.int b) = c.admits (compare a b) ↔
      (SharesDouble a b → a = b ∨ c.admits (compare a b) = c.admits .eq)) ∧
    (eq.holds (.int a) (.int b) = true ↔ SharesDouble a b) ∧
    (a.natAbs ≤ Nat.pow 2 53 → b.natAbs ≤ Nat.pow 2 53 →
      ∀ c : Comparison, c.holds (.int a) (.int b) = c.admits (compare a b)) := by
  have hexact : ∀ c : Comparison, c.holds (.int a) (.int b) = c.admits (compare a b) ↔
      (SharesDouble a b → a = b ∨ c.admits (compare a b) = c.admits .eq) := by
    intro c
    rcases holds_int ha hb c with ⟨hshares, hholds⟩ | ⟨hapart, hholds⟩
    · rw [hholds]
      constructor
      · exact fun h _ => .inr h.symm
      · intro h
        rcases h hshares with rfl | hsame
        · rw [Int.compare_eq_eq.mpr rfl]
        · exact hsame.symm
    · exact ⟨fun _ hshares => absurd hshares hapart, fun _ => hholds⟩
  refine ⟨hexact, ?_, fun hsmalla hsmallb c => ?_⟩
  · rcases holds_int ha hb eq with ⟨hshares, hholds⟩ | ⟨hapart, hholds⟩
    · rw [hholds]
      exact ⟨fun _ => hshares, fun _ => rfl⟩
    · rw [hholds]
      constructor
      · intro hequal
        -- equal integers share the double that is nearest to them
        have heq : a = b := Int.compare_eq_eq.mp (Ordering.isEq_iff_eq_eq.mp hequal)
        obtain ⟨x, -, hx⟩ := Binary64.exists_place_ofInt ha
        exact absurd ⟨x, hx, heq ▸ hx⟩ hapart
      · exact fun hshares => absurd hshares hapart
  · exact (hexact c).mpr fun hshares => .inl (hshares.eq hsmalla hsmallb)

/-- The greatest integer of signed 64 bits shares its double with the next one: that it is at most
as great comes out as it should, that it is less does not. -/
theorem holds_int_iff_signedLimit :
    Word.Holds 9223372036854775807 ∧ Word.Holds 9223372036854775808 ∧
      SharesDouble 9223372036854775807 9223372036854775808 ∧
      lte.holds (.int 9223372036854775807) (.int 9223372036854775808) = true ∧
      lt.holds (.int 9223372036854775807) (.int 9223372036854775808) = false := by
  have ha : Word.Holds 9223372036854775807 := by decide
  have hb : Word.Holds 9223372036854775808 := by decide
  obtain ⟨hexact, hequal, -⟩ := holds_int_iff ha hb
  have hshares := hequal.mp (by decide +kernel)
  have hlte := (hexact lte).mpr fun _ => .inr (by decide)
  have hlt : ¬ lt.holds (.int 9223372036854775807) (.int 9223372036854775808) = true := by
    intro h
    rcases (hexact lt).mp h hshares with heq | hsame
    · exact absurd heq (by decide)
    · exact absurd hsame (by decide)
  exact ⟨ha, hb, hshares, hlte, Bool.eq_false_iff.mpr hlt⟩

/-- Comparisons of integers of 64 bits are not all exact: the first integer that is no double
comes out equal to the one before it. -/
theorem not_holds_int :
    ¬ ∀ a b : Int, Word.Holds a → Word.Holds b →
      ∀ c : Comparison, c.holds (.int a) (.int b) = c.admits (compare a b) := by
  intro h
  have heq := h 9007199254740992 9007199254740993 (by decide) (by decide) eq
  exact absurd heq (by decide +kernel)

end Comparison

end QueryScript
