import QueryScript.Number.Binary64

/-!
# The fewest digits that read back

A finite double stands for every real number that rounds to it, an interval that reaches half
way to each neighbour and includes its ends when the double's last bit is zero.  `shortest`
finds the decimal in that interval with the fewest digits, and of those the one nearest to
the double, an exact tie going to the even digit.  Everything is compared by
cross-multiplying natural numbers.
-/

namespace QueryScript

/-- A decimal `digits · 10^exponent`. -/
structure Decimal where
  digits : Nat
  exponent : Int
deriving DecidableEq, Repr

namespace Binary64

/-- `10^k` as a fraction: its numerator. -/
def tenUp (k : Int) : Nat := Nat.pow 10 k.toNat

/-- `10^k` as a fraction: its denominator. -/
def tenDown (k : Int) : Nat := Nat.pow 10 (-k).toNat

/-- Whether the decimal rounds to the double of this many units.  Both are taken four times,
so that half a gap, and a quarter below a power of two, are whole. -/
def readsBack (units : Nat) (d : Decimal) : Bool :=
  let g := gap units
  let low := 4 * units - (if units = Nat.pow 2 52 * g ∧ 1 < g then g else 2 * g)
  let high := 4 * units + 2 * g
  let closed := units / g % 2 == 0
  let value := 4 * d.digits * tenUp d.exponent * one
  let scale := tenDown d.exponent
  if closed then low * scale ≤ value && value ≤ high * scale
  else low * scale < value && value < high * scale

/-- The largest power of ten not above the double of this many units. -/
def leadingExponent (units : Nat) : Int :=
  let estimate := (((units.log2 : Int) - 1074) * 30103).fdiv 100000
  let below (k : Int) : Bool := tenUp k * one ≤ units * tenDown k
  if below (estimate + 1) then estimate + 1
  else if below estimate then estimate
  else estimate - 1

/-- The decimal with this exponent that reads back, if there is one: one of the double's two
neighbours on the grid, the nearer if both do. -/
def onGrid? (units : Nat) (k : Int) : Option Decimal :=
  let num := units * tenDown k
  let den := one * tenUp k
  let d := num / den
  match readsBack units ⟨d, k⟩, readsBack units ⟨d + 1, k⟩ with
  | false, false => none
  | true, false => some ⟨d, k⟩
  | false, true => some ⟨d + 1, k⟩
  | true, true =>
    let doubled := 2 * num
    let middle := (2 * d + 1) * den
    if doubled < middle then some ⟨d, k⟩
    else if middle < doubled then some ⟨d + 1, k⟩
    else some ⟨d + d % 2, k⟩

/-- The decimal without trailing zeros among its digits; `fuel` bounds their number. -/
def stripZeros : Nat → Decimal → Decimal
  | 0, d => d
  | fuel + 1, d =>
    if d.digits ≠ 0 ∧ d.digits % 10 = 0 then stripZeros fuel ⟨d.digits / 10, d.exponent + 1⟩ else d

/-- The shortest decimal for a positive count of units.  Seventeen digits always suffice. -/
def shortest (units : Nat) : Decimal :=
  let lead := leadingExponent units
  match (List.range 17).findSome? fun (n : Nat) => onGrid? units (lead - n) with
  | some d => stripZeros 20 d
  | none => ⟨units, -1074⟩

end Binary64

end QueryScript
