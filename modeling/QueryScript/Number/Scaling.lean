import QueryScript.Number.Shortest
import QueryScript.Number.Word

/-!
# Doubles by scaling

A decimal becomes a double in a few rounded steps: its digits as a double, times or divided by
a power of ten that is a double too.  As long as the digits and the power of ten are exact
doubles, which they are up to `10^22`, one step rounds and the result is the nearest double;
beyond that it may be a neighbour.
-/

namespace QueryScript.Scaling

/-- The largest power of ten below infinity. -/
def maxPower : Nat := 308

/-- A power of ten as a double, in units. -/
def power (k : Nat) : Nat :=
  Binary64.roundUnits (Nat.pow 10 k * Binary64.one) 1

/-- Units times a power of ten. -/
def up (units k : Nat) : Nat :=
  Binary64.roundUnits (units * power k) Binary64.one

/-- Units divided by a power of ten. -/
def down (units k : Nat) : Nat :=
  Binary64.roundUnits (units * Binary64.one) (power k)

/-- Units divided by `10^k`, by the largest power first while `k` is larger.  Three such steps
bring every word to zero. -/
def downBy : Nat → Nat → Nat → Nat
  | 0, _, _ => 0
  | steps + 1, units, k =>
    if k ≤ maxPower then down units k else downBy steps (down units maxPower) (k - maxPower)

/-- The digits that a word holds; each digit that is dropped raises the exponent. -/
def fitWord : Nat → Decimal → Decimal
  | 0, d => d
  | fuel + 1, d =>
    if d.digits < Word.limit then d else fitWord fuel ⟨d.digits / 10, d.exponent + 1⟩

/-- The double that a decimal is read as; none if it is too large. -/
def double? (negative : Bool) (d : Decimal) : Option Binary64 :=
  let d := fitWord d.digits.log2 d
  let units := Binary64.roundUnits (d.digits * Binary64.one) 1
  if units = 0 then some (.finite negative 0)
  else if d.exponent < 0 then some (.finite negative (downBy 4 units d.exponent.natAbs))
  else if maxPower < d.exponent.natAbs then none
  else
    let scaled := up units d.exponent.natAbs
    if Binary64.overflow ≤ scaled then none else some (.finite negative scaled)

end QueryScript.Scaling
