/-!
# Doubles as exact numbers

A finite double is a sign and a whole number of units, where one unit is `2^-1074`, the
smallest positive double.  Comparing two doubles is comparing integers, adding two is adding
integers and rounding the sum; no operation here is approximate except `roundUnits`, which
rounds to nearest with ties to the even neighbour.

`place` puts every double but not-a-number on one line of integers.  `eq` and `order` are
read off it, so the laws of the order of integers carry over.
-/

namespace QueryScript

/-- A double: not a number, an infinity, or a signed whole number of units of `2^-1074`. -/
inductive Binary64 where
  | nan
  | infinite (negative : Bool)
  | finite (negative : Bool) (units : Nat)
deriving DecidableEq, Repr

namespace Binary64

/-- The number of units in one. -/
def one : Nat := Nat.pow 2 1074

/-- The first count of units too large for a finite double. -/
def overflow : Nat := Nat.pow 2 2098

/-- The distance between neighbouring doubles at a size of `units`: doubles have 53
significant bits. -/
def gap (units : Nat) : Nat :=
  Nat.pow 2 (units.log2 - 52)

/-- The quotient rounded to the nearest natural number, a half to the even one. -/
def roundQuotient (num den : Nat) : Nat :=
  let q := num / den
  let r := num % den
  if 2 * r < den then q
  else if den < 2 * r then q + 1
  else q + q % 2

/-- The count of units of the double nearest to `num / den` units. -/
def roundUnits (num den : Nat) : Nat :=
  let g := gap (num / den)
  roundQuotient num (den * g) * g

/-- The double with this sign nearest to `num / den` units. -/
def ofUnits (negative : Bool) (num den : Nat) : Binary64 :=
  let units := roundUnits num den
  if overflow ≤ units then .infinite negative else .finite negative units

/-- The double nearest to an integer. -/
def ofInt (i : Int) : Binary64 :=
  ofUnits (i < 0) (i.natAbs * one) 1

/-- Where a double lies on the line of integers, counted in units; the infinities lie beyond
every finite double, and not-a-number lies nowhere. -/
def place : Binary64 → Option Int
  | .nan => none
  | .infinite negative => some (if negative then -overflow else overflow)
  | .finite negative units => some (if negative then -units else units)

/-- Numeric equality: the two zeros are equal, and not-a-number equals nothing. -/
def eq (a b : Binary64) : Bool :=
  match a.place, b.place with
  | some x, some y => x == y
  | _, _ => false

/-- Numeric order, absent when one side is not a number. -/
def order (a b : Binary64) : Option Ordering :=
  match a.place, b.place with
  | some x, some y => some (compare x y)
  | _, _ => none

/-- The sum, rounded to nearest.  A sum of zero is negative only if both sides are. -/
def add : Binary64 → Binary64 → Binary64
  | .finite s m, .finite t n =>
    let sum : Int := (if s then -(m : Int) else m) + (if t then -(n : Int) else n)
    if sum = 0 then .finite (s && t) 0 else ofUnits (sum < 0) sum.natAbs 1
  | .infinite s, .infinite t => if s = t then .infinite s else .nan
  | .infinite s, .finite _ _ => .infinite s
  | .finite _ _, .infinite t => .infinite t
  | _, _ => .nan

/-- Negative zero, to which adding changes nothing. -/
def negativeZero : Binary64 := .finite true 0

/-- Whether the double is an ordinary number. -/
def isFinite : Binary64 → Bool
  | .finite _ _ => true
  | _ => false

/-- The double with the other sign. -/
def neg : Binary64 → Binary64
  | .nan => .nan
  | .infinite s => .infinite !s
  | .finite s m => .finite (!s) m

end Binary64

end QueryScript
