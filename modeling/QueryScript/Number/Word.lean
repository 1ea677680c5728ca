/-!
# Words of 64 bits

The bounds of the integers that 64 bits hold: natural numbers below `limit`, and integers from
`-signedLimit` up to, and without, `signedLimit`.
-/

namespace QueryScript.Word

/-- The first natural number that 64 bits do not hold. -/
def limit : Nat := 18446744073709551616

/-- The first natural number that 64 bits with a sign do not hold. -/
def signedLimit : Nat := 9223372036854775808

/-- What an integer comes to in 64 bits with a sign, where results wrap around. -/
def wrap (i : Int) : Int := i.bmod limit

end QueryScript.Word
