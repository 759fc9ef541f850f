import DocQuery.Double.Basic

/-!
# Rounding to a double

A quotient of natural numbers is rounded to the nearest double, a tie going to the even significand.
Counting in units of `2 ^ -1074` turns this into one division: the quotient is cut to 53 significant
bits, or to whole units when it has fewer, and the bits of the answer are the shift times `2 ^ 52` plus
the rounded significand. A significand that rounds up to `2 ^ 53` carries into the exponent by itself,
and a result past the largest finite double is infinity.
-/

namespace DocQuery.Double

/-- The whole number nearest to `p / q`, and the even one of two that are equally near. -/
def roundHalfEven (p q : Nat) : Nat :=
  if 2 * (p % q) < q ∨ (2 * (p % q) = q ∧ p / q % 2 = 0) then p / q else p / q + 1

/-- The bits of the double nearest to the non-negative number `p / q`. -/
def nearestMagnitude (p q : Nat) : Nat :=
  let units := p <<< 1074
  let shift := Nat.log2 (units / q) - 52
  min (shift * exponentUnit + roundHalfEven units (q <<< shift)) infinityBits

/-- The double nearest to `p / q`, with the given sign. -/
def ofRatio (negative : Bool) (p q : Nat) : Double := ofMagnitude negative (nearestMagnitude p q)

def ofInt (n : Int) : Double := ofRatio (n < 0) n.natAbs 1

example : ofInt (-1) = ⟨0xBFF0000000000000⟩ ∧ ofInt (2 ^ 53 + 1) = ⟨0x4340000000000000⟩ := by
  decide +kernel

example : ofRatio false 1 10 = ⟨0x3FB999999999999A⟩ := by decide +kernel

end DocQuery.Double
