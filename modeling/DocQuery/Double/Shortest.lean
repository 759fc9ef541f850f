import DocQuery.Double.Reading

/-!
# The shortest decimal of a double

Among the decimal numbers that read back as a given double, the shortest have the fewest significant
digits, and of those the nearest to the double is chosen. Whether a decimal reads back is membership in
the interval of numbers that round to the double, whose ends belong to it when the significand is even.
On each decimal grid only the two neighbours of the double need a look, because a point of the interval
further away leaves the neighbour on its side in the interval too. All arithmetic is on natural
numbers: values are counted in quarters of `2 ^ -1074`.
-/

namespace DocQuery.Double

/-- Four times the absolute value in units of `2 ^ -1074`. -/
def quarters (x : Double) : Nat := 4 * x.steps

/-- The number of quarter units in one. -/
def quartersPerUnit : Nat := 1 <<< 1076

/-- The number midway to the double below, which lies twice as close when the double is a power of two. -/
def lowerEnd (x : Double) : Nat :=
  x.quarters - if x.fractionField = 0 ∧ 1 < x.exponentField then x.spacing else 2 * x.spacing

/-- The number midway to the double above. -/
def upperEnd (x : Double) : Nat := x.quarters + 2 * x.spacing

/-- The number `p` of quarter units multiplied with `10 ^ e`, over the divisor that makes it whole. -/
def scaleTen (p : Nat) (e : Int) : Nat × Nat := (p * Nat.pow 10 e.toNat, Nat.pow 10 (-e).toNat)

/-- Whether a decimal number lies among those that round to the absolute value of the double. -/
def covers (x : Double) (d : Decimal) : Bool :=
  let (p, q) := scaleTen (d.coefficient * quartersPerUnit) d.exponent
  if x.significand % 2 = 0 then x.lowerEnd * q ≤ p && p ≤ x.upperEnd * q
  else x.lowerEnd * q < p && p < x.upperEnd * q

/-- The number of digits before the point of the absolute value, written in positional notation; it
counts down below one for each zero that follows the point. -/
def integerDigits (x : Double) : Int :=
  (Text.digits (x.quarters * Nat.pow 10 400 / quartersPerUnit)).length - 400

/-- The decimal number of `n` significant digits that reads back and is nearest, if there is one. Of two
equally near ones it is the larger. -/
def ofDigitCount? (x : Double) (n : Nat) : Option Decimal :=
  let e := x.integerDigits - n
  let (p, q) := scaleTen x.quarters (-e)
  let size := q * quartersPerUnit
  let below : Decimal := ⟨p / size, e⟩
  let above : Decimal := ⟨p / size + 1, e⟩
  match x.covers below, x.covers above with
  | true, true => some (if 2 * (p % size) < size then below else above)
  | true, false => some below
  | false, true => some above
  | false, false => none

/-- The number without a zero at the end of its coefficient. One is all there can be where this is used:
with more, or behind another digit, a coarser grid would have held the number. -/
def dropZero (d : Decimal) : Decimal :=
  if d.coefficient % 10 = 0 then ⟨d.coefficient / 10, d.exponent + 1⟩ else d

/-- The shortest decimal number that reads back as the absolute value of a finite double. Seventeen
digits always suffice. -/
def shortest (x : Double) : Decimal :=
  if x.isZero then ⟨0, 0⟩
  else dropZero (((List.range 17).findSome? fun n => x.ofDigitCount? (n + 1)).getD ⟨0, 0⟩)

example : (ofMagnitude false 0x3FB999999999999A).shortest = ⟨1, -1⟩ := by decide +kernel

example : (ofMagnitude false 1).shortest = ⟨5, -324⟩ ∧ (ofMagnitude false 2).shortest = ⟨1, -323⟩ := by
  decide +kernel

end DocQuery.Double
