/-!
# Binary64 numbers

A double is its 64 bits. Setting the sign aside, the bits read as a number order the non-negative
doubles: the numbers of the lowest exponent first, infinity above every finite number, and the values
that are not a number above infinity. Every finite double is a whole number of the smallest positive
double `2 ^ -1074`, so comparing two doubles is comparing two integers, and nothing here needs a
fraction.
-/

namespace DocQuery

/-- A binary64 floating-point number, given by its bits. -/
structure Double where
  /-- The sign in the highest bit, then eleven bits of exponent and 52 of fraction. -/
  bits : UInt64
deriving DecidableEq, Inhabited

namespace Double

def infinityBits : Nat := 0x7FF0000000000000

def signBit : Nat := 0x8000000000000000

/-- The lowest bit of the exponent field, which counts the fractions below it. -/
def exponentUnit : Nat := 0x10000000000000

/-- The bits without the sign. -/
def magnitude (x : Double) : Nat := x.bits.toNat % signBit

def isNegative (x : Double) : Bool := signBit ≤ x.bits.toNat

/-- Whether the bits stand for no number. -/
def isNaN (x : Double) : Bool := infinityBits < x.magnitude

def isInfinite (x : Double) : Bool := x.magnitude = infinityBits

def exponentField (x : Double) : Nat := x.magnitude / exponentUnit

def fractionField (x : Double) : Nat := x.magnitude % exponentUnit

/-- The whole number that the exponent scales: the fraction with its leading one, which the numbers of
the lowest exponent lack. -/
def significand (x : Double) : Nat :=
  if x.exponentField = 0 then x.fractionField else exponentUnit + x.fractionField

/-- The distance to the next double away from zero, in units of `2 ^ -1074`. -/
def spacing (x : Double) : Nat := 1 <<< (x.exponentField - 1)

/-- The absolute value in units of `2 ^ -1074`. The infinities get the value that follows the largest
finite one, which keeps them in order. -/
def steps (x : Double) : Nat := x.significand * x.spacing

/-- The value in units of `2 ^ -1074`. -/
def scaled (x : Double) : Int := if x.isNegative then -(x.steps : Int) else x.steps

/-- The double with the given sign and the given bits below it. -/
def ofMagnitude (negative : Bool) (magnitude : Nat) : Double :=
  ⟨UInt64.ofNat (if negative then signBit + magnitude else magnitude)⟩

/-- The value that is not a number. -/
def nan : Double := ofMagnitude false 0x7FF8000000000000

/-- The order of two doubles by value, which the two zeros share; what is not a number has none. -/
def compare? (x y : Double) : Option Ordering :=
  if x.isNaN || y.isNaN then none else some (compare x.scaled y.scaled)

/-- Equality by value: the two zeros are equal, and what is not a number equals nothing. -/
def same (x y : Double) : Bool := x.compare? y == some .eq

def isZero (x : Double) : Bool := x.magnitude = 0

/-- The value cut off toward zero and clamped to the 64-bit integers; what is not a number gives zero. -/
def truncate (x : Double) : Int64 :=
  if x.isNaN then 0 else Int64.ofIntClamp (x.scaled.tdiv (1 <<< 1074 : Nat))

example : (ofMagnitude false 0x4059000000000000).truncate = 100 := by decide +kernel

example : (ofMagnitude false 0).same (ofMagnitude true 0) = true ∧ nan.same nan = false := by
  decide +kernel

end Double

end DocQuery
