import DocQuery.Double.Rounding
import DocQuery.Text.Numeral

/-!
# Reading a double

The text of a double is an optional sign and then one of the words for infinity and for what is not a
number, in any case, or decimal digits with an optional point and an optional exponent. At least one
digit stands before or after the point and, where there is an exponent, in it; nothing else may stand
in the text. The number denoted is rounded to the nearest double.
-/

namespace DocQuery.Double

open Text

/-- A decimal number as written: a natural number and the power of ten it is multiplied with. -/
structure Decimal where
  coefficient : Nat
  exponent : Int
deriving DecidableEq, Inhabited

/-- The double nearest to a decimal number, with the given sign. Numbers of at least `10 ^ 309` lie past
the largest double and those below `10 ^ -324` nearer to zero than to the smallest, which spares
computing powers of ten without bound. -/
def ofDecimal (negative : Bool) (d : Decimal) : Double :=
  let top := (digits d.coefficient).length + d.exponent
  if d.coefficient = 0 ∨ top ≤ -324 then ofMagnitude negative 0
  else if 309 < top then ofMagnitude negative infinityBits
  else if 0 ≤ d.exponent then ofRatio negative (d.coefficient * Nat.pow 10 d.exponent.toNat) 1
  else ofRatio negative d.coefficient (Nat.pow 10 (-d.exponent).toNat)

/-- Reads the exponent that ends a number: nothing, or the letter `e` and a whole number. -/
def exponent? : List Char → Option Int
  | [] => some 0
  | c :: cs =>
    if c = 'e' ∨ c = 'E' then
      (natural? (splitSign cs).2).map fun n => if (splitSign cs).1 then -(n : Int) else n
    else none

def decimal? (cs : List Char) : Option Decimal :=
  let whole := cs.takeWhile Char.isDigit
  let (fraction, rest) := match cs.dropWhile Char.isDigit with
    | '.' :: after => (after.takeWhile Char.isDigit, after.dropWhile Char.isDigit)
    | after => ([], after)
  if whole.isEmpty && fraction.isEmpty then none
  else (exponent? rest).map fun e =>
    ⟨Nat.ofDigitChars 10 (whole ++ fraction) 0, e - fraction.length⟩

def ofText? (cs : List Char) : Option Double :=
  let (negative, body) := splitSign cs
  if ["inf", "infinity"].any (·.toList = lowerAscii body) then some (ofMagnitude negative infinityBits)
  else if lowerAscii body = "nan".toList then some nan
  else (decimal? body).map (ofDecimal negative)

example : ofText? "-1.5e1".toList = some ⟨0xC02E000000000000⟩ := by decide +kernel

example : ofText? "+.5".toList = some ⟨0x3FE0000000000000⟩ := by decide +kernel

example : ofText? ".".toList = none ∧ ofText? "1e".toList = none := by decide +kernel

end DocQuery.Double
