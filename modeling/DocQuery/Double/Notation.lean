import DocQuery.Double.Shortest

/-!
# The text of a double

A double is written with its shortest digits. The two notations in use differ in where they stop being
positional and in whether a whole number keeps its point: a plain text never has an exponent and writes
whole numbers without a point, a literal keeps the point and changes to an exponent for very large and
very small numbers.
-/

namespace DocQuery.Double

open Text

structure Style where
  /-- The powers of ten of the leading digit that are written without an exponent; without bounds, all
  of them are. -/
  positional : Option (Int × Int)
  /-- What follows the digits of a whole number in positional notation. -/
  wholeEnding : List Char

/-- Plain text: positional throughout, and no point in a whole number. -/
def Style.plain : Style := ⟨none, []⟩

/-- A literal: an exponent from `10 ^ 16` on and below `10 ^ -4`, and `.0` after a whole number. -/
def Style.literal : Style := ⟨some (-4, 15), ['.', '0']⟩

/-- Positional notation of a decimal number. -/
def positionalText (style : Style) (d : Decimal) : List Char :=
  if 0 ≤ d.exponent then
    digits d.coefficient ++ List.replicate d.exponent.toNat '0' ++ style.wholeEnding
  else
    let places := (-d.exponent).toNat
    let cs := padded (places + 1) d.coefficient
    cs.take (cs.length - places) ++ '.' :: cs.drop (cs.length - places)

/-- The power of ten of the leading digit. -/
def leadingExponent (d : Decimal) : Int := (digits d.coefficient).length - 1 + d.exponent

/-- Notation with an exponent: one digit before the point, the rest of them after it. -/
def exponentText (d : Decimal) : List Char :=
  let cs := digits d.coefficient
  cs.take 1 ++ (if 1 < cs.length then '.' :: cs.drop 1 else []) ++ 'e' :: integerText (leadingExponent d)

def render (style : Style) (x : Double) : String :=
  if x.isNaN then "NaN"
  else
    let sign := if x.isNegative then ['-'] else []
    let body :=
      if x.isInfinite then "inf".toList
      else
        let d := x.shortest
        match style.positional with
        | some (least, most) =>
          if x.isZero ∨ (least ≤ leadingExponent d ∧ leadingExponent d ≤ most) then
            positionalText style d
          else exponentText d
        | none => positionalText style d
    String.ofList (sign ++ body)

def text (x : Double) : String := x.render .plain

example : (ofInt 255).text = "255" ∧ (ofMagnitude true 0).text = "-0" := by decide +kernel

example : (ofRatio true 5 2).text = "-2.5" := by decide +kernel

example : (ofInt (10 ^ 21)).text = "1000000000000000000000" ∧ (ofRatio false 1 1000).text = "0.001" := by
  decide +kernel

example : (ofInt 1).render .literal = "1.0" ∧ (ofInt (10 ^ 16)).render .literal = "1e16"
    ∧ (ofRatio false 3 200000).render .literal = "1.5e-5" := by
  decide +kernel

end DocQuery.Double
