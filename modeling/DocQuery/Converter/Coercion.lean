import DocQuery.Double.Notation
import DocQuery.Value.Basic

/-!
# Coercions

What texts and numbers mean to a property of another type. Texts are trimmed of blanks before they are
read. A text that is no number has no meaning as one, whereas a number of the wrong kind is rounded or
cut off.
-/

namespace DocQuery.Converter

open Text

def booleanText (b : Bool) : String := if b then "true" else "false"

def int64Text (n : Int64) : String := String.ofList (integerText n.toInt)

/-- Reads an integer: a numeral in range, or else a floating-point text, cut off toward zero. -/
def readInteger (s : String) : Option Int64 :=
  let cs := trim s.toList
  match int64? cs with
  | some n => some n
  | none => (Double.ofText? cs).map Double.truncate

def readFloat (s : String) : Option Double := Double.ofText? (trim s.toList)

/-- The words that mean true. -/
def trueWords : List String := ["true", "t", "1", "yes", "y", "on"]

/-- The words that mean false; an empty text does too. -/
def falseWords : List String := ["false", "f", "0", "no", "n", "off", ""]

/-- Reads a truth value from one of the words, in any case. -/
def readBoolean (s : String) : Option Bool :=
  let word := String.ofList (lowerAscii (trim s.toList))
  if word ∈ trueWords then some true else if word ∈ falseWords then some false else none

/-- The truth of a value: numbers other than zero are true, and texts are read as words. -/
def truth? : Value → Option Bool
  | .boolean b => some b
  | .integer n => some (n != 0)
  | .float x => some (!x.isZero)
  | .string s => readBoolean s
  | _ => none

end DocQuery.Converter
