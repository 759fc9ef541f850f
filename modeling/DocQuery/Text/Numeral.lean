import DocQuery.Text.Blank

/-!
# Decimal numerals

Whole numbers are written without leading zeros and read strictly: an optional sign, then ASCII digits
and nothing else. Dates and times also need numerals of a fixed least width and readers that take a
bounded run of digits from the front of a text.
-/

namespace DocQuery.Text

/-- The decimal digits of a natural number, without leading zeros. -/
def digits (n : Nat) : List Char := Nat.toDigits 10 n

/-- The decimal digits of a natural number, led by zeros up to the given width. -/
def padded (width n : Nat) : List Char :=
  List.replicate (width - (digits n).length) '0' ++ digits n

/-- The decimal text of an integer, with a minus sign when it is negative. -/
def integerText (n : Int) : List Char :=
  if n < 0 then '-' :: digits n.natAbs else digits n.natAbs

/-- The number that a text of one or more ASCII digits denotes. -/
def natural? (cs : List Char) : Option Nat :=
  if !cs.isEmpty && cs.all Char.isDigit then some (Nat.ofDigitChars 10 cs 0) else none

/-- Separates an optional sign from the text it leads; the flag tells a minus sign. -/
def splitSign : List Char → Bool × List Char
  | '-' :: rest => (true, rest)
  | '+' :: rest => (false, rest)
  | cs => (false, cs)

/-- Reads a signed 64-bit integer: an optional sign and digits whose number is in range. -/
def int64? (cs : List Char) : Option Int64 := do
  let size ← natural? (splitSign cs).2
  let n : Int := if (splitSign cs).1 then -(size : Int) else size
  if Int64.minValue.toInt ≤ n ∧ n ≤ Int64.maxValue.toInt then some (Int64.ofInt n) else none

/-- Reads a position in a list: an optional plus sign and digits whose number is below `2 ^ 64`. -/
def index? (cs : List Char) : Option Nat := do
  let n ← natural? (match cs with
    | '+' :: rest => rest
    | _ => cs)
  if n < UInt64.size then some n else none

/-- Takes the longest run of at most `most` digits from the front of a text, and fails on fewer than
`least`. Gives the run and what follows it. -/
def takeDigits (least most : Nat) (cs : List Char) : Option (List Char × List Char) :=
  let run := (cs.take most).takeWhile Char.isDigit
  if least ≤ run.length then some (run, cs.drop run.length) else none

/-- Reads a number of at least `least` and at most `most` digits from the front of a text. -/
def takeNumber (least most : Nat) (cs : List Char) : Option (Nat × List Char) :=
  (takeDigits least most cs).map fun (run, rest) => (Nat.ofDigitChars 10 run 0, rest)

/-- Removes one given character from the front of a text. -/
def takeChar (c : Char) : List Char → Option (List Char)
  | d :: rest => if d = c then some rest else none
  | [] => none

end DocQuery.Text
