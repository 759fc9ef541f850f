import DocQuery.Calendar.Date
import DocQuery.Text.Numeral

/-!
# The text of a date

A date is written as year, month and day with hyphens between them. Years from 0 to 9999 have four
digits; other years have a sign and at least four digits. The reader is more generous: blanks may stand
before each number, a year without a sign may have one to four digits, and month and day may have one.
-/

namespace DocQuery.Date

open Text

def yearText (year : Int) : List Char :=
  if 0 ≤ year ∧ year ≤ 9999 then padded 4 year.natAbs
  else (if year < 0 then '-' else '+') :: padded 4 year.natAbs

def yearMonthDay (year : Int) (month day : Nat) : List Char :=
  yearText year ++ '-' :: padded 2 month ++ '-' :: padded 2 day

def chars (d : Date) : List Char := yearMonthDay d.year d.month d.day

def text (d : Date) : String := String.ofList d.chars

/-- Reads a year from the front of a text: after a sign any number of digits, else at most four. -/
def takeYear : List Char → Option (Int × List Char)
  | '-' :: cs => (takeNumber 1 cs.length cs).map fun (n, rest) => (-(n : Int), rest)
  | '+' :: cs => (takeNumber 1 cs.length cs).map fun (n, rest) => (n, rest)
  | cs => (takeNumber 1 4 cs).map fun (n, rest) => (n, rest)

def ofText? (cs : List Char) : Option Date := do
  let (year, cs) ← takeYear (skipBlanks cs)
  let (month, cs) ← takeNumber 1 2 (skipBlanks (← takeChar '-' cs))
  let (day, cs) ← takeNumber 1 2 (skipBlanks (← takeChar '-' cs))
  if cs.isEmpty then make? year month day else none

example : epoch.text = "1970-01-01" ∧ ofText? " 1970- 1-1".toList = some epoch := by decide +kernel

example : ofText? "1970-01 -01".toList = none ∧ ofText? "1970-02-29".toList = none := by decide +kernel

end DocQuery.Date
