import DocQuery.Calendar.DateText
import DocQuery.Calendar.DayNumber

/-!
# Instants

An instant is a number of milliseconds from the start of 1970-01-01 in universal time. Instants reach
past the calendar of dates. The text of one gives its date, its time of day and the offset zero; when its
year needs more than six digits, the text is the number itself.
-/

namespace DocQuery.Instant

open Text

/-- The milliseconds of a second as the digits after the point: the fewest that are exact, and one at
least. -/
def fractionDigits (millis : Nat) : List Char :=
  if millis % 100 = 0 then padded 1 (millis / 100)
  else if millis % 10 = 0 then padded 2 (millis / 10)
  else padded 3 millis

/-- The characters of a time of day, given in milliseconds from midnight. The hour has no leading zero. -/
def timeOfDayChars (millis : Nat) : List Char :=
  let s := millis / 1000
  digits (s / 3600) ++ ':' :: padded 2 (s / 60 % 60) ++ ':' :: padded 2 (s % 60) ++
    '.' :: fractionDigits (millis % 1000)

def dayChars (n : Int) : List Char :=
  Date.yearMonthDay (Date.numberedYear n) (Date.numberedMonthAndDay n).1 (Date.numberedMonthAndDay n).2

/-- The greatest size of a year that is written as a year. -/
def greatestYear : Nat := 999999

def text (millis : Int64) : String :=
  let n := millis.toInt / 86400000
  if (Date.numberedYear n).natAbs ≤ greatestYear then
    String.ofList
      (dayChars n ++ ' ' :: timeOfDayChars (millis.toInt % 86400000).toNat ++ " +00:00:00".toList)
  else String.ofList (integerText millis.toInt)

example : text 0 = "1970-01-01 0:00:00.0 +00:00:00" := by decide +kernel

example : text (-1) = "1969-12-31 23:59:59.999 +00:00:00" := by decide +kernel

end DocQuery.Instant
