import DocQuery.Calendar.DateText
import DocQuery.Calendar.Time

/-!
# The text of a time

A time is written in the form of RFC 3339: the date, the letter `T`, hours, minutes and seconds, a
fraction of three, six or nine digits when there is one, and the offset from universal time. The reader
takes any offset of less than a day and any number of fraction digits, of which those after the ninth
are dropped. A leap second is written and read as second 60.
-/

namespace DocQuery.Time

open Text

def secondOfDay (t : Time) : Nat := (t.seconds % 86400).toNat

/-- The fraction of a second with its point, in the fewest of three, six or nine digits that are exact,
and nothing for a whole second. -/
def fractionText (nanos : Nat) : List Char :=
  if nanos = 0 then []
  else if nanos % 1000000 = 0 then '.' :: padded 3 (nanos / 1000000)
  else if nanos % 1000 = 0 then '.' :: padded 6 (nanos / 1000)
  else '.' :: padded 9 nanos

/-- The characters of a time in universal time, before the offset. -/
def localChars (t : Time) : List Char :=
  let s := t.secondOfDay
  t.date.chars ++ 'T' :: padded 2 (s / 3600) ++ ':' :: padded 2 (s / 60 % 60) ++
    ':' :: padded 2 (s % 60 + t.nanos / 1000000000) ++ fractionText (t.nanos % 1000000000)

def text (t : Time) : String := String.ofList (t.localChars ++ "+00:00".toList)

/-- Reads an optional fraction of a second from the front of a text, as nanoseconds. -/
def takeFraction : List Char → Option (Nat × List Char)
  | '.' :: cs => (takeDigits 1 cs.length cs).map fun (run, rest) =>
    (Nat.ofDigitChars 10 ((run ++ List.replicate 9 '0').take 9) 0, rest)
  | cs => some (0, cs)

/-- Reads the hours and minutes of an offset, as minutes. -/
def takeHoursMinutes (cs : List Char) : Option (Nat × List Char) := do
  let (hours, cs) ← takeNumber 2 2 cs
  let (minutes, cs) ← takeNumber 2 2 (← takeChar ':' cs)
  if hours < 24 ∧ minutes < 60 then some (60 * hours + minutes, cs) else none

/-- Reads an offset from universal time from the front of a text, in minutes. The minus sign may be the
ASCII hyphen or the mathematical sign. -/
def takeOffset : List Char → Option (Int × List Char)
  | [] => none
  | c :: cs =>
    if c = 'Z' ∨ c = 'z' then some (0, cs)
    else if c = '+' then (takeHoursMinutes cs).map fun (n, rest) => (n, rest)
    else if c = '-' ∨ c = '\u2212' then (takeHoursMinutes cs).map fun (n, rest) => (-(n : Int), rest)
    else none

def takeSeparator : List Char → Option (List Char)
  | c :: cs => if c = 'T' ∨ c = 't' ∨ c = ' ' then some cs else none
  | [] => none

def ofText? (cs : List Char) : Option Time := do
  let (year, cs) ← takeNumber 4 4 cs
  let (month, cs) ← takeNumber 2 2 (← takeChar '-' cs)
  let (day, cs) ← takeNumber 2 2 (← takeChar '-' cs)
  let (hour, cs) ← takeNumber 2 2 (← takeSeparator cs)
  let (minute, cs) ← takeNumber 2 2 (← takeChar ':' cs)
  let (second, cs) ← takeNumber 2 2 (← takeChar ':' cs)
  let (nanos, cs) ← takeFraction cs
  let (offset, cs) ← takeOffset cs
  let date ← Date.make? year month day
  if cs.isEmpty && hour < 24 && minute < 60 && second ≤ 60 then
    make? (date.dayNumber * 86400 + hour * 3600 + minute * 60 + min second 59 - offset * 60)
      (nanos + if second = 60 then 1000000000 else 0)
  else none

example : (ofText? "1970-01-01T01:00:60.5+01:00".toList).map text = some "1970-01-01T00:00:60.500+00:00" := by
  decide +kernel

example : (ofText? "1970-01-01 00:00:00Z".toList).map toMillis = some 0 := by decide +kernel

example : ofText? "1970-01-01T00:00Z".toList = none := by decide +kernel

end DocQuery.Time
