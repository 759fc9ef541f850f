import DocQuery.Calendar.DayNumber

/-!
# Times

A time is a second of universal time, counted from the start of 1970-01-01, and nanoseconds within it.
A leap second has no number of its own: it shares that of the second before it and continues its
nanoseconds, which therefore run up to two seconds. Stores keep times in whole milliseconds, so a time
is rounded down to be stored, and stored milliseconds past the ends of the calendar are clamped when
they are read.
-/

namespace DocQuery

def firstSecond : Int := -8334601228800

def lastSecond : Int := 8210266876799

@[ext] structure Time where
  seconds : Int
  nanos : Nat
  seconds_range : firstSecond ≤ seconds ∧ seconds ≤ lastSecond
  nanos_lt : nanos < 2000000000
deriving DecidableEq

namespace Time

/-- The time with the given seconds and nanoseconds, if the calendar has it. -/
def make? (seconds : Int) (nanos : Nat) : Option Time :=
  if hs : firstSecond ≤ seconds ∧ seconds ≤ lastSecond then
    if hn : nanos < 2000000000 then some ⟨seconds, nanos, hs, hn⟩ else none
  else none

def first : Time := ⟨firstSecond, 0, by decide, by decide⟩

/-- The last point in time of the calendar that is not in a leap second. -/
def last : Time := ⟨lastSecond, 999999999, by decide, by decide⟩

/-- The whole milliseconds from the start of 1970-01-01, rounded down. -/
def toMillis (t : Time) : Int64 := Int64.ofInt (t.seconds * 1000 + t.nanos / 1000000)

/-- The time of a number of milliseconds; a number past an end of the calendar gives that end. -/
def ofMillis (n : Int64) : Time :=
  if h : firstSecond * 1000 ≤ n.toInt then
    if h' : n.toInt < (lastSecond + 1) * 1000 then
      ⟨n.toInt / 1000, (n.toInt % 1000).toNat * 1000000, by unfold firstSecond lastSecond at *; omega,
        by omega⟩
    else last
  else first

def date (t : Time) : Date :=
  Date.ofDayNumber (t.seconds / 86400) (by
    have := t.seconds_range
    unfold firstSecond lastSecond at this
    unfold Date.firstDay Date.lastDay
    omega)

/-- The midnight at which a date starts. -/
def ofDate (d : Date) : Time where
  seconds := d.dayNumber * 86400
  nanos := 0
  seconds_range := by
    have := d.dayNumber_range
    unfold Date.firstDay Date.lastDay at this
    unfold firstSecond lastSecond
    omega
  nanos_lt := by decide

end Time

end DocQuery
