import DocQuery.Calendar.Date

/-!
# Day numbers

Dates are numbered by days from 1970-01-01. Back from a number, the year is found by an estimate from
the mean length of a year, which is off by one at most, and the month by taking the lengths of the
months off the day of the year. The main facts are that the numbers of dates fill a range and that every
number of that range has a date.
-/

namespace DocQuery.Date

/-- The number of days from the first day of year 0 to the first day of a year. -/
def daysBeforeYear (year : Int) : Int :=
  365 * year + (year + 3) / 4 - (year + 99) / 100 + (year + 399) / 400

def monthLengths (year : Int) : List Nat := (List.range 12).map fun i => monthLength year (i + 1)

def total : List Nat → Nat
  | [] => 0
  | length :: rest => length + total rest

/-- The number of days from the first day of year 0 to 1970-01-01. -/
def epochOffset : Int := 719528

def firstDay : Int := -96465292

def lastDay : Int := 95026236

/-- The number of a date, counted in days from 1970-01-01. -/
def dayNumber (d : Date) : Int :=
  daysBeforeYear d.year + total ((monthLengths d.year).take (d.month - 1)) + (d.day - 1) - epochOffset

/-- The year that holds the day a given number of days after the first day of year 0. -/
def yearOfDay (n : Int) : Int :=
  let estimate := n * 400 / 146097
  if n < daysBeforeYear estimate then estimate - 1
  else if daysBeforeYear (estimate + 1) ≤ n then estimate + 1
  else estimate

/-- The month and day that lie `n` days into the months of the given lengths, the first of which has
the number `month`. -/
def monthAndDay : List Nat → Nat → Nat → Nat × Nat
  | [], month, n => (month, n + 1)
  | length :: rest, month, n =>
    if n < length then (month, n + 1) else monthAndDay rest (month + 1) (n - length)

def numberedYear (n : Int) : Int := yearOfDay (n + epochOffset)

def numberedMonthAndDay (n : Int) : Nat × Nat :=
  monthAndDay (monthLengths (numberedYear n)) 1 (n + epochOffset - daysBeforeYear (numberedYear n)).toNat

/-! ### Years -/

private theorem isLeapYear_iff (year : Int) :
    isLeapYear year = true ↔ year % 4 = 0 ∧ (year % 100 ≠ 0 ∨ year % 400 = 0) := by
  simp [isLeapYear]

theorem daysBeforeYear_succ (year : Int) :
    daysBeforeYear (year + 1) = daysBeforeYear year + if isLeapYear year then 366 else 365 := by
  have fours : (year + 1 + 3) / 4 = (year + 3) / 4 + if year % 4 = 0 then 1 else 0 := by split <;> omega
  have hundreds : (year + 1 + 99) / 100 = (year + 99) / 100 + if year % 100 = 0 then 1 else 0 := by
    split <;> omega
  have fourHundreds : (year + 1 + 399) / 400 = (year + 399) / 400 + if year % 400 = 0 then 1 else 0 := by
    split <;> omega
  simp only [daysBeforeYear, fours, hundreds, fourHundreds, isLeapYear_iff]
  split <;> split <;> split <;> split <;> omega

theorem daysBeforeYear_mono {a b : Int} (h : a ≤ b) : daysBeforeYear a ≤ daysBeforeYear b := by
  unfold daysBeforeYear
  omega

/-- The year found for a day holds that day. -/
theorem yearOfDay_bounds (n : Int) :
    daysBeforeYear (yearOfDay n) ≤ n ∧ n < daysBeforeYear (yearOfDay n + 1) := by
  simp only [yearOfDay]
  generalize h : n * 400 / 146097 = estimate
  split
  · rw [Int.sub_add_cancel]
    simp only [daysBeforeYear] at *
    omega
  · split
    · simp only [daysBeforeYear] at *
      omega
    · simp only [daysBeforeYear] at *
      omega

private theorem daysBeforeYear_firstYear : daysBeforeYear firstYear = firstDay + epochOffset := by decide

private theorem daysBeforeYear_after_lastYear :
    daysBeforeYear (lastYear + 1) = lastDay + 1 + epochOffset := by decide

/-- The years of the numbered days are those of the calendar. -/
theorem numberedYear_range {n : Int} (h : firstDay ≤ n ∧ n ≤ lastDay) :
    firstYear ≤ numberedYear n ∧ numberedYear n ≤ lastYear := by
  have bounds := yearOfDay_bounds (n + epochOffset)
  have first := daysBeforeYear_firstYear
  have last := daysBeforeYear_after_lastYear
  unfold numberedYear
  constructor
  · refine Int.not_lt.1 fun below => ?_
    have := daysBeforeYear_mono (Int.add_one_le_of_lt below)
    omega
  · refine Int.not_lt.1 fun above => ?_
    have := daysBeforeYear_mono (Int.add_one_le_of_lt above)
    omega

/-! ### Months -/

theorem length_monthLengths (year : Int) : (monthLengths year).length = 12 := by simp [monthLengths]

private theorem getElem?_monthLengths (year : Int) {i : Nat} (h : i < 12) :
    (monthLengths year)[i]? = some (monthLength year (i + 1)) := by
  simp [monthLengths, h]

theorem total_append (lengths more : List Nat) : total (lengths ++ more) = total lengths + total more := by
  induction lengths with
  | nil => rw [List.nil_append, total, Nat.zero_add]
  | cons length rest ih => rw [List.cons_append, total, total, ih, Nat.add_assoc]

theorem total_take_mono {i j : Nat} (h : i ≤ j) (lengths : List Nat) :
    total (lengths.take i) ≤ total (lengths.take j) := by
  obtain ⟨k, rfl⟩ := Nat.exists_eq_add_of_le h
  rw [List.take_add, total_append]
  omega

theorem total_monthLengths (year : Int) :
    total (monthLengths year) = if isLeapYear year then 366 else 365 := by
  cases h : isLeapYear year <;> simp [total, monthLengths, List.range, List.range.loop, monthLength, h]

theorem daysBeforeYear_succ_eq_total (year : Int) :
    daysBeforeYear (year + 1) = daysBeforeYear year + total (monthLengths year) := by
  rw [daysBeforeYear_succ, total_monthLengths]
  split <;> rfl

/-- A day that lies within the months of the given lengths lies within the one that is found for it. -/
theorem monthAndDay_mem (lengths : List Nat) (month n : Nat) (h : n < total lengths) :
    ∃ length, lengths[(monthAndDay lengths month n).1 - month]? = some length ∧
      month ≤ (monthAndDay lengths month n).1 ∧
      1 ≤ (monthAndDay lengths month n).2 ∧ (monthAndDay lengths month n).2 ≤ length := by
  induction lengths generalizing month n with
  | nil => exact absurd h (Nat.not_lt_zero n)
  | cons length rest ih =>
    unfold monthAndDay
    by_cases hn : n < length
    · rw [if_pos hn]
      exact ⟨length, by simp, Nat.le_refl _, by omega, by omega⟩
    · rw [if_neg hn]
      obtain ⟨found, at_, low, day, fits⟩ := ih (month + 1) (n - length) (by rw [total] at h; omega)
      refine ⟨found, ?_, by omega, day, fits⟩
      have shift : (monthAndDay rest (month + 1) (n - length)).1 - month =
          (monthAndDay rest (month + 1) (n - length)).1 - (month + 1) + 1 := by omega
      rw [shift, List.getElem?_cons_succ, at_]

theorem numberedMonthAndDay_range (n : Int) :
    (1 ≤ (numberedMonthAndDay n).1 ∧ (numberedMonthAndDay n).1 ≤ 12) ∧
      1 ≤ (numberedMonthAndDay n).2 ∧
      (numberedMonthAndDay n).2 ≤ monthLength (numberedYear n) (numberedMonthAndDay n).1 := by
  have bounds := yearOfDay_bounds (n + epochOffset)
  have inYear : (n + epochOffset - daysBeforeYear (numberedYear n)).toNat <
      total (monthLengths (numberedYear n)) := by
    have next := daysBeforeYear_succ_eq_total (numberedYear n)
    unfold numberedYear at next ⊢
    omega
  obtain ⟨length, at_, low, day, fits⟩ := monthAndDay_mem _ 1 _ inYear
  change (monthLengths (numberedYear n))[(numberedMonthAndDay n).1 - 1]? = some length at at_
  change 1 ≤ (numberedMonthAndDay n).1 at low
  have high : (numberedMonthAndDay n).1 - 1 < 12 := by
    rw [← length_monthLengths (numberedYear n)]
    exact (List.getElem?_eq_some_iff.1 at_).1
  have index : (numberedMonthAndDay n).1 - 1 + 1 = (numberedMonthAndDay n).1 := by omega
  rw [getElem?_monthLengths _ high, index] at at_
  rw [Option.some.inj at_]
  exact ⟨⟨low, by omega⟩, day, fits⟩

/-- The date with a given number of days from 1970-01-01. -/
def ofDayNumber (n : Int) (h : firstDay ≤ n ∧ n ≤ lastDay) : Date :=
  ⟨numberedYear n, (numberedMonthAndDay n).1, (numberedMonthAndDay n).2, numberedYear_range h,
    (numberedMonthAndDay_range n).1, (numberedMonthAndDay_range n).2⟩

/-- The day of a month lies within the first months of the year, up to its own. -/
theorem total_take_add_day_le (d : Date) :
    total ((monthLengths d.year).take (d.month - 1)) + d.day ≤ total ((monthLengths d.year).take d.month) := by
  have month := d.month_range
  have day := d.day_range.2
  have index : d.month - 1 < (monthLengths d.year).length := by rw [length_monthLengths]; omega
  have shift : d.month - 1 + 1 = d.month := by omega
  have at_ : (monthLengths d.year)[d.month - 1] = monthLength d.year d.month := by simp [monthLengths, shift]
  have parts : (monthLengths d.year).take d.month =
      (monthLengths d.year).take (d.month - 1) ++ [monthLength d.year d.month] := by
    rw [← at_, List.take_append_getElem index, shift]
  rw [parts, total_append, total, total]
  omega

/-- The number of a date lies in its year. -/
theorem dayNumber_bounds (d : Date) :
    daysBeforeYear d.year ≤ d.dayNumber + epochOffset ∧ d.dayNumber + epochOffset < daysBeforeYear (d.year + 1) := by
  have whole := daysBeforeYear_succ_eq_total d.year
  have day := d.day_range.1
  have fits := total_take_add_day_le d
  have most : total ((monthLengths d.year).take d.month) ≤ total (monthLengths d.year) := by
    have mono := total_take_mono d.month_range.2 (monthLengths d.year)
    rwa [List.take_of_length_le (Nat.le_of_eq (length_monthLengths d.year))] at mono
  simp only [dayNumber]
  omega

/-- The numbers of dates lie in the range of the calendar. -/
theorem dayNumber_range (d : Date) : firstDay ≤ d.dayNumber ∧ d.dayNumber ≤ lastDay := by
  have first := daysBeforeYear_firstYear
  have last := daysBeforeYear_after_lastYear
  have low := daysBeforeYear_mono d.year_range.1
  have high := daysBeforeYear_mono (Int.add_le_add_right d.year_range.2 1)
  have bounds := dayNumber_bounds d
  omega

example : epoch.dayNumber = 0 ∧ ofDayNumber 0 (by decide) = epoch := by decide +kernel

example : ((ofDayNumber 11016 (by decide)).month, (ofDayNumber 11016 (by decide)).day) = (2, 29) := by
  decide +kernel

end DocQuery.Date
