import DocQuery.Proofs.Calendar.ReadBack

/-!
# The order of dates and times

Dates go by their years, then by their months and then by their days, and the number of a date counts on with them. In
years of four digits so do the texts of dates: each part of a text is filled up to one width, so the first part that
differs decides. Times are rounded down to whole milliseconds, before 1970 as well, so they keep their order when they
are stored and lose less than a millisecond.
-/

namespace DocQuery

namespace Date

open Text

variable {d e : Date}

/-- The first date comes before the second in the calendar. -/
inductive IsBefore (d e : Date) : Prop where
  | byYear (hyear : d.year < e.year)
  | byMonth (hyear : d.year = e.year) (hmonth : d.month < e.month)
  | byDay (hyear : d.year = e.year) (hmonth : d.month = e.month) (hday : d.day < e.day)

theorem isBefore_trichotomy (d e : Date) : d.IsBefore e ∨ d = e ∨ e.IsBefore d := by
  rcases Int.lt_trichotomy d.year e.year with hyear | hyear | hyear
  · exact .inl (.byYear hyear)
  · rcases Nat.lt_trichotomy d.month e.month with hmonth | hmonth | hmonth
    · exact .inl (.byMonth hyear hmonth)
    · rcases Nat.lt_trichotomy d.day e.day with hday | hday | hday
      · exact .inl (.byDay hyear hmonth hday)
      · exact .inr (.inl (Date.ext hyear hmonth hday))
      · exact .inr (.inr (.byDay hyear.symm hmonth.symm hday))
    · exact .inr (.inr (.byMonth hyear.symm hmonth))
  · exact .inr (.inr (.byYear hyear))

/-! ### Day numbers -/

theorem dayNumber_lt_of_isBefore (hbefore : d.IsBefore e) : d.dayNumber < e.dayNumber := by
  cases hbefore with
  | byYear hyear =>
    have hmono := daysBeforeYear_mono (Int.add_one_le_of_lt hyear)
    have hd := dayNumber_bounds d
    have he := dayNumber_bounds e
    omega
  | byMonth hyear hmonth =>
    have hwithin := total_take_add_day_le d
    have hmono := total_take_mono (Nat.le_sub_one_of_lt hmonth) (monthLengths d.year)
    have hday := e.day_range.1
    rw [dayNumber, dayNumber, ← hyear]
    omega
  | byDay hyear hmonth hday =>
    rw [dayNumber, dayNumber, ← hyear, ← hmonth]
    omega

/-- The number of a date counts on with the calendar. -/
theorem dayNumber_lt_iff : d.dayNumber < e.dayNumber ↔ d.IsBefore e := by
  refine ⟨fun hlt => ?_, dayNumber_lt_of_isBefore⟩
  rcases d.isBefore_trichotomy e with hbefore | rfl | hafter
  · exact hbefore
  · exact absurd hlt (Int.lt_irrefl _)
  · exact absurd (dayNumber_lt_of_isBefore hafter) (Int.lt_asymm hlt)

/-! ### Texts -/

/-- The year is written with four digits and without a sign. -/
def HasPlainYear (d : Date) : Prop := 0 ≤ d.year ∧ d.year ≤ 9999

instance (d : Date) : Decidable d.HasPlainYear := inferInstanceAs (Decidable (_ ∧ _))

theorem chars_of_plainYear (hd : d.HasPlainYear) :
    d.chars = padded 4 d.year.natAbs ++ '-' :: (padded 2 d.month ++ '-' :: padded 2 d.day) := by
  have hyear : yearText d.year = padded 4 d.year.natAbs := if_pos hd
  rw [chars, yearMonthDay, hyear, List.append_assoc, List.cons_append]

theorem chars_lt_of_isBefore (hd : d.HasPlainYear) (he : e.HasPlainYear) (hbefore : d.IsBefore e) : d.chars < e.chars := by
  obtain ⟨hdfirst, -⟩ := id hd
  obtain ⟨hefirst, helast⟩ := id he
  have hmonths : e.month < 10 ^ 2 := Nat.lt_of_le_of_lt e.month_range.2 (by decide)
  have hdays : e.day < 10 ^ 2 := Nat.lt_of_le_of_lt (Nat.le_trans e.day_range.2 (monthLength_le _ _)) (by decide)
  rw [chars_of_plainYear hd, chars_of_plainYear he]
  cases hbefore with
  | byYear hyear => exact padded_append_lt (by omega) (by omega) _ _
  | byMonth hyear hmonth =>
    rw [hyear]
    exact List.append_left_lt (List.cons_lt_cons_iff.mpr (.inr ⟨rfl, padded_append_lt hmonth hmonths _ _⟩))
  | byDay hyear hmonth hday =>
    have hlast := padded_append_lt hday hdays [] []
    rw [List.append_nil, List.append_nil] at hlast
    rw [hyear, hmonth]
    refine List.append_left_lt (List.cons_lt_cons_iff.mpr (.inr ⟨rfl, ?_⟩))
    exact List.append_left_lt (List.cons_lt_cons_iff.mpr (.inr ⟨rfl, hlast⟩))

theorem compare_text_of_isBefore (hd : d.HasPlainYear) (he : e.HasPlainYear) (hbefore : d.IsBefore e) :
    compare d.text e.text = .lt := by
  have hlt : d.text < e.text := by
    rw [String.lt_iff, text, text, String.toList_ofList, String.toList_ofList]
    exact chars_lt_of_isBefore hd he hbefore
  exact compareOfLessAndEq_eq_lt.mpr hlt

/-- In years of four digits, the texts of dates are ordered as the dates are. -/
theorem compare_text (hd : d.HasPlainYear) (he : e.HasPlainYear) :
    compare d.text e.text = compare d.dayNumber e.dayNumber := by
  rcases d.isBefore_trichotomy e with hbefore | rfl | hafter
  · rw [compare_text_of_isBefore hd he hbefore, Int.compare_eq_lt.mpr (dayNumber_lt_of_isBefore hbefore)]
  · rw [Std.ReflOrd.compare_self, Std.ReflOrd.compare_self]
  · rw [Std.OrientedCmp.gt_iff_lt.mpr (compare_text_of_isBefore he hd hafter),
      Int.compare_eq_gt.mpr (dayNumber_lt_of_isBefore hafter)]

end Date

namespace Time

variable {t u : Time}

/-- The time is in no leap second. -/
def IsPlain (t : Time) : Prop := t.nanos < 1000000000

instance (t : Time) : Decidable t.IsPlain := inferInstanceAs (Decidable (_ < _))

/-- The nanoseconds from the start of 1970-01-01. -/
def instant (t : Time) : Int := t.seconds * 1000000000 + t.nanos

theorem toInt_toMillis_eq_instant (t : Time) : t.toMillis.toInt = t.instant / 1000000 := by
  rw [toInt_toMillis, instant]
  omega

/-- The millisecond in which a time lies, as a time. -/
theorem instant_ofMillis_toMillis (hplain : t.IsPlain) :
    (ofMillis t.toMillis).IsPlain ∧ (ofMillis t.toMillis).instant = t.instant / 1000000 * 1000000 := by
  have hseconds := t.seconds_range
  have hnanos : t.nanos < 1000000000 := hplain
  have hmillis := toInt_toMillis t
  rw [ofMillis, dif_pos (by omega), dif_pos (by omega)]
  unfold IsPlain instant
  simp only [hmillis]
  omega

end Time

end DocQuery
