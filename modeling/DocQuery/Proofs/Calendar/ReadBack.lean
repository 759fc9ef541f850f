import DocQuery.Calendar.TimeText
import DocQuery.Proofs.Text.Numeral

/-!
# Reading dates and times back

The text of a date reads as the date in the whole range of the calendar: a year outside of four digits is led by a
sign, after which the reader takes all digits there are. A time of whole milliseconds outside of leap seconds is the
one that its milliseconds give, before 1970 as well, since both directions round down. The milliseconds of any time are
those of the time that they give, but for a leap second after the last second of the calendar, whose milliseconds are
past the calendar.
-/

namespace DocQuery

namespace Date

open Text

theorem takeYear_of_isDigit {c : Char} (hc : c.isDigit = true) (cs : List Char) :
    takeYear (c :: cs) = (takeNumber 1 4 (c :: cs)).map fun (n, rest) => ((n : Int), rest) := by
  unfold takeYear
  split
  · next heq =>
    cases heq
    exact absurd hc (by decide)
  · next heq =>
    cases heq
    exact absurd hc (by decide)
  · rfl

theorem takeYear_yearText (year : Int) {rest : List Char} (hrest : EndsDigits rest) :
    takeYear (yearText year ++ rest) = some (year, rest) := by
  have hsigned : ∀ {cs : List Char}, cs = padded 4 year.natAbs ++ rest →
      takeNumber 1 cs.length cs = some (year.natAbs, rest) := by
    rintro _ rfl
    apply takeNumber_padded hrest
    · omega
    · rw [List.length_append, length_padded]
      omega
  rw [yearText]
  split
  · next hplain =>
    obtain ⟨c, cs, hcs⟩ := List.exists_cons_of_ne_nil (padded_ne_nil 4 year.natAbs)
    have hc : c.isDigit = true := isDigit_of_mem_padded (hcs ▸ List.mem_cons_self)
    have hdigits : (digits year.natAbs).length ≤ 4 := length_digits_le (by decide) (by simp; omega)
    rw [hcs, List.cons_append, takeYear_of_isDigit hc, ← List.cons_append, ← hcs,
      takeNumber_padded hrest (by omega) (by omega)]
    simp only [Option.map_some, Option.some.injEq, Prod.mk.injEq, and_true]
    omega
  · split
    · simp only [List.cons_append, takeYear, hsigned rfl, Option.map_some, Option.some.injEq, Prod.mk.injEq, and_true]
      omega
    · simp only [List.cons_append, takeYear, hsigned rfl, Option.map_some, Option.some.injEq, Prod.mk.injEq, and_true]
      omega

theorem skipBlanks_yearText (year : Int) (rest : List Char) :
    skipBlanks (yearText year ++ rest) = yearText year ++ rest := by
  rw [yearText]
  split
  · exact skipBlanks_padded 4 _ rest
  · split
    · exact skipBlanks_cons (by decide) _
    · exact skipBlanks_cons (by decide) _

/-- The two digits of a month or of a day read as its number. -/
theorem takeNumber_two {n : Nat} (hn : n ≤ 31) {rest : List Char} (hrest : EndsDigits rest) :
    takeNumber 1 2 (skipBlanks (padded 2 n ++ rest)) = some (n, rest) := by
  have hdigits : (digits n).length ≤ 2 := length_digits_le (by decide) (by simp; omega)
  rw [skipBlanks_padded, takeNumber_padded hrest (by omega) (by omega)]

theorem monthLength_le (year : Int) (month : Nat) : monthLength year month ≤ 31 := by
  unfold monthLength
  split
  · split <;> decide
  all_goals decide

/-- The text of a date reads as the date. -/
theorem ofText?_chars (d : Date) : ofText? d.chars = some d := by
  have hmonth : d.month ≤ 31 := by
    have := d.month_range
    omega
  have hday : d.day ≤ 31 := Nat.le_trans d.day_range.2 (monthLength_le _ _)
  have hhyphen : ∀ cs, EndsDigits ('-' :: cs) := by simp [EndsDigits]
  have hend : EndsDigits [] := by simp [EndsDigits]
  have hshape : d.chars = yearText d.year ++ '-' :: (padded 2 d.month ++ '-' :: (padded 2 d.day ++ [])) := by
    simp [chars, yearMonthDay]
  rw [hshape, ofText?, skipBlanks_yearText, takeYear_yearText _ (hhyphen _)]
  simp only [Option.bind_eq_bind, Option.bind_some, takeChar, if_true, takeNumber_two hmonth (hhyphen _),
    takeNumber_two hday hend, List.isEmpty_nil, make?_parts]

end Date

namespace Time

/-- The time is a whole number of milliseconds, and in no leap second. -/
def IsWhole (t : Time) : Prop := t.nanos < 1000000000 ∧ t.nanos % 1000000 = 0

instance (t : Time) : Decidable t.IsWhole := inferInstanceAs (Decidable (_ ∧ _))

/-- The milliseconds of a time do not overflow. -/
theorem toInt_toMillis (t : Time) : t.toMillis.toInt = t.seconds * 1000 + t.nanos / 1000000 := by
  have hseconds := t.seconds_range
  have hnanos := t.nanos_lt
  unfold firstSecond lastSecond at hseconds
  rw [toMillis, Int64.toInt_ofInt_of_le]
  · simp; omega
  · simp; omega

theorem ofMillis_toMillis {t : Time} (hwhole : t.IsWhole) : ofMillis t.toMillis = t := by
  obtain ⟨hnanos, hmillis⟩ := hwhole
  have hseconds := t.seconds_range
  have htotal := toInt_toMillis t
  rw [ofMillis, dif_pos, dif_pos]
  · ext
    · simp only [htotal]
      omega
    · simp only [htotal]
      omega
  · rw [htotal]
    omega
  · rw [htotal]
    omega

/-- Milliseconds past the ends of the calendar are stored again as those of its ends. -/
theorem toInt_toMillis_ofMillis (n : Int64) :
    (ofMillis n).toMillis.toInt = max (firstSecond * 1000) (min n.toInt ((lastSecond + 1) * 1000 - 1)) := by
  rw [toInt_toMillis, ofMillis]
  have hends : firstSecond < lastSecond := by decide
  split
  · split
    · simp only
      omega
    · simp only [last]
      omega
  · simp only [first]
    omega

/-- The time is in a leap second after the last second of the calendar. -/
def IsBeyond (t : Time) : Prop := t.seconds = lastSecond ∧ 1000000000 ≤ t.nanos

instance (t : Time) : Decidable t.IsBeyond := inferInstanceAs (Decidable (_ ∧ _))

/-- The milliseconds of a time are stored again as they are, unless they are past the calendar. -/
theorem toMillis_ofMillis_toMillis_iff {t : Time} : (ofMillis t.toMillis).toMillis = t.toMillis ↔ ¬ t.IsBeyond := by
  have hseconds := t.seconds_range
  have hnanos := t.nanos_lt
  rw [← Int64.toInt_inj, toInt_toMillis_ofMillis, toInt_toMillis, IsBeyond]
  omega

theorem not_isBeyond_ofDate (d : Date) : ¬ (ofDate d).IsBeyond := by
  rintro ⟨-, hnanos⟩
  cases hnanos

end Time

end DocQuery
