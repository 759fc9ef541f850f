import DocQuery.Proofs.Calendar.ReadBack
import DocQuery.Proofs.Text.Reading

/-!
# Texts of dates and times, trimmed

Dates and times are trimmed before they are stored and are not when they are read. That makes no difference to a text
that reads as one: it ends with a digit or a letter, a time starts with a digit, and the blanks before a date are skipped
anyway. So a text that is stored as it is, since it reads as nothing when trimmed, is read as a text again. A time that
is read from a text is far from the end of the calendar, as its year is read from four digits.
-/

namespace DocQuery

open Text

variable {cs rest : List Char}

namespace Date

variable {d : Date}

theorem suffix_of_takeYear {year : Int} (htake : takeYear cs = some (year, rest)) : rest <:+ cs := by
  unfold takeYear at htake
  split at htake
  all_goals obtain ⟨n, hnumber, -⟩ := exists_of_map_eq_some htake fun _ => rfl
  · exact (suffix_of_takeNumber hnumber).trans (List.suffix_cons _ _)
  · exact (suffix_of_takeNumber hnumber).trans (List.suffix_cons _ _)
  · exact suffix_of_takeNumber hnumber

theorem endsFilled_of_ofText? (hread : ofText? cs = some d) : EndsFilled cs := by
  obtain ⟨year, afterYear, hyear, hread⟩ := exists_of_bind_eq_some hread
  obtain ⟨atMonth, hhyphen, hread⟩ := Option.bind_eq_some_iff.mp hread
  obtain ⟨month, afterMonth, hmonth, hread⟩ := exists_of_bind_eq_some hread
  obtain ⟨atDay, hhyphen', hread⟩ := Option.bind_eq_some_iff.mp hread
  obtain ⟨day, afterDay, hday, hend⟩ := exists_of_bind_eq_some hread
  simp only [Option.ite_none_right_eq_some, List.isEmpty_iff] at hend
  obtain ⟨rfl, -⟩ := hend
  have hmonths : atMonth <:+ cs :=
    (suffix_of_takeChar hhyphen).trans ((suffix_of_takeYear hyear).trans (skipBlanks_suffix cs))
  have hdays : atDay <:+ cs :=
    (suffix_of_takeChar hhyphen').trans ((suffix_of_takeNumber hmonth).trans ((skipBlanks_suffix atMonth).trans hmonths))
  exact (endsFilled_of_takeNumber (by decide) hday).of_suffix ((skipBlanks_suffix atDay).trans hdays)

theorem ofText?_skipBlanks (cs : List Char) : ofText? (skipBlanks cs) = ofText? cs := by
  rw [ofText?, ofText?, skipBlanks_of_startsFilled (startsFilled_skipBlanks cs)]

theorem ofText?_trim (hread : ofText? cs = some d) : ofText? (trim cs) = some d := by
  rw [trim_of_endsFilled (endsFilled_of_ofText? hread), ofText?_skipBlanks, hread]

theorem year_of_make? {year : Int} {month day : Nat} (hmake : make? year month day = some d) : d.year = year := by
  unfold make? at hmake
  split at hmake
  · split at hmake
    · split at hmake
      · rw [← Option.some.inj hmake]
      · cases hmake
    · cases hmake
  · cases hmake

theorem dayNumber_lt_of_year_le (hyear : d.year ≤ 9999) : d.dayNumber < 2932897 := by
  have hbounds := dayNumber_bounds d
  have hmono := daysBeforeYear_mono (Int.add_le_add_right hyear 1)
  have hlast : daysBeforeYear (9999 + 1) = 2932897 + epochOffset := by decide
  omega

end Date

namespace Time

variable {t : Time}

/-! ### Offsets -/

/-- The minutes that are read are those of less than a day, and a text that ends with them ends with a digit. -/
theorem of_takeHoursMinutes {n : Nat} (htake : takeHoursMinutes cs = some (n, rest)) :
    n < 1440 ∧ (rest = [] → EndsFilled cs) := by
  obtain ⟨hours, afterHours, hhours, htake⟩ := exists_of_bind_eq_some htake
  obtain ⟨atMinutes, hcolon, htake⟩ := Option.bind_eq_some_iff.mp htake
  obtain ⟨minutes, afterMinutes, hminutes, hend⟩ := exists_of_bind_eq_some htake
  simp only [Option.ite_none_right_eq_some, Option.some.injEq, Prod.mk.injEq] at hend
  obtain ⟨hrange, rfl, rfl⟩ := hend
  refine ⟨by omega, ?_⟩
  rintro rfl
  have hsuffix : atMinutes <:+ cs := (suffix_of_takeChar hcolon).trans (suffix_of_takeNumber hhours)
  exact (endsFilled_of_takeNumber (by decide) hminutes).of_suffix hsuffix

theorem of_takeOffset {offset : Int} (htake : takeOffset cs = some (offset, rest)) :
    -1440 < offset ∧ (rest = [] → EndsFilled cs) := by
  cases cs with
  | nil => cases htake
  | cons c cs =>
    rw [takeOffset] at htake
    split at htake
    · next hletter =>
      cases htake
      refine ⟨by decide, ?_⟩
      rintro rfl
      exact ⟨c, rfl, by rcases hletter with rfl | rfl <;> decide⟩
    · split at htake
      · obtain ⟨n, hminutes, heq⟩ := exists_of_map_eq_some htake fun _ => rfl
        have hoffset : (n : Int) = offset := heq
        obtain ⟨-, hend⟩ := of_takeHoursMinutes hminutes
        exact ⟨by omega, fun hrest => (hend hrest).of_suffix (List.suffix_cons c cs)⟩
      · split at htake
        · obtain ⟨n, hminutes, heq⟩ := exists_of_map_eq_some htake fun _ => rfl
          have hoffset : -(n : Int) = offset := heq
          obtain ⟨hday, hend⟩ := of_takeHoursMinutes hminutes
          exact ⟨by omega, fun hrest => (hend hrest).of_suffix (List.suffix_cons c cs)⟩
        · cases htake

/-! ### Times -/

theorem suffix_of_takeSeparator (htake : takeSeparator cs = some rest) : rest <:+ cs := by
  cases cs with
  | nil => cases htake
  | cons c cs =>
    simp only [takeSeparator, Option.ite_none_right_eq_some, Option.some.injEq] at htake
    rw [← htake.2]
    exact List.suffix_cons c cs

theorem suffix_of_takeFraction {nanos : Nat} (htake : takeFraction cs = some (nanos, rest)) : rest <:+ cs := by
  unfold takeFraction at htake
  split at htake
  · next cs =>
    obtain ⟨run, hdigits, -⟩ := exists_of_map_eq_some htake fun _ => rfl
    rw [(takeDigits_eq_some hdigits).1]
    exact (List.suffix_append run rest).trans (List.suffix_cons _ _)
  · cases htake
    exact List.suffix_rfl

theorem seconds_of_make? {seconds : Int} {nanos : Nat} (hmake : make? seconds nanos = some t) : t.seconds = seconds := by
  unfold make? at hmake
  split at hmake
  · split at hmake
    · rw [← Option.some.inj hmake]
    · cases hmake
  · cases hmake

/-- A text that reads as a time has no blank at its ends, and the time is less than two days after the start of a day in
a year of four digits. -/
theorem of_ofText? (hread : ofText? cs = some t) :
    StartsFilled cs ∧ EndsFilled cs ∧ ∃ d : Date, d.year ≤ 9999 ∧ t.seconds < (d.dayNumber + 2) * 86400 := by
  obtain ⟨year, afterYear, hyear, hread⟩ := exists_of_bind_eq_some hread
  obtain ⟨atMonth, hhyphen, hread⟩ := Option.bind_eq_some_iff.mp hread
  obtain ⟨month, afterMonth, hmonth, hread⟩ := exists_of_bind_eq_some hread
  obtain ⟨atDay, hhyphen', hread⟩ := Option.bind_eq_some_iff.mp hread
  obtain ⟨day, afterDay, hday, hread⟩ := exists_of_bind_eq_some hread
  obtain ⟨atHour, hseparator, hread⟩ := Option.bind_eq_some_iff.mp hread
  obtain ⟨hour, afterHour, hhour, hread⟩ := exists_of_bind_eq_some hread
  obtain ⟨atMinute, hcolon, hread⟩ := Option.bind_eq_some_iff.mp hread
  obtain ⟨minute, afterMinute, hminute, hread⟩ := exists_of_bind_eq_some hread
  obtain ⟨atSecond, hcolon', hread⟩ := Option.bind_eq_some_iff.mp hread
  obtain ⟨second, afterSecond, hsecond, hread⟩ := exists_of_bind_eq_some hread
  obtain ⟨nanos, atOffset, hfraction, hread⟩ := exists_of_bind_eq_some hread
  obtain ⟨offset, afterOffset, hoffset, hread⟩ := exists_of_bind_eq_some hread
  obtain ⟨d, hd, hend⟩ := Option.bind_eq_some_iff.mp hread
  -- Only the last reader sees the end of the text, and what it reads is a suffix of all that came before.
  simp only [Option.ite_none_right_eq_some, Bool.and_eq_true, List.isEmpty_iff, decide_eq_true_eq] at hend
  obtain ⟨⟨⟨⟨rfl, hhours⟩, hminutes⟩, -⟩, hmake⟩ := hend
  have htime : atHour <:+ cs :=
    (suffix_of_takeSeparator hseparator).trans ((suffix_of_takeNumber hday).trans ((suffix_of_takeChar hhyphen').trans
      ((suffix_of_takeNumber hmonth).trans ((suffix_of_takeChar hhyphen).trans (suffix_of_takeNumber hyear)))))
  have hlast : atOffset <:+ atHour :=
    (suffix_of_takeFraction hfraction).trans ((suffix_of_takeNumber hsecond).trans ((suffix_of_takeChar hcolon').trans
      ((suffix_of_takeNumber hminute).trans ((suffix_of_takeChar hcolon).trans (suffix_of_takeNumber hhour)))))
  obtain ⟨hbound, hfilled⟩ := of_takeOffset hoffset
  refine ⟨startsFilled_of_takeNumber (by decide) hyear, (hfilled rfl).of_suffix (hlast.trans htime), d, ?_, ?_⟩
  · obtain ⟨-, -, -, -, hdigits⟩ := takeNumber_eq_some hyear
    rw [Date.year_of_make? hd]
    omega
  · rw [seconds_of_make? hmake]
    omega

theorem trim_of_ofText? (hread : ofText? cs = some t) : trim cs = cs := by
  obtain ⟨hstart, hend, -⟩ := of_ofText? hread
  rw [trim_of_endsFilled hend, skipBlanks_of_startsFilled hstart]

theorem not_isBeyond_of_ofText? (hread : ofText? cs = some t) : ¬ t.IsBeyond := by
  obtain ⟨-, -, d, hyear, hseconds⟩ := of_ofText? hread
  have hday := Date.dayNumber_lt_of_year_le hyear
  rintro ⟨hlast, -⟩
  unfold lastSecond at hlast
  omega

end Time

end DocQuery
