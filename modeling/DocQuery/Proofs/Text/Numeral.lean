import Mathlib.Algebra.Group.Nat.Defs
import DocQuery.Text.Numeral

/-!
# Padded numerals

A numeral that is led by zeros reads as its number, from the front of any text that does not go on with a digit, as
long as the reader takes enough digits. Skipping blanks leaves it as it is. Numerals that are filled up to one width are
ordered as their numbers.
-/

namespace DocQuery.Text

theorem toNat_of_isDigit {c : Char} (hc : c.isDigit = true) : 48 ≤ c.toNat ∧ c.toNat ≤ 57 := by
  simpa [Char.isDigit, UInt32.le_iff_toNat_le] using hc

theorem isBlank_of_isDigit {c : Char} (hc : c.isDigit = true) : isBlank c = false := by
  have hrange := toNat_of_isDigit hc
  simp only [isBlank, blankRanges, List.any_cons, List.any_nil, Bool.or_eq_false_iff, Bool.and_eq_false_iff,
    decide_eq_false_iff_not, and_true]
  omega

theorem skipBlanks_cons {c : Char} (hc : isBlank c = false) (cs : List Char) : skipBlanks (c :: cs) = c :: cs := by
  simp [skipBlanks, hc]

/-! ### Padded numerals -/

theorem length_digits_le {n k : Nat} (hk : 0 < k) (hn : n < Nat.pow 10 k) : (digits n).length ≤ k :=
  (Nat.length_toDigits_le_iff (by decide) hk).mpr hn

theorem lt_pow_length_digits (n : Nat) : n < 10 ^ (digits n).length := by
  have hne : digits n ≠ [] := by simp [digits]
  exact (Nat.length_toDigits_le_iff (by decide) (List.length_pos_iff.mpr hne)).mp (Nat.le_refl _)

theorem pow_length_digits_le {n : Nat} (hn : n ≠ 0) : 10 ^ ((digits n).length - 1) ≤ n := by
  rcases Nat.eq_zero_or_pos ((digits n).length - 1) with hone | hmore
  · rw [hone]
    exact Nat.one_le_iff_ne_zero.mpr hn
  · refine Nat.le_of_not_lt fun hlt => ?_
    have hlength := length_digits_le hmore hlt
    omega

theorem isDigit_of_mem_padded {width n : Nat} {c : Char} (hc : c ∈ padded width n) : c.isDigit = true := by
  rcases List.mem_append.mp hc with hzero | hdigit
  · rw [List.eq_of_mem_replicate hzero]
    decide
  · exact Nat.isDigit_of_mem_toDigits (by decide) (by decide) hdigit

theorem ofDigitChars_padded (width n : Nat) : Nat.ofDigitChars 10 (padded width n) 0 = n := by
  rw [padded, Nat.ofDigitChars_append, Nat.ofDigitChars_replicate_zero, Nat.mul_zero]
  exact Nat.ofDigitChars_ten_toDigits

theorem length_padded (width n : Nat) : (padded width n).length = max width (digits n).length := by
  simp only [padded, List.length_append, List.length_replicate]
  omega

theorem padded_ne_nil (width n : Nat) : padded width n ≠ [] := by
  simp [padded, digits]

theorem skipBlanks_padded (width n : Nat) (rest : List Char) :
    skipBlanks (padded width n ++ rest) = padded width n ++ rest := by
  obtain ⟨c, cs, hcs⟩ := List.exists_cons_of_ne_nil (padded_ne_nil width n)
  have hc : c.isDigit = true := isDigit_of_mem_padded (hcs ▸ List.mem_cons_self)
  rw [hcs, List.cons_append, skipBlanks_cons (isBlank_of_isDigit hc)]

/-! ### Reading -/

/-- A text does not go on with a digit. -/
def EndsDigits (rest : List Char) : Prop := ∀ c ∈ rest.head?, c.isDigit = false

theorem takeWhile_isDigit_append {run rest : List Char} (hrun : ∀ c ∈ run, c.isDigit = true) (hrest : EndsDigits rest) :
    (run ++ rest).takeWhile Char.isDigit = run := by
  rw [List.takeWhile_append_of_pos hrun]
  cases rest with
  | nil => simp
  | cons c cs =>
    have hc : c.isDigit = false := hrest c rfl
    simp [hc]

theorem EndsDigits.take {rest : List Char} (hrest : EndsDigits rest) (k : Nat) : EndsDigits (rest.take k) := by
  cases rest with
  | nil => simpa using hrest
  | cons c cs =>
    cases k with
    | zero => simp [EndsDigits]
    | succ k => simpa [EndsDigits] using hrest

theorem takeDigits_append {least most : Nat} {run rest : List Char} (hrun : ∀ c ∈ run, c.isDigit = true)
    (hrest : EndsDigits rest) (hleast : least ≤ run.length) (hmost : run.length ≤ most) :
    takeDigits least most (run ++ rest) = some (run, rest) := by
  have htaken : ((run ++ rest).take most).takeWhile Char.isDigit = run := by
    rw [List.take_append, List.take_of_length_le hmost, takeWhile_isDigit_append hrun (hrest.take _)]
  simp [takeDigits, htaken, hleast]

/-- A padded numeral reads as its number. -/
theorem takeNumber_padded {least most width n : Nat} {rest : List Char} (hrest : EndsDigits rest)
    (hleast : least ≤ max width (digits n).length) (hmost : max width (digits n).length ≤ most) :
    takeNumber least most (padded width n ++ rest) = some (n, rest) := by
  rw [← length_padded] at hleast hmost
  rw [takeNumber, takeDigits_append (fun _ => isDigit_of_mem_padded) hrest hleast hmost]
  simp only [Option.map_some, ofDigitChars_padded]

/-! ### The order of padded numerals -/

theorem digitChar_lt_digitChar {m n : Nat} (hmn : m < n) (hn : n < 10) : Nat.digitChar m < Nat.digitChar n := by
  have hall : ∀ n < 10, ∀ m < n, Nat.digitChar m < Nat.digitChar n := by decide
  exact hall n hn m hmn

theorem padded_one {n : Nat} (hn : n < 10) : padded 1 n = [Nat.digitChar n] := by
  simp [padded, digits, Nat.toDigits_of_lt_base hn]

/-- The last digit of a padded numeral stands behind the numeral of the tens. -/
theorem padded_succ (k n : Nat) : padded (k + 1 + 1) n = padded (k + 1) (n / 10) ++ [Nat.digitChar (n % 10)] := by
  by_cases hn : n < 10
  · have htens : n / 10 = 0 := Nat.div_eq_of_lt hn
    rw [htens, Nat.mod_eq_of_lt hn]
    simp [padded, digits, Nat.toDigits_of_lt_base hn, List.replicate_succ']
  · rw [padded, padded, digits, Nat.toDigits_of_base_le (by decide) (by omega), digits, List.length_append,
      List.length_singleton, Nat.add_sub_add_right, List.append_assoc]

/-- Numerals of one width are ordered as their numbers, whatever follows them. -/
theorem padded_append_lt {k m n : Nat} (hmn : m < n) (hn : n < 10 ^ (k + 1)) (cs ds : List Char) :
    padded (k + 1) m ++ cs < padded (k + 1) n ++ ds := by
  induction k generalizing m n cs ds with
  | zero =>
    rw [padded_one (by omega), padded_one (by omega)]
    exact List.cons_lt_cons_iff.mpr (.inl (digitChar_lt_digitChar hmn (by omega)))
  | succ k ih =>
    rw [padded_succ, padded_succ, List.append_assoc, List.append_assoc]
    by_cases htens : m / 10 < n / 10
    · exact ih htens (by rw [Nat.pow_succ] at hn; omega) _ _
    · -- The tens are the same, so the last digits differ.
      have hsame : m / 10 = n / 10 := by omega
      rw [hsame]
      refine List.append_left_lt ?_
      exact List.cons_lt_cons_iff.mpr (.inl (digitChar_lt_digitChar (by omega) (by omega)))

end DocQuery.Text
