import Mathlib.Algebra.Group.Nat.Defs
import DocQuery.Proofs.Double.Truncation
import DocQuery.Proofs.Selector.Comparators

/-!
# Remainder tests

A remainder test of a number gives an answer for every divisor but zero, and the remainder itself does not overflow, that
of the least integer by minus one included. What may go wrong comes before it. A double is clamped to 64 bits once it is
cut off, so past these bits the remainder is that of another integer, and an infinity or what is not a number has one
too. The answer is right for all divisors just if the number fits into 64 bits: two different integers of fewer than 1026
bits differ in their remainders by some divisor of 63 bits, since no such integer but zero has all of these divisors.
-/

namespace DocQuery

/-- The integer that a number is cut off to; the infinities and what is not a number have none. -/
def StoreValue.whole? : StoreValue → Option Int
  | .int32 n => some n.toInt
  | .int64 n => some n.toInt
  | .double x => x.whole?
  | _ => none

/-- Whether a number is finite and, cut off toward zero, has the given remainder, with the sign of the number. -/
def StoreValue.HasRemainder (v : StoreValue) (divisor remainder : Int) : Prop :=
  ∃ m, v.whole? = some m ∧ m.tmod divisor = remainder

/-- Whether a number is finite and, cut off toward zero, has at most 64 bits. -/
def StoreValue.FitsInt64 (v : StoreValue) : Prop :=
  ∃ m, v.whole? = some m ∧ Int64.minValue.toInt ≤ m ∧ m ≤ Int64.maxValue.toInt

variable {v p q : StoreValue} {a b k : Int64} {m : Int}

theorem StoreValue.natAbs_whole_lt (hwhole : v.whole? = some m) : m.natAbs < 1 <<< 1024 := by
  cases v with
  | int32 n =>
    cases hwhole
    have hrange : -0x80000000 ≤ n.toInt ∧ n.toInt < 0x80000000 := ⟨n.le_toInt, n.toInt_lt⟩
    omega
  | int64 n =>
    cases hwhole
    have hrange : -0x8000000000000000 ≤ n.toInt ∧ n.toInt < 0x8000000000000000 := ⟨n.le_toInt, n.toInt_lt⟩
    omega
  | double x => exact Double.natAbs_whole_lt hwhole
  | _ => cases hwhole

namespace Selector

/-! ### The integer that is tested -/

theorem exists_wholeNumber? (hnumber : v.number?.isSome = true) : ∃ k, wholeNumber? v = some k := by
  cases v with
  | int32 | int64 | double => exact ⟨_, rfl⟩
  | _ => cases hnumber

theorem toInt_wholeNumber? (hwhole : v.whole? = some m) (hk : wholeNumber? v = some k) : k.toInt = clampedInt64 m := by
  cases v with
  | int32 n =>
    cases hwhole
    cases hk
    rw [Int32.toInt_toInt64, clampedInt64_of_le]
    · exact Int.le_trans (by decide) n.le_toInt
    · exact Int.le_trans (Int.le_of_lt n.toInt_lt) (by decide)
  | int64 n =>
    cases hwhole
    cases hk
    exact (clampedInt64_of_le k.minValue_le_toInt k.toInt_le).symm
  | double x =>
    cases hk
    exact Double.toInt_truncate hwhole
  | _ => cases hwhole

theorem mod_eq_iff : k % a = b ↔ k.toInt.tmod a.toInt = b.toInt := by
  rw [← Int64.toInt_inj, Int64.toInt_mod]

theorem evaluate_remainder_of_number (hk : wholeNumber? v = some k) (hp : p.integer? = some a) (hq : q.integer? = some b)
    (ha : a ≠ 0) : evaluate (some v) .remainder (.array [p, q]) = .ok (k % a = b) := by
  have hoperand : divisorRemainder (.array [p, q]) [p, q] = .ok (a, b) := by
    simp only [divisorRemainder, List.map_cons, List.map_nil, hp, hq]
    exact if_neg ha
  show (divisorRemainder _ _ >>= _) = _
  rw [hoperand]
  show Except.ok ((wholeNumber? v).any _) = _
  rw [hk]
  rfl

end Selector

/-! ### Integers with the same remainders -/

theorem foldr_lcm_dvd {l : List Nat} {n : Nat} (hall : ∀ a ∈ l, a ∣ n) : l.foldr Nat.lcm 1 ∣ n := by
  induction l with
  | nil => exact Nat.one_dvd n
  | cons a rest ih =>
    rw [List.forall_mem_cons] at hall
    exact Nat.lcm_dvd hall.1 (ih hall.2)

/-- The largest numbers of 63 bits, enough of them that their least common multiple has more than 1025 bits. -/
def largeDivisors : List Nat := (List.range 20).map fun i => 0x7FFFFFFFFFFFFFFF - i

theorem exists_not_dvd {n : Nat} (hn : n ≠ 0) (hbits : n < 1 <<< 1025) : ∃ a ∈ largeDivisors, ¬ a ∣ n := by
  by_contra hnone
  have hall : ∀ a ∈ largeDivisors, a ∣ n := fun a ha => Decidable.not_not.mp fun hdvd => hnone ⟨a, ha, hdvd⟩
  have hlarge : 1 <<< 1025 ≤ largeDivisors.foldr Nat.lcm 1 := by decide +kernel
  have hle := Nat.le_of_dvd (Nat.pos_of_ne_zero hn) (foldr_lcm_dvd hall)
  omega

theorem dvd_sub_of_tmod_eq {m n d : Int} (hsame : m.tmod d = n.tmod d) : d ∣ m - n := by
  refine ⟨m.tdiv d - n.tdiv d, ?_⟩
  rw [Int.mul_sub]
  have hm := Int.tmod_add_mul_tdiv m d
  have hn := Int.tmod_add_mul_tdiv n d
  omega

/-- Some divisor of 64 bits tells an integer that has more of them from what it is clamped to. -/
theorem exists_tmod_ne (hbits : m.natAbs < 1 <<< 1024) (hclamped : clampedInt64 m ≠ m) :
    ∃ a : Int64, a ≠ 0 ∧ m.tmod a.toInt ≠ (clampedInt64 m).tmod a.toInt := by
  have hdifference : (m - clampedInt64 m).natAbs ≠ 0 := by omega
  have hsmall : (m - clampedInt64 m).natAbs < 1 <<< 1025 := by
    have hends : Int64.minValue.toInt = -0x8000000000000000 ∧ Int64.maxValue.toInt = 0x7FFFFFFFFFFFFFFF := ⟨rfl, rfl⟩
    unfold clampedInt64
    omega
  obtain ⟨a, ha, hdvd⟩ := exists_not_dvd hdifference hsmall
  have hrange : 0 < a ∧ a ≤ 0x7FFFFFFFFFFFFFFF := by
    obtain ⟨i, hi, rfl⟩ := List.mem_map.mp ha
    rw [List.mem_range] at hi
    omega
  have hvalue : (Int64.ofInt a).toInt = a := Int64.toInt_ofInt_of_le (by omega) (by omega)
  refine ⟨Int64.ofInt a, ?_, fun hsame => hdvd ?_⟩
  · intro hzero
    rw [hzero] at hvalue
    have : (0 : Int64).toInt = 0 := rfl
    omega
  · rw [hvalue] at hsame
    exact Int.ofNat_dvd_left.mp (dvd_sub_of_tmod_eq hsame)

/-- The remainder of the integer that is tested is not that of the number for some divisor, unless the number fits into
64 bits. -/
theorem StoreValue.exists_wrong_remainder (hbeyond : ¬ v.FitsInt64) (hk : Selector.wholeNumber? v = some k) :
    ∃ a : Int64, a ≠ 0 ∧ ¬ v.HasRemainder a.toInt (k % a).toInt := by
  cases hwhole : v.whole? with
  | none =>
    refine ⟨1, by decide, ?_⟩
    rintro ⟨m, hm, -⟩
    rw [hwhole] at hm
    cases hm
  | some m =>
    have hvalue := Selector.toInt_wholeNumber? hwhole hk
    have hclamped : clampedInt64 m ≠ m := by
      intro hsame
      rw [hsame] at hvalue
      exact hbeyond ⟨m, hwhole, hvalue ▸ k.minValue_le_toInt, hvalue ▸ k.toInt_le⟩
    obtain ⟨a, ha, hne⟩ := exists_tmod_ne (StoreValue.natAbs_whole_lt hwhole) hclamped
    refine ⟨a, ha, ?_⟩
    rintro ⟨m', hm', hremainder⟩
    cases hwhole.symm.trans hm'
    rw [Int64.toInt_mod, hvalue] at hremainder
    exact hne hremainder

namespace Document

open Comparison

variable {d : Document} {path : String}

/-- A remainder test of a number gives an answer for every divisor but zero. If the number fits into 64 bits, the answer
is the remainder of the number, computed without bounds, and otherwise it is not for some divisor and remainder. -/
theorem remainders_right_iff_fits (d : Document) (path : String) (v : StoreValue) (hfield : d.lookUp? path = some v)
    (hnumber : v.number?.isSome = true) :
    (∀ p q a b, p.integer? = some a → q.integer? = some b → a ≠ 0 →
      ∃ passed, d.satisfies (remainder.selector path (.array [p, q])) = .ok passed ∧
        (v.FitsInt64 → (passed = true ↔ v.HasRemainder a.toInt b.toInt))) ∧
    (¬ v.FitsInt64 → ∃ a b : Int64, a ≠ 0 ∧
      d.satisfies (remainder.selector path (.array [.int64 a, .int64 b])) = .ok true ∧
      ¬ v.HasRemainder a.toInt b.toInt) := by
  obtain ⟨k, hk⟩ := Selector.exists_wholeNumber? hnumber
  have hanswer : ∀ p q a b, p.integer? = some a → q.integer? = some b → a ≠ 0 →
      d.satisfies (remainder.selector path (.array [p, q])) = .ok (k % a = b) := by
    intro p q a b hp hq ha
    rw [satisfies_selector, hfield]
    exact Selector.evaluate_remainder_of_number hk hp hq ha
  refine ⟨fun p q a b hp hq ha => ⟨_, hanswer p q a b hp hq ha, ?_⟩, fun hbeyond => ?_⟩
  · rintro ⟨m, hwhole, hlow, hhigh⟩
    have hvalue : k.toInt = m := by rw [Selector.toInt_wholeNumber? hwhole hk, clampedInt64_of_le hlow hhigh]
    rw [decide_eq_true_iff, Selector.mod_eq_iff, hvalue, StoreValue.HasRemainder, hwhole]
    simp
  · obtain ⟨a, ha, hwrong⟩ := StoreValue.exists_wrong_remainder hbeyond hk
    refine ⟨a, k % a, ha, ?_, hwrong⟩
    rw [hanswer _ _ a (k % a) rfl rfl ha]
    simp

/-! ### The least integer and an even double -/

/-- The double is `2 ^ 64`. -/
def extremes : Document := [("least", .int64 Int64.minValue), ("even", .double ⟨0x43F0000000000000⟩)]

theorem lookUp?_extremes : extremes.lookUp? "least" = some (.int64 Int64.minValue) ∧
    extremes.lookUp? "even" = some (.double ⟨0x43F0000000000000⟩) :=
  ⟨(lookUp?_of_plain _ (by decide)).trans rfl, (lookUp?_of_plain _ (by decide)).trans rfl⟩

theorem whole?_even : (StoreValue.double ⟨0x43F0000000000000⟩).whole? = some 0x10000000000000000 := by decide +kernel

/-- The quotient of the least integer and minus one does not fit into 64 bits, and the remainder is right. -/
theorem extremes_tested :
    extremes.satisfies (remainder.selector "least" (.array [.int32 (-1), .int64 0])) = .ok true ∧
    ∃ a b : Int64, a ≠ 0 ∧
      extremes.satisfies (remainder.selector "even" (.array [.int64 a, .int64 b])) = .ok true ∧
      ¬ (StoreValue.double ⟨0x43F0000000000000⟩).HasRemainder a.toInt b.toInt := by
  obtain ⟨hleast, -⟩ := remainders_right_iff_fits extremes "least" _ lookUp?_extremes.1 rfl
  obtain ⟨-, heven⟩ := remainders_right_iff_fits extremes "even" _ lookUp?_extremes.2 rfl
  obtain ⟨passed, hpassed, hright⟩ := hleast (.int32 (-1)) (.int64 0) (-1) 0 rfl rfl (by decide)
  have htrue : passed = true := (hright ⟨_, rfl, by decide⟩).mpr ⟨_, rfl, rfl⟩
  refine ⟨by rw [hpassed, htrue], heven ?_⟩
  rintro ⟨m, hm, -, hhigh⟩
  cases whole?_even.symm.trans hm
  exact absurd hhigh (by decide)

theorem even_number_passes_for_odd :
    ¬ ∀ (d : Document) (path : String) (v : StoreValue) (a b : Int64), d.lookUp? path = some v →
      v.number?.isSome = true → a ≠ 0 →
      (d.satisfies (remainder.selector path (.array [.int64 a, .int64 b])) = .ok true ↔
        v.HasRemainder a.toInt b.toInt) := by
  intro hclaim
  have hpasses : extremes.satisfies (remainder.selector "even" (.array [.int64 2, .int64 1])) = .ok true := by
    rw [satisfies_selector, lookUp?_extremes.2]
    rfl
  obtain ⟨m, hm, hodd⟩ := (hclaim extremes "even" _ 2 1 lookUp?_extremes.2 rfl (by decide)).mp hpasses
  cases whole?_even.symm.trans hm
  exact absurd hodd (by decide)

end Document

end DocQuery
