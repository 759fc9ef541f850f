import Mathlib.Algebra.Group.Nat.Defs
import DocQuery.Double.Basic

/-!
# The bits of a double below its sign

Read as a number, the bits below the sign order the doubles by their distance from zero, infinity behind all finite ones
included. The exponent of a double can be read off this distance, and then the fraction, so the distance and the sign
tell which double it is.
-/

namespace DocQuery.Double

variable {x y : Double} {negative : Bool} {m s shift : Nat}

/-! ### The distance from zero -/

theorem spacing_eq (x : Double) : x.spacing = 2 ^ (x.exponentField - 1) := by rw [spacing, Nat.one_shiftLeft]

theorem fractionField_lt (x : Double) : x.fractionField < exponentUnit := Nat.mod_lt _ (by decide)

theorem steps_lt (x : Double) : x.steps < exponentUnit * 2 ^ x.exponentField := by
  have hfraction := x.fractionField_lt
  rw [steps, spacing_eq, significand]
  cases x.exponentField with
  | zero => simpa using hfraction
  | succ e =>
    rw [if_neg (Nat.succ_ne_zero e), Nat.succ_sub_one, Nat.pow_succ', ← Nat.mul_assoc]
    exact Nat.mul_lt_mul_of_pos_right (by omega) (Nat.two_pow_pos e)

theorem le_steps (hexponent : x.exponentField ≠ 0) : exponentUnit * 2 ^ (x.exponentField - 1) ≤ x.steps := by
  rw [steps, spacing_eq, significand, if_neg hexponent]
  exact Nat.mul_le_mul_right _ (Nat.le_add_right ..)

theorem steps_lt_steps (hexponent : x.exponentField < y.exponentField) : x.steps < y.steps :=
  calc x.steps < exponentUnit * 2 ^ x.exponentField := x.steps_lt
    _ ≤ exponentUnit * 2 ^ (y.exponentField - 1) := Nat.mul_le_mul_left _ (Nat.pow_le_pow_right (by decide) (by omega))
    _ ≤ y.steps := le_steps (by omega)

theorem steps_lt_of_magnitude (hlt : x.magnitude < y.magnitude) : x.steps < y.steps := by
  rcases Nat.lt_or_eq_of_le (Nat.div_le_div_right (c := exponentUnit) (Nat.le_of_lt hlt)) with hexponent | hexponent
  · exact steps_lt_steps hexponent
  · have hfraction : x.fractionField < y.fractionField := by
      have hx := Nat.div_add_mod x.magnitude exponentUnit
      have hy := Nat.div_add_mod y.magnitude exponentUnit
      rw [hexponent] at hx
      unfold fractionField
      omega
    have hsignificand : x.significand < y.significand := by
      change x.exponentField = y.exponentField at hexponent
      rw [significand, significand, hexponent]
      split <;> omega
    rw [steps, steps, spacing_eq, spacing_eq, exponentField, exponentField, hexponent]
    exact Nat.mul_lt_mul_of_pos_right hsignificand (Nat.two_pow_pos _)

theorem magnitude_eq_of_steps (hsteps : x.steps = y.steps) : x.magnitude = y.magnitude := by
  rcases Nat.lt_trichotomy x.magnitude y.magnitude with hlt | heq | hgt
  · exact absurd hsteps (Nat.ne_of_lt (steps_lt_of_magnitude hlt))
  · exact heq
  · exact absurd hsteps (Nat.ne_of_gt (steps_lt_of_magnitude hgt))

theorem steps_of_magnitude (heq : x.magnitude = y.magnitude) : x.steps = y.steps := by
  rw [steps, steps, spacing, spacing, significand, significand, fractionField, fractionField, exponentField, exponentField,
    heq]

theorem steps_eq_zero_iff : x.steps = 0 ↔ x.magnitude = 0 := by
  have hunit : 0 < exponentUnit := by decide
  have hmagnitude := Nat.div_add_mod x.magnitude exponentUnit
  have hspacing : 0 < x.spacing := by
    rw [spacing_eq]
    exact Nat.two_pow_pos _
  rw [steps, Nat.mul_eq_zero, or_iff_left (Nat.ne_of_gt hspacing), significand, exponentField, fractionField]
  constructor
  · intro hsignificand
    split at hsignificand
    · next hexponent =>
      rw [← hmagnitude, hexponent, hsignificand]
      rfl
    · omega
  · intro hzero
    rw [hzero]
    rfl

/-! ### Doubles from their bits -/

theorem eq_of_magnitude (hmagnitude : x.magnitude = y.magnitude) (hsign : x.isNegative = y.isNegative) : x = y := by
  have hx := x.bits.toNat_lt
  have hy := y.bits.toNat_lt
  have hbits : x.bits.toNat = y.bits.toNat := by
    rw [isNegative, isNegative, decide_eq_decide] at hsign
    simp only [magnitude, signBit] at hmagnitude hsign
    omega
  cases x
  cases y
  exact congrArg Double.mk (UInt64.toNat_inj.mp hbits)

theorem toNat_ofMagnitude (hm : m < signBit) :
    (ofMagnitude negative m).bits.toNat = if negative then signBit + m else m := by
  have hlt : (if negative then signBit + m else m) < 2 ^ 64 := by
    simp only [signBit] at *
    split <;> omega
  rw [ofMagnitude, UInt64.toNat_ofNat', Nat.mod_eq_of_lt hlt]

theorem magnitude_ofMagnitude (hm : m < signBit) : (ofMagnitude negative m).magnitude = m := by
  rw [magnitude, toNat_ofMagnitude hm]
  split
  · rw [Nat.add_mod_left, Nat.mod_eq_of_lt hm]
  · exact Nat.mod_eq_of_lt hm

theorem isNegative_ofMagnitude (hm : m < signBit) : (ofMagnitude negative m).isNegative = negative := by
  rw [isNegative, toNat_ofMagnitude hm]
  cases negative with
  | true => exact decide_eq_true (Nat.le_add_right signBit m)
  | false => exact decide_eq_false (Nat.not_le_of_lt hm)

theorem eq_ofMagnitude (x : Double) : x = ofMagnitude x.isNegative x.magnitude := by
  have hmagnitude : x.magnitude < signBit := Nat.mod_lt _ (by decide)
  apply eq_of_magnitude
  · rw [magnitude_ofMagnitude hmagnitude]
  · rw [isNegative_ofMagnitude hmagnitude]

theorem isNaN_ofMagnitude (hm : m ≤ infinityBits) : (ofMagnitude negative m).isNaN = false := by
  rw [isNaN, magnitude_ofMagnitude (Nat.lt_of_le_of_lt hm (by decide))]
  exact decide_eq_false (Nat.not_lt_of_le hm)

theorem steps_ofMagnitude (hlow : shift = 0 ∨ exponentUnit ≤ s) (hhigh : s ≤ 2 * exponentUnit)
    (hbits : shift * exponentUnit + s < signBit) :
    (ofMagnitude negative (shift * exponentUnit + s)).steps = s * 2 ^ shift := by
  have hunit : 0 < exponentUnit := by decide
  rw [steps, spacing_eq, significand, fractionField, exponentField, magnitude_ofMagnitude hbits, Nat.mul_comm shift,
    Nat.mul_add_div hunit, Nat.mul_add_mod]
  rcases Nat.lt_or_ge s exponentUnit with hsub | hnormal
  · -- Only the doubles of the lowest exponent have a significand without its leading one.
    obtain rfl : shift = 0 := by omega
    rw [Nat.div_eq_of_lt hsub, Nat.mod_eq_of_lt hsub]
    rfl
  · rcases Nat.lt_or_eq_of_le hhigh with hlt | rfl
    · have hdiv : s / exponentUnit = 1 := by
        unfold exponentUnit at *
        omega
      have hmod : s % exponentUnit = s - exponentUnit := by
        unfold exponentUnit at *
        omega
      rw [hdiv, hmod, if_neg (Nat.succ_ne_zero shift), Nat.add_sub_cancel, Nat.add_sub_cancel' hnormal]
    · rw [Nat.mul_div_cancel _ hunit, Nat.mul_mod_left, if_neg (Nat.succ_ne_zero _), Nat.add_zero]
      change _ * 2 ^ (shift + 1) = _
      rw [Nat.pow_succ', ← Nat.mul_assoc, Nat.mul_comm exponentUnit]

/-- Infinity has the value that follows the largest finite double. -/
theorem steps_infinity (negative : Bool) : (ofMagnitude negative infinityBits).steps = exponentUnit * 2 ^ 2046 := by
  have hbits : infinityBits = 2046 * exponentUnit + exponentUnit := by decide
  rw [hbits]
  exact steps_ofMagnitude (.inr (Nat.le_refl _)) (by decide) (by decide)

/-- No double is further from zero than infinity. -/
theorem steps_le_infinity (negative : Bool) (hnumber : x.isNaN = false) :
    x.steps ≤ (ofMagnitude negative infinityBits).steps := by
  have hinfinity : (ofMagnitude negative infinityBits).magnitude = infinityBits := magnitude_ofMagnitude (by decide)
  rcases Nat.lt_or_eq_of_le (Nat.le_of_not_lt (of_decide_eq_false hnumber)) with hfinite | hinfinite
  · exact Nat.le_of_lt (steps_lt_of_magnitude (by rwa [hinfinity]))
  · exact Nat.le_of_eq (steps_of_magnitude (hinfinite.trans hinfinity.symm))

end DocQuery.Double
