import DocQuery.Double.Notation
import DocQuery.Proofs.Double.Magnitude

/-!
# Doubles that are equal

Two doubles are equal by value just if they are the same double or both zero, because the distance from zero and the sign
tell which double it is. So equal doubles are written alike but for the sign of a zero.
-/

namespace DocQuery

namespace Double

variable {x y : Double}

theorem same_iff : x.same y = true ↔ x.isNaN = false ∧ y.isNaN = false ∧ x.scaled = y.scaled := by
  rw [same, compare?]
  cases x.isNaN <;> cases y.isNaN <;> simp

/-! ### Zeros -/

theorem isZero_iff : x.isZero = true ↔ x.scaled = 0 := by
  rw [isZero, decide_eq_true_iff, ← steps_eq_zero_iff, scaled]
  split <;> omega

/-- Doubles that are equal by value are the same, or both zero. -/
theorem eq_or_zero_of_same (hsame : x.same y = true) : x = y ∨ x.isZero = true ∧ y.isZero = true := by
  obtain ⟨-, -, hscaled⟩ := same_iff.mp hsame
  by_cases hzero : x.scaled = 0
  · exact .inr ⟨isZero_iff.mpr hzero, isZero_iff.mpr (hscaled ▸ hzero)⟩
  · left
    rw [scaled, scaled] at hscaled
    rw [scaled] at hzero
    have hsign : x.isNegative = y.isNegative := by
      cases hx : x.isNegative <;> cases hy : y.isNegative <;>
        simp only [hx, hy, Bool.false_eq_true, if_false, if_true] at hscaled hzero <;> first | rfl | omega
    have hsteps : x.steps = y.steps := by
      rw [hsign] at hscaled
      split at hscaled <;> omega
    exact eq_of_magnitude (magnitude_eq_of_steps hsteps) hsign

theorem eq_ofMagnitude_zero (hzero : x.isZero = true) : x = ofMagnitude x.isNegative 0 := by
  have hx := x.eq_ofMagnitude
  rwa [of_decide_eq_true hzero] at hx

/-- Doubles that are equal by value and written alike are the same. -/
theorem eq_of_same_of_text (hsame : x.same y = true) (htext : x.text = y.text) : x = y := by
  rcases eq_or_zero_of_same hsame with heq | ⟨hx, hy⟩
  · exact heq
  · have hsigns : (ofMagnitude false 0).text ≠ (ofMagnitude true 0).text := by decide +kernel
    rw [eq_ofMagnitude_zero hx, eq_ofMagnitude_zero hy] at htext ⊢
    cases hxsign : x.isNegative <;> cases hysign : y.isNegative <;> rw [hxsign, hysign] at htext
    · exact absurd htext hsigns
    · exact absurd htext.symm hsigns

/-! ### What equal doubles share -/

theorem isZero_of_same (hsame : x.same y = true) : x.isZero = y.isZero := by
  rw [Bool.eq_iff_iff, isZero_iff, isZero_iff, (same_iff.mp hsame).2.2]

theorem truncate_of_same (hsame : x.same y = true) : x.truncate = y.truncate := by
  obtain ⟨hx, hy, hscaled⟩ := same_iff.mp hsame
  rw [truncate, truncate, hx, hy, hscaled]

end Double

end DocQuery
