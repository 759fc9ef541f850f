import DocQuery.Proofs.Double.Nearest

/-!
# Integers as doubles

An integer always becomes a number, and up to `2 ^ 53` in magnitude it keeps its value: it has a significand of 53 bits,
so it is the value of a double, and the nearest double is that one.
-/

namespace DocQuery.Double

variable {m : Nat} {n : Int}

/-- A number of at most 53 bits has a significand of exactly 53, however far it is shifted up. -/
theorem exists_exact {e : Nat} (hm : m ≠ 0) (hle : m ≤ 2 ^ 53) (he : 52 ≤ e) :
    ∃ shift s, exponentUnit ≤ s ∧ s < 2 * exponentUnit ∧ shift ≤ e + 1 ∧ m <<< e = s * 2 ^ shift := by
  rcases Nat.lt_or_eq_of_le hle with hlt | rfl
  · have hlog : m.log2 < 53 := (Nat.log2_lt hm).mpr hlt
    have hfill : 2 ^ m.log2 * 2 ^ (52 - m.log2) = 2 ^ 52 := by rw [← Nat.pow_add, Nat.add_sub_cancel' (by omega)]
    refine ⟨m.log2 + (e - 52), m * 2 ^ (52 - m.log2), ?_, ?_, by omega, ?_⟩
    · calc exponentUnit = 2 ^ m.log2 * 2 ^ (52 - m.log2) := hfill.symm
        _ ≤ m * 2 ^ (52 - m.log2) := Nat.mul_le_mul_right _ (Nat.log2_self_le hm)
    · calc m * 2 ^ (52 - m.log2) < 2 ^ (m.log2 + 1) * 2 ^ (52 - m.log2) :=
            Nat.mul_lt_mul_of_pos_right Nat.lt_log2_self (Nat.two_pow_pos _)
        _ = 2 * exponentUnit := by rw [Nat.pow_succ', Nat.mul_assoc, hfill]; rfl
    · have hshift : 52 - m.log2 + (m.log2 + (e - 52)) = e := by omega
      rw [Nat.shiftLeft_eq, Nat.mul_assoc, ← Nat.pow_add, hshift]
  · refine ⟨e + 1, exponentUnit, Nat.le_refl _, by decide, Nat.le_refl _, ?_⟩
    calc (2 ^ 53) <<< e = exponentUnit * 2 * 2 ^ e := Nat.shiftLeft_eq ..
      _ = exponentUnit * 2 ^ (e + 1) := by rw [Nat.pow_succ', Nat.mul_assoc]

theorem exists_steps_eq (hle : m ≤ 2 ^ 53) : ∃ y : Double, y.isNaN = false ∧ y.steps = m <<< 1074 := by
  by_cases hm : m = 0
  · refine ⟨ofMagnitude false 0, by decide, ?_⟩
    rw [hm, Nat.zero_shiftLeft]
    exact steps_eq_zero_iff.mpr (magnitude_ofMagnitude (by decide))
  · obtain ⟨shift, s, hlow, hhigh, hshift, hunits⟩ := exists_exact hm hle (by decide : 52 ≤ 1074)
    have hbits : shift * exponentUnit + s ≤ infinityBits := by
      unfold exponentUnit infinityBits at *
      omega
    refine ⟨ofMagnitude false (shift * exponentUnit + s), isNaN_ofMagnitude hbits, ?_⟩
    rw [steps_ofMagnitude (.inr hlow) (Nat.le_of_lt hhigh) (Nat.lt_of_le_of_lt hbits (by decide)), hunits]

/-! ### Integers -/

theorem isNearest_ofInt (n : Int) : (ofInt n).IsNearest (n < 0) n.natAbs 1 := isNearest_ofRatio _ _ Nat.one_pos

theorem isNaN_ofInt (n : Int) : (ofInt n).isNaN = false := (isNearest_ofInt n).number

theorem steps_ofInt (hn : n.natAbs ≤ 2 ^ 53) : (ofInt n).steps = n.natAbs <<< 1074 := by
  obtain ⟨y, hnumber, hsteps⟩ := exists_steps_eq hn
  rw [(isNearest_ofInt n).steps_of_exact Nat.one_pos hnumber (by rw [hsteps, Nat.mul_one]), hsteps]

/-- An integer of at most 53 bits is the value of the double that it is rounded to. -/
theorem scaled_ofInt (hn : n.natAbs ≤ 2 ^ 53) : (ofInt n).scaled = n * (1 <<< 1074 : Nat) := by
  have hsteps : (ofInt n).steps = n.natAbs * 1 <<< 1074 := by
    rw [steps_ofInt hn, Nat.shiftLeft_eq, Nat.one_shiftLeft]
  have hsign : (ofInt n).isNegative = decide (n < 0) := (isNearest_ofInt n).sign
  rw [scaled, hsteps, hsign, Int.natCast_mul]
  by_cases hneg : n < 0
  · rw [if_pos (decide_eq_true hneg), ← Int.neg_mul, Int.ofNat_natAbs_of_nonpos (Int.le_of_lt hneg), Int.neg_neg]
  · rw [if_neg (by simpa using hneg), Int.natAbs_of_nonneg (Int.not_lt.mp hneg)]

end DocQuery.Double
