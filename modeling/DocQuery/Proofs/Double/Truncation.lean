import DocQuery.Proofs.Double.Magnitude

/-!
# Doubles cut off toward zero

A finite double is cut off to an integer, and that is clamped to 64 bits. An infinity and what is not a number have no
integer, and they get one all the same. However large a finite double is, its integer has fewer than 1025 bits.
-/

namespace DocQuery

/-- The integer with 64 bits that is nearest to an integer. -/
def clampedInt64 (m : Int) : Int := max Int64.minValue.toInt (min m Int64.maxValue.toInt)

theorem toInt_ofIntClamp (m : Int) : (Int64.ofIntClamp m).toInt = clampedInt64 m := by
  have hends : Int64.minValue.toInt ≤ Int64.maxValue.toInt := by decide
  unfold Int64.ofIntClamp clampedInt64
  split
  · split
    · rw [Int64.toInt_ofIntLE]
      omega
    · omega
  · omega

theorem clampedInt64_of_le {m : Int} (hlow : Int64.minValue.toInt ≤ m) (hhigh : m ≤ Int64.maxValue.toInt) :
    clampedInt64 m = m := by
  unfold clampedInt64
  omega

namespace Double

variable {x : Double} {m : Int}

/-- The integer that a double is cut off to; the infinities and what is not a number have none. -/
def whole? (x : Double) : Option Int :=
  if x.magnitude < infinityBits then some (x.scaled.tdiv (1 <<< 1074 : Nat)) else none

theorem whole?_eq_some_iff :
    x.whole? = some m ↔ x.magnitude < infinityBits ∧ x.scaled.tdiv (1 <<< 1074 : Nat) = m := by
  rw [whole?]
  split
  · next hfinite => rw [Option.some.injEq, and_iff_right hfinite]
  · next hfinite => exact iff_of_false (by simp) fun hwhole => hfinite hwhole.1

theorem truncate_of_number (hnumber : x.isNaN = false) :
    x.truncate = Int64.ofIntClamp (x.scaled.tdiv (1 <<< 1074 : Nat)) := by
  rw [truncate, hnumber]
  exact if_neg Bool.false_ne_true

theorem toInt_truncate (hwhole : x.whole? = some m) : x.truncate.toInt = clampedInt64 m := by
  obtain ⟨hfinite, rfl⟩ := whole?_eq_some_iff.mp hwhole
  have hnumber : x.isNaN = false := decide_eq_false (Nat.lt_asymm hfinite)
  rw [truncate_of_number hnumber, toInt_ofIntClamp]

/-- The integer with 64 bits that a number is cut off to and clamped, which for an infinity is the last on its side. -/
inductive CutsOff (x : Double) : Int64 → Prop
  | finite {m : Int} {n : Int64} : x.whole? = some m → n.toInt = clampedInt64 m → CutsOff x n
  | infinite : x.isInfinite = true → CutsOff x (if x.isNegative then Int64.minValue else Int64.maxValue)

theorem truncate_infinity (negative : Bool) :
    (ofMagnitude negative infinityBits).truncate = if negative then Int64.minValue else Int64.maxValue := by
  cases negative <;> decide +kernel

theorem cutsOff_truncate (hnumber : x.isNaN = false) : x.CutsOff x.truncate := by
  rcases Nat.lt_or_eq_of_le (Nat.le_of_not_lt (of_decide_eq_false hnumber)) with hfinite | hinfinite
  · have hwhole := whole?_eq_some_iff.mpr ⟨hfinite, rfl⟩
    exact .finite hwhole (toInt_truncate hwhole)
  · have hx : x = ofMagnitude x.isNegative infinityBits := by
      rw [← hinfinite]
      exact x.eq_ofMagnitude
    have hcut := CutsOff.infinite (decide_eq_true hinfinite)
    rw [← truncate_infinity] at hcut
    rwa [← hx] at hcut

theorem natAbs_scaled (x : Double) : x.scaled.natAbs = x.steps := by
  rw [scaled]
  split <;> simp

theorem natAbs_whole_lt (hwhole : x.whole? = some m) : m.natAbs < 1 <<< 1024 := by
  obtain ⟨hfinite, rfl⟩ := whole?_eq_some_iff.mp hwhole
  have hinfinity : (ofMagnitude false infinityBits).magnitude = infinityBits := magnitude_ofMagnitude (by decide)
  have hsteps : x.steps < 1 <<< 1024 * 1 <<< 1074 :=
    calc x.steps < (ofMagnitude false infinityBits).steps := steps_lt_of_magnitude (by rwa [hinfinity])
      _ = exponentUnit * 2 ^ 2046 := steps_infinity false
      _ = 1 <<< 1024 * 1 <<< 1074 := by decide +kernel
  rw [Int.natAbs_tdiv, natAbs_scaled]
  exact Nat.div_lt_of_lt_mul (by rwa [Nat.mul_comm])

end Double

end DocQuery
