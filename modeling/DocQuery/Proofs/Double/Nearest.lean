import DocQuery.Double.Reading
import DocQuery.Proofs.Double.Magnitude
import DocQuery.Proofs.Text.Numeral

/-!
# The nearest double

The distance of a double from a number `p / q` is counted in units of `2 ^ -1074 / q`, which makes it a natural number.
Rounding gives the double of least distance, and where two are equally near the even one of them, which leaves no choice.
Infinity takes part as the value that follows the largest finite double. The doubles that matter are the multiples of one
spacing, so the whole number that rounding finds on this grid decides. A decimal number is rounded in the same way.
-/

namespace DocQuery.Double

variable {x y : Double} {negative : Bool} {p q a b s shift : Nat} {d : Decimal}

/-- The distance between two natural numbers. -/
def apart (a b : Nat) : Nat := (a - b) + (b - a)

/-- The distance of the absolute value of a double from `p / q`, in units of `2 ^ -1074 / q`. -/
def gap (x : Double) (p q : Nat) : Nat := apart (x.steps * q) (p <<< 1074)

/-- The double has the given sign, and its absolute value is the nearest to `p / q`; of two that are equally near, it is
the even one. -/
structure IsNearest (x : Double) (negative : Bool) (p q : Nat) : Prop where
  number : x.isNaN = false
  sign : x.isNegative = negative
  least : ∀ y : Double, y.isNaN = false → x.gap p q ≤ y.gap p q
  even : ∀ y : Double, y.isNaN = false → y.magnitude ≠ x.magnitude → y.gap p q = x.gap p q → x.magnitude % 2 = 0

/-! ### Whole numbers -/

theorem roundHalfEven_ge (a b : Nat) : a / b ≤ roundHalfEven a b := by
  rw [roundHalfEven]
  split <;> omega

theorem roundHalfEven_le (a b : Nat) : roundHalfEven a b ≤ a / b + 1 := by
  rw [roundHalfEven]
  split <;> omega

theorem two_mul_apart_roundHalfEven (hb : 0 < b) : 2 * apart (roundHalfEven a b * b) a ≤ b := by
  have hdivision := Nat.div_add_mod' a b
  have hmod := Nat.mod_lt a hb
  rw [roundHalfEven, apart]
  split
  · omega
  · rw [Nat.succ_mul (a / b)]
    omega

theorem even_roundHalfEven_of_tie (hb : 0 < b) (htie : 2 * apart (roundHalfEven a b * b) a = b) :
    roundHalfEven a b % 2 = 0 := by
  have hdivision := Nat.div_add_mod' a b
  have hmod := Nat.mod_lt a hb
  rw [roundHalfEven, apart] at htie
  rw [roundHalfEven]
  split at htie
  · next hdown =>
    rw [if_pos hdown]
    omega
  · next hup =>
    rw [if_neg hup]
    rw [Nat.succ_mul (a / b)] at htie
    omega

/-- Different multiples of `b` lie `b` apart, so a number is not close to both. -/
theorem le_apart_add_apart {r t : Nat} (hne : t ≠ r) : b ≤ apart (r * b) a + apart (t * b) a := by
  have hside : t * b + b ≤ r * b ∨ r * b + b ≤ t * b := by
    rcases Nat.lt_or_gt_of_ne hne with hlt | hgt
    · left
      rw [← Nat.succ_mul]
      exact Nat.mul_le_mul_right b hlt
    · right
      rw [← Nat.succ_mul]
      exact Nat.mul_le_mul_right b hgt
  unfold apart
  omega

theorem apart_roundHalfEven_le (hb : 0 < b) (t : Nat) : apart (roundHalfEven a b * b) a ≤ apart (t * b) a := by
  by_cases heq : t = roundHalfEven a b
  · exact Nat.le_of_eq (by rw [heq])
  · have hfar := le_apart_add_apart (a := a) (b := b) heq
    have hnear := two_mul_apart_roundHalfEven (a := a) hb
    omega

theorem even_roundHalfEven {t : Nat} (hb : 0 < b) (hne : t ≠ roundHalfEven a b)
    (heq : apart (t * b) a = apart (roundHalfEven a b * b) a) : roundHalfEven a b % 2 = 0 := by
  have hfar := le_apart_add_apart (a := a) (b := b) hne
  have hnear := two_mul_apart_roundHalfEven (a := a) hb
  exact even_roundHalfEven_of_tie hb (by omega)

/-! ### The grid of one spacing -/

theorem mul_pow_mul (t q shift : Nat) : t * 2 ^ shift * q = t * (q <<< shift) := by
  rw [Nat.shiftLeft_eq, Nat.mul_assoc, Nat.mul_comm q]

theorem shiftLeft_pos (hq : 0 < q) (shift : Nat) : 0 < q <<< shift := by
  rw [Nat.shiftLeft_eq]
  exact Nat.mul_pos hq (Nat.two_pow_pos shift)

/-- A double is a multiple of a spacing, or nearer to zero than all doubles of that spacing. -/
theorem steps_grid (x : Double) (shift : Nat) :
    (∃ t, x.steps = t * 2 ^ shift) ∨ 0 < shift ∧ x.steps < exponentUnit * 2 ^ shift := by
  by_cases hspacing : shift ≤ x.exponentField - 1
  · refine .inl ⟨x.significand * 2 ^ (x.exponentField - 1 - shift), ?_⟩
    rw [steps, spacing_eq, Nat.mul_assoc, ← Nat.pow_add, Nat.sub_add_cancel hspacing]
  · refine .inr ⟨by omega, Nat.lt_of_lt_of_le x.steps_lt ?_⟩
    exact Nat.mul_le_mul_left _ (Nat.pow_le_pow_right (by decide) (by omega))

/-! ### Rounding -/

/-- What is less than half of the smallest positive double is nearest to zero. -/
theorem isNearest_zero (hlow : 2 * p <<< 1074 < q) : (ofMagnitude negative 0).IsNearest negative p q := by
  have hzero : (ofMagnitude negative 0).magnitude = 0 := magnitude_ofMagnitude (by decide)
  have hgap : (ofMagnitude negative 0).gap p q = p <<< 1074 := by
    rw [gap, steps_eq_zero_iff.mpr hzero, apart]
    omega
  refine ⟨isNaN_ofMagnitude (Nat.zero_le _), isNegative_ofMagnitude (by decide), fun y _ => ?_, fun _ _ _ _ => ?_⟩
  · rw [hgap]
    rcases Nat.eq_zero_or_pos y.steps with hy | hy
    · rw [gap, hy, apart]
      omega
    · have hfar : q ≤ y.steps * q := Nat.le_mul_of_pos_left q hy
      unfold gap apart
      omega
  · rw [hzero]

/-- What lies past infinity is nearest to it. -/
theorem isNearest_infinity (hhigh : (ofMagnitude negative infinityBits).steps * q ≤ p <<< 1074) :
    (ofMagnitude negative infinityBits).IsNearest negative p q := by
  refine ⟨isNaN_ofMagnitude (Nat.le_refl _), isNegative_ofMagnitude (by decide), fun y hy => ?_, fun _ _ _ _ => ?_⟩
  · have hle : y.steps * q ≤ (ofMagnitude negative infinityBits).steps * q :=
      Nat.mul_le_mul_right q (steps_le_infinity negative hy)
    unfold gap apart
    omega
  · rw [magnitude_ofMagnitude (by decide)]
    decide

/-- The spacing that rounding chooses leaves 53 bits to the significand, and fewer only if it is the smallest spacing. -/
theorem shift_bounds (hq : 0 < q) (hshift : shift = Nat.log2 (a / q) - 52) :
    a < 2 * exponentUnit * (q <<< shift) ∧ (shift = 0 ∨ exponentUnit * (q <<< shift) ≤ a) := by
  rw [← mul_pow_mul, ← mul_pow_mul]
  constructor
  · have hquotient : a / q < 2 ^ (53 + shift) :=
      Nat.lt_of_lt_of_le Nat.lt_log2_self (Nat.pow_le_pow_right (by decide) (by omega))
    calc a < 2 ^ (53 + shift) * q := Nat.lt_mul_of_div_lt hquotient hq
      _ = 2 * exponentUnit * 2 ^ shift * q := by
        rw [Nat.pow_add]
        rfl
  · by_cases hzero : shift = 0
    · exact .inl hzero
    · right
      have hlog : Nat.log2 (a / q) = 52 + shift := by omega
      have hne : a / q ≠ 0 := by
        intro hnone
        rw [hnone, Nat.log2_zero] at hlog
        omega
      calc exponentUnit * 2 ^ shift * q = 2 ^ (52 + shift) * q := by
            rw [Nat.pow_add]
            rfl
        _ ≤ a / q * q := Nat.mul_le_mul_right q (hlog ▸ Nat.log2_self_le hne)
        _ ≤ a := Nat.div_mul_le_self a q

theorem significand_bounds (hb : 0 < b) (hhigh : a < 2 * exponentUnit * b) (hlow : shift = 0 ∨ exponentUnit * b ≤ a) :
    roundHalfEven a b ≤ 2 * exponentUnit ∧ (shift = 0 ∨ exponentUnit ≤ roundHalfEven a b) := by
  have hquotient : a / b < 2 * exponentUnit := (Nat.div_lt_iff_lt_mul hb).mpr hhigh
  refine ⟨Nat.le_trans (roundHalfEven_le a b) hquotient, hlow.imp_right fun hle => ?_⟩
  exact Nat.le_trans ((Nat.le_div_iff_mul_le hb).mpr hle) (roundHalfEven_ge a b)

/-- Every double is on the grid that rounding chooses, or further away than the number of the grid that is rounded to. -/
theorem exists_mul_or_far (y : Double) (hq : 0 < q) (hbelow : shift = 0 ∨ exponentUnit * (q <<< shift) ≤ a) :
    (∃ t, y.steps * q = t * (q <<< shift)) ∨
      apart (roundHalfEven a (q <<< shift) * (q <<< shift)) a < apart (y.steps * q) a := by
  rcases y.steps_grid shift with ⟨t, ht⟩ | ⟨hpos, hlt⟩
  · exact .inl ⟨t, by rw [ht, mul_pow_mul]⟩
  · right
    have hleast : exponentUnit * (q <<< shift) ≤ a := hbelow.resolve_left (Nat.ne_of_gt hpos)
    have hfar : y.steps * q < exponentUnit * (q <<< shift) := by
      rw [← mul_pow_mul]
      exact Nat.mul_lt_mul_of_pos_right hlt hq
    have hnear := apart_roundHalfEven_le (a := a) (shiftLeft_pos hq shift) exponentUnit
    unfold apart at *
    omega

/-- The double with the significand that is rounded to is the nearest, if it is not past infinity. -/
theorem isNearest_ofSignificand (hq : 0 < q) (hs : s = roundHalfEven (p <<< 1074) (q <<< shift))
    (hbelow : shift = 0 ∨ exponentUnit * (q <<< shift) ≤ p <<< 1074) (hlow : shift = 0 ∨ exponentUnit ≤ s)
    (hhigh : s ≤ 2 * exponentUnit) (hbits : shift * exponentUnit + s ≤ infinityBits) :
    (ofMagnitude negative (shift * exponentUnit + s)).IsNearest negative p q := by
  have hb := shiftLeft_pos hq shift
  have hsign : shift * exponentUnit + s < signBit := Nat.lt_of_le_of_lt hbits (by decide)
  have hsteps : (ofMagnitude negative (shift * exponentUnit + s)).steps * q = s * (q <<< shift) := by
    rw [steps_ofMagnitude hlow hhigh hsign, mul_pow_mul]
  refine ⟨isNaN_ofMagnitude hbits, isNegative_ofMagnitude hsign, fun y _ => ?_, fun y _ hne heq => ?_⟩
  · rw [gap, gap, hsteps, hs]
    rcases exists_mul_or_far y hq hbelow with ⟨t, ht⟩ | hfar
    · rw [ht]
      exact apart_roundHalfEven_le hb t
    · exact Nat.le_of_lt hfar
  · rw [gap, gap, hsteps, hs] at heq
    rcases exists_mul_or_far y hq hbelow with ⟨t, ht⟩ | hfar
    · -- Another double on the grid is another multiple of the spacing, so there is a tie.
      have hother : t ≠ s := by
        rintro rfl
        exact hne (magnitude_eq_of_steps (Nat.eq_of_mul_eq_mul_right hq (ht.trans hsteps.symm)))
      rw [ht] at heq
      have heven : s % 2 = 0 := hs ▸ even_roundHalfEven hb (hs ▸ hother) heq
      rw [magnitude_ofMagnitude hsign]
      unfold exponentUnit
      omega
    · omega

/-- Rounding gives the nearest double. -/
theorem isNearest_ofRatio (negative : Bool) (p : Nat) (hq : 0 < q) : (ofRatio negative p q).IsNearest negative p q := by
  obtain ⟨shift, hshift⟩ : ∃ shift, shift = Nat.log2 (p <<< 1074 / q) - 52 := ⟨_, rfl⟩
  obtain ⟨habove, hbelow⟩ := shift_bounds hq hshift
  obtain ⟨hhigh, hlow⟩ := significand_bounds (shiftLeft_pos hq shift) habove hbelow
  simp only [ofRatio, nearestMagnitude, ← hshift]
  rcases Nat.lt_or_ge infinityBits (shift * exponentUnit + roundHalfEven (p <<< 1074) (q <<< shift)) with hpast | hbits
  · rw [Nat.min_eq_right (Nat.le_of_lt hpast)]
    have hlarge : 2046 ≤ shift := by
      unfold infinityBits exponentUnit at *
      omega
    apply isNearest_infinity
    calc (ofMagnitude negative infinityBits).steps * q = exponentUnit * 2 ^ 2046 * q := by rw [steps_infinity]
      _ ≤ exponentUnit * 2 ^ shift * q :=
        Nat.mul_le_mul_right q (Nat.mul_le_mul_left _ (Nat.pow_le_pow_right (by decide) hlarge))
      _ ≤ p <<< 1074 := by
        rw [mul_pow_mul]
        exact hbelow.resolve_left (by omega)
  · rw [Nat.min_eq_left hbits]
    exact isNearest_ofSignificand hq rfl hbelow hlow hhigh hbits

/-- Between two nearest doubles, which are equally near and even, there would be a nearer one. -/
theorem IsNearest.not_lt (hq : 0 < q) (hx : x.IsNearest negative p q) (hy : y.IsNearest negative p q) :
    ¬ x.magnitude < y.magnitude := by
  intro hlt
  have hgap : x.gap p q = y.gap p q := Nat.le_antisymm (hx.least y hy.number) (hy.least x hx.number)
  have hxeven := hx.even y hy.number (Nat.ne_of_gt hlt) hgap.symm
  have hyeven := hy.even x hx.number (Nat.ne_of_lt hlt) hgap
  have hbits : x.magnitude + 1 < y.magnitude := by omega
  have hnumber : y.magnitude ≤ infinityBits := Nat.le_of_not_lt (of_decide_eq_false hy.number)
  have hmagnitude : (ofMagnitude negative (x.magnitude + 1)).magnitude = x.magnitude + 1 := by
    apply magnitude_ofMagnitude
    unfold infinityBits signBit at *
    omega
  have hleast := hx.least (ofMagnitude negative (x.magnitude + 1)) (isNaN_ofMagnitude (by omega))
  have hright : x.steps * q < (ofMagnitude negative (x.magnitude + 1)).steps * q :=
    Nat.mul_lt_mul_of_pos_right (steps_lt_of_magnitude (by omega)) hq
  have hleft : (ofMagnitude negative (x.magnitude + 1)).steps * q < y.steps * q :=
    Nat.mul_lt_mul_of_pos_right (steps_lt_of_magnitude (by omega)) hq
  unfold gap apart at *
  omega

theorem IsNearest.eq (hq : 0 < q) (hx : x.IsNearest negative p q) (hy : y.IsNearest negative p q) : x = y := by
  apply eq_of_magnitude
  · exact Nat.le_antisymm (Nat.le_of_not_lt (hy.not_lt hq hx)) (Nat.le_of_not_lt (hx.not_lt hq hy))
  · rw [hx.sign, hy.sign]

/-- Nothing is left to round of a number that is the value of a double. -/
theorem IsNearest.steps_of_exact (hq : 0 < q) (hx : x.IsNearest negative p q) (hnumber : y.isNaN = false)
    (hexact : y.steps * q = p <<< 1074) : x.steps = y.steps := by
  have hleast := hx.least y hnumber
  have hsteps : x.steps * q = y.steps * q := by
    unfold gap apart at hleast
    omega
  exact Nat.eq_of_mul_eq_mul_right hq hsteps

/-! ### Decimal numbers -/

/-- A decimal number is the quotient of its dividend and its divisor. -/
def Decimal.dividend (d : Decimal) : Nat := d.coefficient * 10 ^ d.exponent.toNat

def Decimal.divisor (d : Decimal) : Nat := 10 ^ (-d.exponent).toNat

theorem Decimal.divisor_pos (d : Decimal) : 0 < d.divisor := Nat.pow_pos (by decide)

/-- The power of ten past the number, from its first digit. -/
def Decimal.top (d : Decimal) : Int := (Text.digits d.coefficient).length + d.exponent

theorem dividend_lt_of_top (htop : d.top ≤ -324) : d.dividend * 10 ^ 324 < d.divisor := by
  have hexponents : (Text.digits d.coefficient).length + (d.exponent.toNat + 324) ≤ (-d.exponent).toNat := by
    unfold Decimal.top at htop
    omega
  calc d.dividend * 10 ^ 324 = d.coefficient * 10 ^ (d.exponent.toNat + 324) := by
        rw [Decimal.dividend, Nat.mul_assoc, ← Nat.pow_add]
    _ < 10 ^ (Text.digits d.coefficient).length * 10 ^ (d.exponent.toNat + 324) :=
      Nat.mul_lt_mul_of_pos_right (Text.lt_pow_length_digits _) (Nat.pow_pos (by decide))
    _ = 10 ^ ((Text.digits d.coefficient).length + (d.exponent.toNat + 324)) := (Nat.pow_add ..).symm
    _ ≤ d.divisor := Nat.pow_le_pow_right (by decide) hexponents

theorem divisor_le_of_top (hne : d.coefficient ≠ 0) (htop : 309 < d.top) : 10 ^ 309 * d.divisor ≤ d.dividend := by
  have hexponents : 309 + (-d.exponent).toNat ≤ (Text.digits d.coefficient).length - 1 + d.exponent.toNat := by
    unfold Decimal.top at htop
    omega
  calc 10 ^ 309 * d.divisor = 10 ^ (309 + (-d.exponent).toNat) := by rw [Decimal.divisor, Nat.pow_add]
    _ ≤ 10 ^ ((Text.digits d.coefficient).length - 1 + d.exponent.toNat) := Nat.pow_le_pow_right (by decide) hexponents
    _ = 10 ^ ((Text.digits d.coefficient).length - 1) * 10 ^ d.exponent.toNat := Nat.pow_add ..
    _ ≤ d.dividend := Nat.mul_le_mul_right _ (Text.pow_length_digits_le hne)

/-- A decimal number is rounded to the nearest double, also where its powers of ten are not computed. -/
theorem isNearest_ofDecimal (negative : Bool) (d : Decimal) :
    (ofDecimal negative d).IsNearest negative d.dividend d.divisor := by
  have hdivisor := d.divisor_pos
  unfold ofDecimal
  dsimp only
  split
  · next hzero =>
    apply isNearest_zero
    rcases hzero with hnone | htop
    · rw [Decimal.dividend, hnone, Nat.zero_mul, Nat.zero_shiftLeft]
      exact hdivisor
    · rw [Nat.shiftLeft_eq]
      have hscale : 2 * 2 ^ 1074 ≤ 10 ^ 324 := by decide +kernel
      calc 2 * (d.dividend * 2 ^ 1074) = d.dividend * (2 * 2 ^ 1074) := Nat.mul_left_comm ..
        _ ≤ d.dividend * 10 ^ 324 := Nat.mul_le_mul_left _ hscale
        _ < d.divisor := dividend_lt_of_top htop
  · next hzero =>
    split
    · next htop =>
      have hscale : exponentUnit * 2 ^ 2046 ≤ 10 ^ 309 * 2 ^ 1074 := by decide +kernel
      apply isNearest_infinity
      rw [Nat.shiftLeft_eq, steps_infinity]
      calc exponentUnit * 2 ^ 2046 * d.divisor ≤ 10 ^ 309 * 2 ^ 1074 * d.divisor := Nat.mul_le_mul_right _ hscale
        _ = 10 ^ 309 * d.divisor * 2 ^ 1074 := Nat.mul_right_comm ..
        _ ≤ d.dividend * 2 ^ 1074 := Nat.mul_le_mul_right _ (divisor_le_of_top (fun hnone => hzero (.inl hnone)) htop)
    · split
      · next hwhole =>
        have hone : d.divisor = 1 := by
          rw [Decimal.divisor, Int.toNat_of_nonpos (by omega)]
          rfl
        rw [hone]
        exact isNearest_ofRatio negative d.dividend Nat.one_pos
      · next hpart =>
        have hcoefficient : d.dividend = d.coefficient := by
          rw [Decimal.dividend, Int.toNat_of_nonpos (by omega)]
          exact Nat.mul_one _
        rw [hcoefficient]
        exact isNearest_ofRatio negative d.coefficient hdivisor

theorem isNearest_decimal_iff : x.IsNearest negative d.dividend d.divisor ↔ x = ofDecimal negative d := by
  constructor
  · exact fun hx => hx.eq d.divisor_pos (isNearest_ofDecimal negative d)
  · rintro rfl
    exact isNearest_ofDecimal negative d

end DocQuery.Double
