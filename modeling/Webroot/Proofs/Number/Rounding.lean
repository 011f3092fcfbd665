import Webroot.Number.Binary64

/-!
# What rounding keeps

Rounding looks at the value of a fraction and not at its form (`units_mul_right`). Of the
thousandths up to 1 it keeps the order: each is moved by less than half a thousandth, so no two of
them meet (`units_thousandths_le_iff`). What is short enough to be written with three places is
therefore compared rounded as it is compared exactly.
-/

namespace Webroot.Binary64

/-! ### The nearest whole number -/

/-- Rounding moves a fraction by half a unit at most. -/
theorem roundDiv_bounds (n : Nat) {d : Nat} (hd : 0 < d) :
    2 * n ≤ 2 * (roundDiv n d * d) + d ∧ 2 * (roundDiv n d * d) ≤ 2 * n + d := by
  have hsplit : d * (n / d) + n % d = n := Nat.div_add_mod n d
  have hrest : n % d < d := Nat.mod_lt n hd
  have hcomm : n / d * d = d * (n / d) := Nat.mul_comm _ _
  rw [roundDiv]
  split
  · rw [Nat.add_mul, Nat.one_mul]
    omega
  · omega

theorem roundDiv_mul_right (n d : Nat) {c : Nat} (hc : 0 < c) :
    roundDiv (n * c) (d * c) = roundDiv n d := by
  have htwice : 2 * (n % d * c) = 2 * (n % d) * c := (Nat.mul_assoc _ _ _).symm
  simp only [roundDiv, Nat.mul_div_mul_right n d hc, Nat.mul_mod_mul_right, htwice,
    Nat.mul_lt_mul_right hc, Nat.mul_right_cancel_iff hc]

/-- The rounded value is that of the fraction in any of its forms. -/
theorem units_mul_right (n d : Nat) {c : Nat} (hc : 0 < c) : units (n * c) (d * c) = units n d := by
  have hscaled : (n * c) <<< 1074 = n <<< 1074 * c := by
    rw [Nat.shiftLeft_eq, Nat.shiftLeft_eq, Nat.mul_right_comm]
  have hdenom : ∀ u, d * c * u = d * u * c := fun u => Nat.mul_right_comm d c u
  simp only [units, hscaled, Nat.mul_div_mul_right _ d hc, hdenom, roundDiv_mul_right _ _ hc]

/-! ### Thousandths -/

/-- The unit in the last place is small against the value: it has 52 bits more. -/
theorem ulp_mul_le {v : Nat} (hv : 1 <<< 52 ≤ v) : 1 <<< (v.log2 - 52) * 1 <<< 52 ≤ v := by
  have hne : v ≠ 0 := by
    rintro rfl
    exact absurd hv (by decide)
  have hbits : 52 ≤ v.log2 := (Nat.le_log2 hne).mpr (by simpa [Nat.shiftLeft_eq] using hv)
  rw [Nat.shiftLeft_eq, Nat.shiftLeft_eq, Nat.one_mul, Nat.one_mul, ← Nat.pow_add,
    Nat.sub_add_cancel hbits]
  exact Nat.log2_self_le hne

/-- How many units make a whole. -/
theorem whole_eq : 1 <<< 1074 = 2 * 1 <<< 1073 := by
  decide +kernel

/-- A number of thousandths up to 1000 is rounded by less than half a thousandth. -/
theorem units_thousandths {m : Nat} (hm : m ≤ 1000) :
    m * 1 <<< 1074 < 1000 * units m 1000 + 1 <<< 1073 ∧
      1000 * units m 1000 < m * 1 <<< 1074 + 1 <<< 1073 := by
  -- how half a whole compares with the numbers in `units`
  have hlarge : 1000 * 1 <<< 52 ≤ 2 * 1 <<< 1073 := by decide +kernel
  have hlimit : 3 * 1 <<< 1073 ≤ limit := by decide +kernel
  have hscaled : m <<< 1074 = m * (2 * 1 <<< 1073) := by
    rw [← whole_eq, Nat.one_shiftLeft]
    exact Nat.shiftLeft_eq m 1074
  cases m with
  | zero =>
    have hzero : units 0 1000 = 0 := by decide +kernel
    rw [hzero]
    omega
  | succ m =>
    simp only [units, hscaled, whole_eq]
    generalize 1 <<< 1073 = half at *
    have hfirst : 2 * half ≤ (m + 1) * (2 * half) := Nat.le_mul_of_pos_left _ (Nat.succ_pos m)
    have hlast : (m + 1) * (2 * half) ≤ 1000 * (2 * half) := Nat.mul_le_mul_right _ hm
    generalize (m + 1) * (2 * half) = scaled at *
    have hulp := ulp_mul_le (v := scaled / 1000) (by omega)
    have hpos : 0 < 1 <<< ((scaled / 1000).log2 - 52) := by
      rw [Nat.one_shiftLeft]
      exact Nat.two_pow_pos _
    generalize 1 <<< ((scaled / 1000).log2 - 52) = ulp at *
    have hround := roundDiv_bounds scaled (d := 1000 * ulp) (by omega)
    have hvalue : roundDiv scaled (1000 * ulp) * (1000 * ulp) =
        1000 * (roundDiv scaled (1000 * ulp) * ulp) := Nat.mul_left_comm _ _ _
    rw [hvalue] at hround
    generalize roundDiv scaled (1000 * ulp) * ulp = value at *
    have hsmall : 1000 * ulp < half := by omega
    rw [Nat.min_eq_left (by omega)]
    omega

theorem units_thousandths_lt {m n : Nat} (hn : n ≤ 1000) (h : m < n) :
    units m 1000 < units n 1000 := by
  have hlow := (units_thousandths (Nat.le_trans (Nat.le_of_lt h) hn)).2
  have hhigh := (units_thousandths hn).1
  have hstep : m * (2 * 1 <<< 1073) + 2 * 1 <<< 1073 ≤ n * (2 * 1 <<< 1073) := by
    rw [← Nat.succ_mul]
    exact Nat.mul_le_mul_right _ h
  rw [whole_eq] at hlow hhigh
  omega

/-- **Thousandths.** Rounding keeps the order of the thousandths up to 1. -/
theorem units_thousandths_le_iff {m n : Nat} (hm : m ≤ 1000) (hn : n ≤ 1000) :
    units m 1000 ≤ units n 1000 ↔ m ≤ n := by
  constructor
  · intro h
    refine Nat.not_lt.mp fun hlt => ?_
    exact Nat.not_lt.mpr h (units_thousandths_lt hm hlt)
  · intro h
    rcases Nat.eq_or_lt_of_le h with rfl | hlt
    · exact Nat.le_refl _
    · exact Nat.le_of_lt (units_thousandths_lt hn hlt)

end Webroot.Binary64
