import Mathlib.Algebra.Order.Ring.Abs
import Mathlib.Tactic.LinearCombination
import SolverValues.Proofs.Ieee.Nearest
import SolverValues.Proofs.Ieee.NumericOrder

/-!
The pattern nearest to an integer. It has the integer's sign, is infinite from the midpoint above
the greatest finite number on, and keeps the order of integers.
-/
namespace SolverValues.Ieee

variable {f : Format} {m n : Int}

namespace Format

/-- One is a number of the format, and the numbers around it are not the last before infinity. -/
structure HoldsIntegers (f : Format) : Prop where
  two_le_precision : 2 ≤ f.precision
  precision_lt : f.precision < 2 ^ (f.exponentWidth - 1)

/-- The midpoint above the greatest finite number. -/
def overflow (f : Format) : Nat :=
  (2 * 2 ^ f.precision - 1) * 2 ^ (2 ^ (f.exponentWidth - 1) - f.precision - 1)

/-- One, in units of the least positive number. -/
def one (f : Format) : Nat := 2 ^ (-f.leastExponent).toNat

namespace HoldsIntegers

variable (hf : f.HoldsIntegers)

include hf

theorem precision_pos : 0 < f.precision := by
  have := hf.two_le_precision
  omega

theorem leastExponent_nonpos : f.leastExponent ≤ 0 := by
  have := hf.two_le_precision
  have := hf.precision_lt
  simp only [leastExponent, Nat.pow_eq, Int.ofNat_eq_natCast]
  omega

theorem two_pow_exponentWidth : 2 ^ f.exponentWidth = 2 * 2 ^ (f.exponentWidth - 1) := by
  have hwidth : f.exponentWidth ≠ 0 := by
    intro h
    have := hf.two_le_precision
    have := hf.precision_lt
    rw [h] at this
    omega
  rw [← pow_succ', Nat.sub_add_cancel (Nat.one_le_iff_ne_zero.mpr hwidth)]

theorem binade_mod_two : f.binade % 2 = 0 := by
  have hexponent : f.precision - 1 = f.precision - 2 + 1 := by
    have := hf.two_le_precision
    omega
  rw [binade, hexponent, Nat.pow_eq, pow_succ, Nat.mul_mod_left]

theorem infinity_eq : f.infinity = (2 ^ f.exponentWidth - 3) * f.binade + 2 * f.binade := by
  have hwidth : 2 ^ f.exponentWidth - 1 = 2 ^ f.exponentWidth - 3 + 2 := by
    have := hf.two_pow_exponentWidth
    have := hf.two_le_precision
    have := hf.precision_lt
    omega
  rw [infinity, Nat.pow_eq, hwidth, Nat.add_mul]

theorem infinity_mod_two : f.infinity % 2 = 0 := by
  rw [infinity, Nat.mul_mod, hf.binade_mod_two]
  rfl

theorem infinity_pos : 0 < f.infinity := by
  have := f.binade_pos
  have := hf.infinity_eq
  omega

/-- Half a last place less than the power of two that infinity stands for. -/
theorem overflow_eq : (f.overflow : Int) =
    2 ^ 2 ^ (f.exponentWidth - 1) - 2 ^ (2 ^ (f.exponentWidth - 1) - f.precision - 1) := by
  have hpos := Nat.two_pow_pos f.precision
  have hexponent : 2 ^ (f.exponentWidth - 1) =
      f.precision + 1 + (2 ^ (f.exponentWidth - 1) - f.precision - 1) := by
    have := hf.precision_lt
    omega
  have hpower : (2 : Int) ^ 2 ^ (f.exponentWidth - 1) =
      2 ^ (f.precision + 1) * 2 ^ (2 ^ (f.exponentWidth - 1) - f.precision - 1) := by
    rw [← pow_add, ← hexponent]
  rw [hpower, overflow, Nat.cast_mul, Nat.cast_sub (by omega)]
  push_cast
  ring

/-- The midpoint below infinity is the same number in units. -/
theorem units_midpoint :
    f.units (f.infinity - 1) + f.units f.infinity = 2 * (f.overflow * f.one) := by
  have hpos := f.binade_pos
  have htwo := two_mul_binade hf.precision_pos
  have hlast : f.infinity - 1 = (2 ^ f.exponentWidth - 3) * f.binade + (2 * f.binade - 1) := by
    rw [hf.infinity_eq]
    omega
  have hexponent : 2 ^ f.exponentWidth - 3 =
      (2 ^ (f.exponentWidth - 1) - f.precision - 1) + (-f.leastExponent).toNat + 1 := by
    have := hf.two_pow_exponentWidth
    have := hf.two_le_precision
    have := hf.precision_lt
    simp only [leastExponent, Nat.pow_eq, Int.ofNat_eq_natCast]
    omega
  have hsum : (2 * f.binade - 1) + 2 * f.binade = 2 * 2 ^ f.precision - 1 := by
    rw [← htwo]
    omega
  rw [hlast, hf.infinity_eq, units_eq (by omega) (by omega), units_eq le_rfl (by omega),
    ← Nat.add_mul, hsum, hexponent, overflow, one, pow_succ, pow_add]
  ring

theorem one_mul_two_pow_leastExponent : (f.one : Rat) * 2 ^ f.leastExponent = 1 := by
  have hleast : f.leastExponent = -((-f.leastExponent).toNat : Int) := by
    have := hf.leastExponent_nonpos
    omega
  rw [one, Nat.cast_pow, Nat.cast_two]
  nth_rewrite 2 [hleast]
  rw [zpow_neg, zpow_natCast]
  exact mul_inv_cancel₀ (pow_ne_zero _ two_ne_zero)

theorem infinity_le_nearest_iff (t : Nat) : f.infinity ≤ f.nearest t ↔ f.overflow * f.one ≤ t := by
  rw [le_nearest_iff hf.precision_pos hf.binade_mod_two hf.infinity_mod_two hf.infinity_pos,
    hf.units_midpoint, Nat.mul_le_mul_left_iff two_pos]

/-- Rounding a whole number, written in whatever way. -/
theorem roundMagnitude_eq (m e : Nat) :
    f.roundMagnitude m e = min (f.nearest (m * 2 ^ e * f.one)) f.infinity := by
  have hleast := hf.leastExponent_nonpos
  have hshift : ((e : Int) - f.leastExponent).toNat = e + (-f.leastExponent).toNat := by omega
  rw [roundMagnitude_eq_min_nearest hf.precision_pos (by omega), hshift, pow_add, ← Nat.mul_assoc,
    one]

theorem roundMagnitude_eq_infinity {m e : Nat} (h : f.overflow ≤ m * 2 ^ e) :
    f.roundMagnitude m e = f.infinity := by
  rw [hf.roundMagnitude_eq, min_eq_right_iff, hf.infinity_le_nearest_iff]
  exact Nat.mul_le_mul_right _ h

end HoldsIntegers

theorem binary32_holdsIntegers : binary32.HoldsIntegers := ⟨by decide, by decide⟩

theorem binary64_holdsIntegers : binary64.HoldsIntegers := ⟨by decide, by decide⟩

end Format

namespace Pattern

variable {x y : Pattern f}

/-- The pattern stands for a number that is not infinite. -/
def IsFinite (x : Pattern f) : Prop := ¬ x.isNaN ∧ ¬ x.isInfinite

/-- The pattern is the one nearest to `n`, the even one of two; it is infinite if `n` is at least
`bound` away from zero. -/
structure RoundedFrom (x : Pattern f) (n bound : Int) : Prop where
  not_nan : ¬ x.isNaN
  infinite_iff : x.isInfinite ↔ bound ≤ |n|
  nearest : |n| < bound → ∀ y : Pattern f, y.IsFinite → |x.value - n| ≤ |y.value - n|
  even : |n| < bound → ∀ y : Pattern f, y.IsFinite → y.value ≠ x.value →
    |y.value - n| = |x.value - n| → x.significand % 2 = 0
  exact : ∀ y : Pattern f, y.IsFinite → y.value = n → x.IsFinite ∧ x.value = n
  sign : x.negative = decide (n < 0)
  zero : n = 0 → x = zero f false

theorem magnitude_lt_of_isFinite (hx : x.IsFinite) : x.magnitude.toNat < f.infinity := by
  obtain ⟨hnan, hinf⟩ := hx
  have hle : x.magnitude.toNat ≤ f.infinity := by simpa [isNaN] using hnan
  have hne : x.magnitude.toNat ≠ f.infinity := by simpa [isInfinite] using hinf
  omega

theorem significand_mod_two (h : f.binade % 2 = 0) (x : Pattern f) :
    x.significand % 2 = x.magnitude.toNat % 2 := by
  have hmod := Nat.mod_mod_of_dvd x.magnitude.toNat (Nat.dvd_of_mod_eq_zero h)
  rw [significand]
  split <;> omega

section

variable (hf : f.HoldsIntegers)

include hf

theorem value_sub_eq (x : Pattern f) (n : Int) :
    x.value - n = (x.signedUnits - n * f.one : Int) * 2 ^ f.leastExponent := by
  have hone := hf.one_mul_two_pow_leastExponent
  rw [value_eq_signedUnits]
  push_cast
  linear_combination (n : Rat) * hone

theorem abs_value_sub_eq (x : Pattern f) (n : Int) :
    |x.value - n| = ((x.signedUnits - n * f.one).natAbs : Rat) * 2 ^ f.leastExponent := by
  have hpos : (0 : Rat) < 2 ^ f.leastExponent := zpow_pos two_pos _
  rw [value_sub_eq hf, abs_mul, abs_of_pos hpos, ← Int.cast_abs, Int.abs_eq_natAbs,
    Int.cast_natCast]

theorem abs_value_sub_le_iff : |x.value - n| ≤ |y.value - n| ↔
    (x.signedUnits - n * f.one).natAbs ≤ (y.signedUnits - n * f.one).natAbs := by
  have hpos : (0 : Rat) < 2 ^ f.leastExponent := zpow_pos two_pos _
  rw [abs_value_sub_eq hf, abs_value_sub_eq hf, mul_le_mul_iff_of_pos_right hpos, Nat.cast_le]

theorem value_eq_intCast_iff : x.value = n ↔ x.signedUnits = n * f.one := by
  have hpos : (2 : Rat) ^ f.leastExponent ≠ 0 := (zpow_pos two_pos _).ne'
  rw [← sub_eq_zero, value_sub_eq hf, mul_eq_zero, or_iff_left hpos, Int.cast_eq_zero, sub_eq_zero]

end

/-- Patterns of the other sign are farther away than those of the number's own. -/
theorem natAbs_signedUnits_sub (x : Pattern f) (n : Int) :
    (x.signedUnits - n * f.one).natAbs =
      if x.negative = decide (n < 0) then
        Nat.dist (f.units x.magnitude.toNat) (n.natAbs * f.one)
      else f.units x.magnitude.toNat + n.natAbs * f.one := by
  rw [signedUnits, Nat.dist]
  generalize f.units x.magnitude.toNat = u
  rcases lt_or_ge n 0 with hn | hn
  · have hmul : n * f.one = -((n.natAbs * f.one : Nat) : Int) := by
      rw [Nat.cast_mul, Int.ofNat_natAbs_of_nonpos hn.le, neg_mul, neg_neg]
    rw [hmul, decide_eq_true hn]
    generalize n.natAbs * f.one = t
    cases x.negative <;> simp only [Bool.false_eq_true, if_true, if_false] <;> omega
  · have hmul : n * f.one = ((n.natAbs * f.one : Nat) : Int) := by
      rw [Nat.cast_mul, Int.natAbs_of_nonneg hn]
    rw [hmul, decide_eq_false (not_lt.mpr hn)]
    generalize n.natAbs * f.one = t
    cases x.negative <;> simp only [Bool.true_eq_false, Bool.false_eq_true, if_true, if_false] <;>
      omega

theorem dist_le_natAbs (x : Pattern f) (n : Int) :
    Nat.dist (f.units x.magnitude.toNat) (n.natAbs * f.one) ≤
      (x.signedUnits - n * f.one).natAbs := by
  rw [natAbs_signedUnits_sub]
  split
  · exact le_rfl
  · rw [Nat.dist]
    omega

/-- The pattern nearest to an integer. -/
def nearestTo (f : Format) (n : Int) : Pattern f := round f (n < 0) n.natAbs 0

theorem negative_nearestTo (n : Int) : (nearestTo f n).negative = decide (n < 0) := rfl

variable (hf : f.HoldsIntegers)

include hf

theorem toNat_magnitude_nearestTo (n : Int) :
    (nearestTo f n).magnitude.toNat = min (f.nearest (n.natAbs * f.one)) f.infinity := by
  have hwidth := f.infinity_lt hf.precision_pos
  have hround := hf.roundMagnitude_eq n.natAbs 0
  rw [pow_zero, Nat.mul_one, Nat.cast_zero] at hround
  rw [nearestTo, round, hround, BitVec.toNat_ofNat]
  exact Nat.mod_eq_of_lt ((min_le_right _ _).trans_lt hwidth)

theorem not_isNaN_nearestTo (n : Int) : ¬ (nearestTo f n).isNaN := by
  simp [isNaN, toNat_magnitude_nearestTo hf]

theorem isInfinite_nearestTo_iff (n : Int) : (nearestTo f n).isInfinite ↔ f.overflow ≤ |n| := by
  have hone : 0 < f.one := Nat.two_pow_pos _
  rw [isInfinite, toNat_magnitude_nearestTo hf, beq_iff_eq, min_eq_right_iff,
    hf.infinity_le_nearest_iff, Nat.mul_le_mul_right_iff hone, Int.abs_eq_natAbs, Nat.cast_le]

theorem magnitude_eq_nearest (h : ¬ (nearestTo f n).isInfinite) :
    (nearestTo f n).magnitude.toNat = f.nearest (n.natAbs * f.one) := by
  have hmagnitude := toNat_magnitude_nearestTo hf n
  rw [isInfinite, beq_iff_eq] at h
  omega

theorem natAbs_nearestTo_sub (h : ¬ (nearestTo f n).isInfinite) :
    ((nearestTo f n).signedUnits - n * f.one).natAbs =
      Nat.dist (f.units (f.nearest (n.natAbs * f.one))) (n.natAbs * f.one) := by
  rw [natAbs_signedUnits_sub, if_pos (negative_nearestTo n),
    magnitude_eq_nearest hf h]

theorem nearestTo_zero : nearestTo f 0 = zero f false := by
  refine eq_zero_iff.mpr ⟨rfl, ?_⟩
  rw [toNat_magnitude_nearestTo hf, Int.natAbs_zero, Nat.zero_mul,
    Format.nearest_zero hf.precision_pos, Nat.zero_min]

/-- An integer that a finite pattern stands for is no midpoint and not above the greatest number. -/
theorem nearestTo_exact (hy : y.IsFinite) (h : y.value = n) :
    (nearestTo f n).IsFinite ∧ (nearestTo f n).value = n := by
  have hunits : f.units y.magnitude.toNat = n.natAbs * f.one := by
    have hdist := dist_le_natAbs y n
    rw [(value_eq_intCast_iff hf).mp h, sub_self, Int.natAbs_zero, Nat.le_zero] at hdist
    exact Nat.eq_of_dist_eq_zero hdist
  have hnear : f.nearest (n.natAbs * f.one) = y.magnitude.toNat := by
    have hle := Format.dist_nearest_le hf.precision_pos (n.natAbs * f.one) y.magnitude.toNat
    rw [hunits, Nat.dist_self, Nat.le_zero] at hle
    apply f.units_strictMono.injective
    rw [hunits, Nat.eq_of_dist_eq_zero hle]
  have hfinite : ¬ (nearestTo f n).isInfinite := by
    have hlt := magnitude_lt_of_isFinite hy
    rw [isInfinite, toNat_magnitude_nearestTo hf, hnear, beq_iff_eq]
    omega
  refine ⟨⟨not_isNaN_nearestTo hf n, hfinite⟩, (value_eq_intCast_iff hf).mpr ?_⟩
  have hdist := natAbs_nearestTo_sub hf hfinite
  rw [hnear, hunits, Nat.dist_self, Int.natAbs_eq_zero, sub_eq_zero] at hdist
  exact hdist

/-- A pattern that differs in sign only lies on the wrong side of `n`, so both are zero. -/
theorem value_eq_nearestTo (h : ¬ (nearestTo f n).isInfinite)
    (hmagnitude : y.magnitude.toNat = f.nearest (n.natAbs * f.one))
    (hdist : (y.signedUnits - n * f.one).natAbs =
      Nat.dist (f.units (f.nearest (n.natAbs * f.one))) (n.natAbs * f.one)) :
    y.value = (nearestTo f n).value := by
  rw [value_eq_signedUnits, value_eq_signedUnits, signedUnits, signedUnits, hmagnitude,
    magnitude_eq_nearest hf h, negative_nearestTo]
  by_cases hsign : y.negative = decide (n < 0)
  · rw [hsign]
  · rw [natAbs_signedUnits_sub, if_neg hsign, hmagnitude, Nat.dist] at hdist
    have hzero : f.units (f.nearest (n.natAbs * f.one)) = 0 := by
      rcases Nat.eq_zero_or_pos (n.natAbs * f.one) with ht | ht
      · rw [ht, Format.nearest_zero hf.precision_pos, f.units_zero]
      · omega
    rw [hzero, Nat.cast_zero, mul_zero, mul_zero]

theorem significand_nearestTo_mod_two (h : ¬ (nearestTo f n).isInfinite)
    (hne : y.value ≠ (nearestTo f n).value)
    (htie : |y.value - n| = |(nearestTo f n).value - n|) :
    (nearestTo f n).significand % 2 = 0 := by
  have hdist : (y.signedUnits - n * f.one).natAbs =
      Nat.dist (f.units (f.nearest (n.natAbs * f.one))) (n.natAbs * f.one) := by
    rw [← natAbs_nearestTo_sub hf h]
    exact le_antisymm ((abs_value_sub_le_iff hf).mp htie.le) ((abs_value_sub_le_iff hf).mp htie.ge)
  have hle := Format.dist_nearest_le hf.precision_pos (n.natAbs * f.one) y.magnitude.toNat
  have hmagnitude : y.magnitude.toNat ≠ f.nearest (n.natAbs * f.one) := by
    intro hmagnitude
    exact hne (value_eq_nearestTo hf h hmagnitude hdist)
  rw [significand_mod_two hf.binade_mod_two, magnitude_eq_nearest hf h]
  apply Format.nearest_mod_two hf.precision_pos hf.binade_mod_two hmagnitude
  exact le_antisymm (hdist ▸ dist_le_natAbs y n) hle

theorem roundedFrom_nearestTo (n : Int) : (nearestTo f n).RoundedFrom n f.overflow where
  not_nan := not_isNaN_nearestTo hf n
  infinite_iff := isInfinite_nearestTo_iff hf n
  nearest := by
    intro hn y _
    have hfinite : ¬ (nearestTo f n).isInfinite := by
      rw [isInfinite_nearestTo_iff hf]
      exact not_le.mpr hn
    rw [abs_value_sub_le_iff hf, natAbs_nearestTo_sub hf hfinite]
    exact (Format.dist_nearest_le hf.precision_pos _ _).trans (dist_le_natAbs y n)
  even := by
    intro hn y _ hne htie
    refine significand_nearestTo_mod_two hf ?_ hne htie
    rw [isInfinite_nearestTo_iff hf]
    exact not_le.mpr hn
  exact := fun _ hy h => nearestTo_exact hf hy h
  sign := rfl
  zero := by
    rintro rfl
    exact nearestTo_zero hf

theorem compare_nearestTo_ne_gt (h : m ≤ n) : compare (nearestTo f m) (nearestTo f n) ≠ .gt := by
  have hmono (k l : Nat) (hkl : k ≤ l) :
      min (f.nearest (k * f.one)) f.infinity ≤ min (f.nearest (l * f.one)) f.infinity :=
    min_le_min_right _ (Format.nearest_mono hf.precision_pos (Nat.mul_le_mul_right _ hkl))
  rw [compare_eq_compare_place (not_isNaN_nearestTo hf m) (not_isNaN_nearestTo hf n),
    Int.compare_ne_gt, place, place, toNat_magnitude_nearestTo hf, toNat_magnitude_nearestTo hf,
    negative_nearestTo, negative_nearestTo]
  by_cases hm : m < 0 <;> by_cases hn : n < 0
  · have hle := hmono n.natAbs m.natAbs (by omega)
    simp only [hm, hn, decide_true, if_true]
    omega
  · simp only [hm, hn, decide_true, decide_false, if_true, if_false, Bool.false_eq_true]
    exact (Int.negSucc_lt_zero _).le.trans (Int.natCast_nonneg _)
  · omega
  · have hle := hmono m.natAbs n.natAbs (by omega)
    simp only [hm, hn, decide_false, if_false, Bool.false_eq_true]
    exact Int.ofNat_le.mpr hle

end Pattern
end SolverValues.Ieee
