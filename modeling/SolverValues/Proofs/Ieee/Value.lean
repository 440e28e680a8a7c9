import Mathlib.Algebra.Field.Rat
import Mathlib.Algebra.Order.Ring.Rat
import Mathlib.Order.Monotone.Basic
import Mathlib.Tactic.Ring
import SolverValues.Ieee.Rounding

/-!
The numbers that finite patterns stand for. Every one is a multiple of the least positive number, so
magnitudes are counted in that unit, infinity as the power of two that would come next. A greater
magnitude counts more units.
-/
namespace SolverValues.Ieee

variable {f : Format} {steps s m n : Nat}

namespace Format

theorem infinity_lt (hp : 0 < f.precision) : f.infinity < 2 ^ f.magnitudeWidth := by
  have hwidth : f.magnitudeWidth = f.exponentWidth + (f.precision - 1) := by
    unfold magnitudeWidth
    omega
  have hpos : 0 < 2 ^ f.exponentWidth := Nat.two_pow_pos _
  rw [hwidth, Nat.pow_add]
  exact Nat.mul_lt_mul_of_pos_right (Nat.sub_lt hpos Nat.one_pos) (Nat.two_pow_pos _)

theorem two_mul_binade (hp : 0 < f.precision) : 2 * f.binade = 2 ^ f.precision := by
  have h : f.precision = f.precision - 1 + 1 := by omega
  rw [h, Nat.pow_succ']
  rfl

/-- The number of a magnitude in units of the least positive number. -/
def units (f : Format) (m : Nat) : Nat :=
  (m % f.binade + if m / f.binade = 0 then 0 else f.binade) * 2 ^ (m / f.binade - 1)

theorem binade_pos (f : Format) : 0 < f.binade := Nat.two_pow_pos _

theorem units_of_lt (h : m < f.binade) : f.units m = m := by
  simp [units, Nat.div_eq_of_lt h, Nat.mod_eq_of_lt h]

theorem units_normal (h : s < f.binade) (steps : Nat) :
    f.units ((steps + 1) * f.binade + s) = (f.binade + s) * 2 ^ steps := by
  have hdiv : ((steps + 1) * f.binade + s) / f.binade = steps + 1 := by
    rw [Nat.add_comm, Nat.add_mul_div_right _ _ f.binade_pos, Nat.div_eq_of_lt h, Nat.zero_add]
  rw [units, hdiv, Nat.mul_add_mod_of_lt h, if_neg (Nat.succ_ne_zero steps), Nat.add_comm s]
  rfl

/-- A significand that is a power of two may be read in its own binade and in the one below. -/
theorem units_eq (hs : s ≤ 2 * f.binade) (hleading : steps = 0 ∨ f.binade ≤ s) :
    f.units (steps * f.binade + s) = s * 2 ^ steps := by
  rcases Nat.lt_or_ge s f.binade with hlow | hlow
  · have hzero : steps = 0 := by omega
    rw [hzero, Nat.zero_mul, Nat.zero_add, units_of_lt hlow, pow_zero, Nat.mul_one]
  obtain ⟨rest, rfl⟩ := Nat.exists_eq_add_of_le hlow
  rcases Nat.lt_or_ge rest f.binade with hrest | hrest
  · have hsplit : steps * f.binade + (f.binade + rest) = (steps + 1) * f.binade + rest := by ring
    rw [hsplit, units_normal hrest]
  · have hfull : rest = f.binade := by omega
    have hsplit : steps * f.binade + (f.binade + f.binade) = (steps + 1 + 1) * f.binade + 0 := by
      ring
    rw [hfull, hsplit, units_normal f.binade_pos]
    ring

/-- Every magnitude lies a number of binades above a significand, which has its leading bit unless
it lies in the lowest binade. -/
theorem exists_steps (f : Format) (m : Nat) : ∃ steps s, m = steps * f.binade + s ∧
    s < 2 * f.binade ∧ (steps = 0 ∨ f.binade ≤ s) := by
  have hdiv := Nat.div_add_mod' m f.binade
  have hmod := Nat.mod_lt m f.binade_pos
  obtain hfield | ⟨steps, hfield⟩ : m / f.binade = 0 ∨ ∃ steps, m / f.binade = steps + 1 := by
    cases m / f.binade with
    | zero => exact .inl rfl
    | succ steps => exact .inr ⟨steps, rfl⟩
  · refine ⟨0, m, by omega, ?_, .inl rfl⟩
    rw [hfield] at hdiv
    omega
  · refine ⟨steps, m % f.binade + f.binade, ?_, by omega, .inr (by omega)⟩
    rw [hfield, Nat.add_mul] at hdiv
    omega

theorem units_strictMono (f : Format) : StrictMono f.units := by
  apply strictMono_nat_of_lt_succ
  intro m
  obtain ⟨steps, s, rfl, hs, hleading⟩ := f.exists_steps m
  rw [units_eq hs.le hleading, Nat.add_assoc, units_eq hs (by omega)]
  exact Nat.mul_lt_mul_of_pos_right (Nat.lt_succ_self s) (Nat.two_pow_pos steps)

theorem units_lt_units : f.units m < f.units n ↔ m < n := f.units_strictMono.lt_iff_lt

theorem units_zero (f : Format) : f.units 0 = 0 := by
  simp [units]

end Format

namespace Pattern

/-- The number that a finite pattern stands for. -/
def value (x : Pattern f) : Rat :=
  (if x.negative then -1 else 1) * (x.significand * 2 ^ x.exponent)

/-- The number of a pattern in units of the least positive number. -/
def signedUnits (x : Pattern f) : Int :=
  (if x.negative then -1 else 1) * f.units x.magnitude.toNat

theorem value_eq_signedUnits (x : Pattern f) : x.value = x.signedUnits * 2 ^ f.leastExponent := by
  have hexponent : (2 : Rat) ^ x.exponent = 2 ^ f.leastExponent * 2 ^ (x.exponentField - 1) := by
    rw [exponent, zpow_add₀ two_ne_zero]
    rfl
  have hunits : (f.units x.magnitude.toNat : Rat) =
      x.significand * 2 ^ (x.exponentField - 1) := by
    rw [← Nat.cast_two, ← Nat.cast_pow, ← Nat.cast_mul]
    rfl
  rw [value, signedUnits, hexponent]
  push_cast
  rw [hunits]
  ring

end Pattern
end SolverValues.Ieee
