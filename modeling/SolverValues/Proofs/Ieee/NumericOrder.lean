import Mathlib.Algebra.Order.Ring.Cast
import Mathlib.Order.WithBot
import SolverValues.Proofs.Ieee.Place
import SolverValues.Proofs.Ieee.Value

/-!
The order of objects and the numbers that patterns stand for. Patterns of numbers, infinities
included, are ordered as their numbers are, but that negative zero precedes positive zero.
-/
namespace SolverValues.Ieee.Pattern

variable {f : Format} {x y : Pattern f}

/-- The number of a pattern that stands for one, with infinities at both ends. -/
def extendedValue (x : Pattern f) : WithBot (WithTop Rat) :=
  if x.isInfinite then if x.negative then ⊥ else ⊤ else (x.value : WithTop Rat)

/-- Arithmetic's own comparison, which fails where there is no number. -/
def Less (x y : Pattern f) : Prop :=
  ¬ x.isNaN ∧ ¬ y.isNaN ∧ x.extendedValue < y.extendedValue

/-- The zero of a sign. -/
def zero (f : Format) (negative : Bool) : Pattern f := ⟨negative, 0⟩

/-- How two patterns compare as objects, by the numbers they stand for. -/
structure ComparesNumerically (x y : Pattern f) : Prop where
  level_of_nan : x.isNaN → y.isNaN → compare x y = .eq
  nan_first : x.isNaN → ¬ y.isNaN → compare x y = .lt
  lt_iff : ¬ x.isNaN → ¬ y.isNaN → (compare x y = .lt ↔
    x.extendedValue < y.extendedValue ∨ x = zero f true ∧ y = zero f false)
  eq_iff : ¬ x.isNaN → ¬ y.isNaN → (compare x y = .eq ↔ x = y)
  lt_of_less : x.Less y → compare x y = .lt
  less_of_lt : ¬ x.isNaN → ¬ y.isNaN → compare x y = .lt →
    x.Less y ∨ x = zero f true ∧ y = zero f false

/-- The place of a pattern of a number. -/
def place (x : Pattern f) : Int :=
  if x.negative then Int.negSucc x.magnitude.toNat else Int.ofNat x.magnitude.toNat

theorem place?_eq_some (hx : ¬ x.isNaN) : x.place? = some x.place := by
  by_cases hs : x.negative <;> simp [place?, place, hx, hs]

theorem compare_eq_compare_place (hx : ¬ x.isNaN) (hy : ¬ y.isNaN) :
    compare x y = compare x.place y.place := by
  change compare x.place? y.place? = _
  rw [place?_eq_some hx, place?_eq_some hy]
  rfl

theorem eq_zero_iff {negative : Bool} :
    x = zero f negative ↔ x.negative = negative ∧ x.magnitude.toNat = 0 := by
  obtain ⟨sign, magnitude⟩ := x
  simp [zero, ← BitVec.toNat_inj]

/-- Places tell the two zeros apart, units do not. -/
theorem place_lt_place_iff : x.place < y.place ↔
    x.signedUnits < y.signedUnits ∨ x = zero f true ∧ y = zero f false := by
  have hlt := f.units_lt_units (m := x.magnitude.toNat) (n := y.magnitude.toNat)
  have hgt := f.units_lt_units (m := y.magnitude.toNat) (n := x.magnitude.toNat)
  have hx := f.units_lt_units (m := 0) (n := x.magnitude.toNat)
  have hy := f.units_lt_units (m := 0) (n := y.magnitude.toNat)
  rw [f.units_zero] at hx hy
  rw [eq_zero_iff, eq_zero_iff, place, place, signedUnits, signedUnits]
  cases x.negative <;> cases y.negative <;> simp <;> omega

/-- The units of infinity are out of reach of finite patterns, on both sides. -/
theorem extendedValue_cases (hx : ¬ x.isNaN) :
    (x.extendedValue = ⊥ ∧ x.signedUnits = -f.units f.infinity) ∨
    (x.extendedValue = (x.value : WithTop Rat) ∧
      -f.units f.infinity < x.signedUnits ∧ x.signedUnits < f.units f.infinity) ∨
    (x.extendedValue = ⊤ ∧ x.signedUnits = f.units f.infinity) := by
  by_cases hinf : x.isInfinite
  · have hmagnitude : x.magnitude.toNat = f.infinity := by simpa [isInfinite] using hinf
    rw [extendedValue, if_pos hinf, signedUnits, hmagnitude]
    cases x.negative with
    | true => exact .inl ⟨rfl, by simp⟩
    | false => exact .inr (.inr ⟨rfl, by simp⟩)
  · have hlt : x.magnitude.toNat < f.infinity := by
      have hne : x.magnitude.toNat ≠ f.infinity := by simpa [isInfinite] using hinf
      have hle : x.magnitude.toNat ≤ f.infinity := by simpa [isNaN] using hx
      omega
    have hunits := f.units_lt_units.mpr hlt
    refine .inr (.inl ⟨if_neg hinf, ?_⟩)
    rw [signedUnits]
    cases x.negative <;> simp <;> omega

theorem value_lt_value_iff : x.value < y.value ↔ x.signedUnits < y.signedUnits := by
  have hpos : (0 : Rat) < 2 ^ f.leastExponent := zpow_pos two_pos _
  rw [value_eq_signedUnits, value_eq_signedUnits, mul_lt_mul_iff_of_pos_right hpos, Int.cast_lt]

theorem extendedValue_lt_iff (hf : 0 < f.infinity) (hx : ¬ x.isNaN) (hy : ¬ y.isNaN) :
    x.extendedValue < y.extendedValue ↔ x.signedUnits < y.signedUnits := by
  have hpos : 0 < f.units f.infinity := by
    rw [← f.units_zero]
    exact f.units_lt_units.mpr hf
  rcases extendedValue_cases hx with ⟨hx, hux⟩ | ⟨hx, hux⟩ | ⟨hx, hux⟩ <;>
    rcases extendedValue_cases hy with ⟨hy, huy⟩ | ⟨hy, huy⟩ | ⟨hy, huy⟩ <;>
    rw [hx, hy]
  · exact iff_of_false (lt_irrefl _) (by omega)
  · exact iff_of_true (WithBot.bot_lt_coe _) (by omega)
  · exact iff_of_true bot_lt_top (by omega)
  · exact iff_of_false not_lt_bot (by omega)
  · rw [WithBot.coe_lt_coe, WithTop.coe_lt_coe, value_lt_value_iff]
  · exact iff_of_true (WithBot.coe_lt_coe.mpr (WithTop.coe_lt_top _)) (by omega)
  all_goals exact iff_of_false not_top_lt (by omega)

theorem comparesNumerically (hf : 0 < f.infinity) (x y : Pattern f) : ComparesNumerically x y := by
  have hlt (hx : ¬ x.isNaN) (hy : ¬ y.isNaN) : compare x y = .lt ↔
      x.extendedValue < y.extendedValue ∨ x = zero f true ∧ y = zero f false := by
    rw [compare_eq_compare_place hx hy, Int.compare_eq_lt, place_lt_place_iff,
      extendedValue_lt_iff hf hx hy]
  refine ⟨?_, ?_, hlt, ?_, ?_, ?_⟩
  · intro hx hy
    exact compare_eq_iff.mpr (.inl ⟨hx, hy⟩)
  · intro hx hy
    change compare x.place? y.place? = .lt
    rw [place?_eq_none.mpr hx, place?_eq_some hy]
    rfl
  · intro hx _
    rw [compare_eq_iff]
    exact or_iff_right fun h => hx h.1
  · rintro ⟨hx, hy, hless⟩
    exact (hlt hx hy).mpr (.inl hless)
  · intro hx hy h
    exact ((hlt hx hy).mp h).imp_left fun hless => ⟨hx, hy, hless⟩

/-- Single and double precision. -/
theorem compare_refines_value :
    (∀ x y : Binary32, ComparesNumerically x y) ∧ ∀ x y : Binary64, ComparesNumerically x y :=
  ⟨comparesNumerically (by decide), comparesNumerically (by decide)⟩

end SolverValues.Ieee.Pattern
