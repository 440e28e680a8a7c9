import Mathlib.Data.Nat.Dist
import SolverValues.Proofs.Ieee.Value

/-!
Rounding to the nearest. Among the numbers of a format without an end the rounded one is the
nearest, and it is even where another one is equally near. Rounding keeps order, reaches infinity from
the midpoint below it on, and does not change a number whose significant bits fit the format.
-/
namespace SolverValues.Ieee

variable {f : Format} {s j k m t : Nat} {e last least : Int}

theorem two_mul_dist_halfEven_le (t s : Nat) : 2 * Nat.dist (halfEven t s * 2 ^ s) t ≤ 2 ^ s := by
  have hsplit := Nat.div_add_mod' t (2 ^ s)
  have hmod := Nat.mod_lt t (Nat.two_pow_pos s)
  simp only [halfEven, Nat.pow_eq, Nat.dist]
  split
  · rw [Nat.add_mul]
    omega
  · omega

theorem halfEven_mod_two (h : 2 * Nat.dist (halfEven t s * 2 ^ s) t = 2 ^ s) :
    halfEven t s % 2 = 0 := by
  have hsplit := Nat.div_add_mod' t (2 ^ s)
  have hmod := Nat.mod_lt t (Nat.two_pow_pos s)
  simp only [halfEven, Nat.pow_eq, Nat.dist] at h ⊢
  split
  · rename_i hup
    rw [if_pos hup, Nat.add_mul] at h
    omega
  · rename_i hdown
    rw [if_neg hdown] at h
    omega

/-- Two multiples are at least one unit apart. -/
theorem le_dist_mul_mul (h : j ≠ k) (u : Nat) : u ≤ Nat.dist (j * u) (k * u) := by
  rw [Nat.dist_mul_right]
  exact Nat.le_mul_of_pos_left u (Nat.dist_pos_of_ne h)

theorem dist_halfEven_le (t s j : Nat) :
    Nat.dist (halfEven t s * 2 ^ s) t ≤ Nat.dist (j * 2 ^ s) t := by
  by_cases hj : halfEven t s = j
  · rw [hj]
  · have herror := two_mul_dist_halfEven_le t s
    have hstep := le_dist_mul_mul hj (2 ^ s)
    have htriangle := Nat.dist.triangle_inequality (halfEven t s * 2 ^ s) t (j * 2 ^ s)
    rw [Nat.dist_comm t] at htriangle
    omega

theorem halfEven_eq_of_dist_lt (h : 2 * Nat.dist (j * 2 ^ s) t < 2 ^ s) : halfEven t s = j := by
  by_contra hne
  have hnear := dist_halfEven_le t s j
  have hstep := le_dist_mul_mul hne (2 ^ s)
  have htriangle := Nat.dist.triangle_inequality (halfEven t s * 2 ^ s) t (j * 2 ^ s)
  rw [Nat.dist_comm t] at htriangle
  omega

theorem halfEven_mod_two_of_tie (hj : j ≠ halfEven t s)
    (htie : Nat.dist (j * 2 ^ s) t = Nat.dist (halfEven t s * 2 ^ s) t) :
    halfEven t s % 2 = 0 := by
  apply halfEven_mod_two
  have herror := two_mul_dist_halfEven_le t s
  have hstep := le_dist_mul_mul hj.symm (2 ^ s)
  have htriangle := Nat.dist.triangle_inequality (halfEven t s * 2 ^ s) t (j * 2 ^ s)
  rw [Nat.dist_comm t] at htriangle
  omega

theorem log2_mul_two_pow (hm : m ≠ 0) (j : Nat) : (m * 2 ^ j).log2 = m.log2 + j := by
  rw [Nat.log2_eq_iff (Nat.mul_ne_zero hm (Nat.two_pow_pos j).ne')]
  constructor
  · rw [pow_add]
    exact Nat.mul_le_mul_right _ (Nat.log2_self_le hm)
  · rw [Nat.add_right_comm, pow_add]
    exact Nat.mul_lt_mul_of_pos_right Nat.lt_log2_self (Nat.two_pow_pos j)

/-- Rounding does not cross a multiple. -/
theorem halfEven_le (h : t ≤ j * 2 ^ s) : halfEven t s ≤ j := by
  by_contra hlt
  have hmul := Nat.mul_lt_mul_of_pos_right (not_le.mp hlt) (Nat.two_pow_pos s)
  have hnear := dist_halfEven_le t s j
  rw [Nat.dist, Nat.dist] at hnear
  omega

theorem le_halfEven (h : j * 2 ^ s ≤ t) : j ≤ halfEven t s := by
  by_contra hlt
  have hmul := Nat.mul_lt_mul_of_pos_right (not_le.mp hlt) (Nat.two_pow_pos s)
  have hnear := dist_halfEven_le t s j
  rw [Nat.dist, Nat.dist] at hnear
  omega

theorem halfEven_zero (t : Nat) : halfEven t 0 = t := by
  simp [halfEven, Nat.mod_one]

theorem halfEven_mul_two_pow (t s j : Nat) : halfEven (t * 2 ^ j) (s + j) = halfEven t s := by
  have hpos := Nat.two_pow_pos j
  have hpow : 2 ^ (s + j) = 2 ^ s * 2 ^ j := pow_add 2 s j
  simp only [halfEven, Nat.pow_eq, hpow, Nat.mul_mod_mul_right, Nat.mul_div_mul_right _ _ hpos,
    ← Nat.mul_assoc]
  simp [hpos]

/-- A number is rounded at its last place in the same way whatever unit it is counted in, also where
it has no bits after that place. -/
theorem kept_eq_halfEven (m : Nat) (he : least ≤ e) (hlast : least ≤ last) :
    (if last ≤ e then m * 2 ^ (e - last).toNat else halfEven m (last - e).toNat) =
      halfEven (m * 2 ^ (e - least).toNat) (last - least).toNat := by
  split
  · have hsplit : (e - least).toNat = (e - last).toNat + (last - least).toNat := by omega
    have hwhole := halfEven_mul_two_pow (m * 2 ^ (e - last).toNat) 0 (last - least).toNat
    rw [Nat.zero_add, halfEven_zero, Nat.mul_assoc, ← pow_add, ← hsplit] at hwhole
    exact hwhole.symm
  · have hsplit : (last - least).toNat = (last - e).toNat + (e - least).toNat := by omega
    rw [hsplit, halfEven_mul_two_pow]

namespace Format

/-- How many binades above the lowest the significand of `t` units is kept. -/
def steps (f : Format) (t : Nat) : Nat := t.log2 + 1 - f.precision

/-- The magnitude nearest to `t` units in a format that has no infinity. -/
def nearest (f : Format) (t : Nat) : Nat :=
  f.steps t * f.binade + halfEven t (f.steps t)

variable (hp : 0 < f.precision)

include hp

theorem nearest_zero : f.nearest 0 = 0 := by
  have hsteps : f.steps 0 = 0 := by
    rw [steps, Nat.log2_zero]
    omega
  rw [nearest, hsteps, Nat.zero_mul, halfEven_zero]

omit hp in
/-- Scaling by a power of two moves a number that loses bits by that many binades. -/
theorem nearest_mul_two_pow (hm : m ≠ 0) (hlog : m.log2 + 1 = f.precision + s) (j : Nat) :
    f.nearest (m * 2 ^ j) = (s + j) * f.binade + halfEven m s := by
  have hsteps : f.steps (m * 2 ^ j) = s + j := by
    rw [steps, log2_mul_two_pow hm]
    omega
  rw [nearest, hsteps, halfEven_mul_two_pow]

theorem lt_two_binades (t : Nat) : t < 2 * f.binade * 2 ^ f.steps t := by
  have hlog := Nat.lt_log2_self (n := t)
  rw [two_mul_binade hp, ← pow_add]
  exact hlog.trans_le (Nat.pow_le_pow_right (by decide) (by unfold steps; omega))

theorem binade_le (t : Nat) : f.steps t = 0 ∨ f.binade * 2 ^ f.steps t ≤ t := by
  by_cases hsteps : f.steps t = 0
  · exact .inl hsteps
  · have ht : t ≠ 0 := by
      rintro rfl
      simp only [steps, Nat.log2_zero] at hsteps
      omega
    have hexponent : f.precision - 1 + f.steps t = t.log2 := by
      unfold steps at hsteps ⊢
      omega
    right
    calc
      f.binade * 2 ^ f.steps t = 2 ^ (f.precision - 1 + f.steps t) := (pow_add 2 _ _).symm
      _ = 2 ^ t.log2 := by rw [hexponent]
      _ ≤ t := Nat.log2_self_le ht

theorem units_nearest (t : Nat) :
    f.units (f.nearest t) = halfEven t (f.steps t) * 2 ^ f.steps t :=
  units_eq (halfEven_le (lt_two_binades hp t).le) ((binade_le hp t).imp_right le_halfEven)

omit hp in
/-- From a binade on all numbers are multiples of its last place. -/
theorem units_grid (f : Format) (k a : Nat) :
    (∃ j, f.units k = j * 2 ^ a) ∨ a ≠ 0 ∧ f.units k < f.binade * 2 ^ a := by
  obtain ⟨b, s, rfl, hs, hleading⟩ := f.exists_steps k
  rw [units_eq hs.le hleading]
  rcases Nat.lt_or_ge b a with hlt | hge
  · obtain ⟨c, rfl⟩ := Nat.exists_eq_add_of_lt hlt
    refine .inr ⟨by omega, ?_⟩
    calc
      s * 2 ^ b < 2 * f.binade * 2 ^ b := Nat.mul_lt_mul_of_pos_right hs (Nat.two_pow_pos b)
      _ = f.binade * 2 ^ (b + 1) := by ring
      _ ≤ f.binade * 2 ^ (b + c + 1) :=
        Nat.mul_le_mul_left _ (Nat.pow_le_pow_right (by decide) (by omega))
  · obtain ⟨c, rfl⟩ := Nat.exists_eq_add_of_le hge
    exact .inl ⟨s * 2 ^ c, by ring⟩

/-- A number off the grid lies below the binade, whose start is nearer. -/
theorem dist_nearest_lt (t : Nat) (hsteps : f.steps t ≠ 0)
    (hk : f.units k < f.binade * 2 ^ f.steps t) :
    Nat.dist (f.units (f.nearest t)) t < Nat.dist (f.units k) t := by
  have hbinade := (binade_le hp t).resolve_left hsteps
  rw [units_nearest hp]
  calc
    Nat.dist (halfEven t (f.steps t) * 2 ^ f.steps t) t
        ≤ Nat.dist (f.binade * 2 ^ f.steps t) t := dist_halfEven_le t _ _
    _ < Nat.dist (f.units k) t := by
      rw [Nat.dist, Nat.dist]
      omega

theorem dist_nearest_le (t k : Nat) :
    Nat.dist (f.units (f.nearest t)) t ≤ Nat.dist (f.units k) t := by
  obtain ⟨j, hj⟩ | ⟨hsteps, hk⟩ := f.units_grid k (f.steps t)
  · rw [units_nearest hp, hj]
    exact dist_halfEven_le t _ j
  · exact (dist_nearest_lt hp t hsteps hk).le

theorem nearest_mod_two (heven : f.binade % 2 = 0) (hk : k ≠ f.nearest t)
    (htie : Nat.dist (f.units k) t = Nat.dist (f.units (f.nearest t)) t) :
    f.nearest t % 2 = 0 := by
  obtain ⟨j, hj⟩ | ⟨hsteps, hbelow⟩ := f.units_grid k (f.steps t)
  · have hne : j ≠ halfEven t (f.steps t) := by
      rintro rfl
      rw [← units_nearest hp] at hj
      exact hk (f.units_strictMono.injective hj)
    rw [units_nearest hp, hj] at htie
    rw [nearest, Nat.add_mod, Nat.mul_mod, heven, halfEven_mod_two_of_tie hne htie]
    rfl
  · exact absurd htie (dist_nearest_lt hp t hsteps hbelow).ne'

theorem nearest_mono : Monotone f.nearest := by
  intro t u htu
  by_contra hlt
  have hunits := f.units_lt_units.mpr (not_le.mp hlt)
  have ht := dist_nearest_le hp t (f.nearest u)
  have hu := dist_nearest_le hp u (f.nearest t)
  rw [Nat.dist, Nat.dist] at ht hu
  -- Each would have to lie on its side of the midpoint, so both are the midpoint.
  have heq : t = u := by omega
  rw [heq] at hlt
  exact hlt le_rfl

/-- The magnitude before an even one is reached exactly below the midpoint of the two. -/
theorem le_nearest_iff (heven : f.binade % 2 = 0) (hm : m % 2 = 0) (hpos : 0 < m) :
    m ≤ f.nearest t ↔ f.units (m - 1) + f.units m ≤ 2 * t := by
  constructor
  · intro hle
    have hunits := f.units_strictMono.monotone hle
    have hstep := f.units_lt_units.mpr (Nat.sub_lt hpos Nat.one_pos)
    have hnear := dist_nearest_le hp t (m - 1)
    rw [Nat.dist, Nat.dist] at hnear
    omega
  · intro hmid
    by_contra hlt
    have hle : f.nearest t ≤ m - 1 := by omega
    have hunits := f.units_strictMono.monotone hle
    have hstep := f.units_lt_units.mpr (Nat.sub_lt hpos Nat.one_pos)
    have hnear := dist_nearest_le hp t m
    -- Only the odd magnitude next to `m` is as near as `m` is, but a tie is even.
    have htie : Nat.dist (f.units m) t = Nat.dist (f.units (f.nearest t)) t := by
      rw [Nat.dist, Nat.dist] at hnear ⊢
      omega
    have heq : f.nearest t = m - 1 := by
      apply f.units_strictMono.injective
      rw [Nat.dist, Nat.dist] at htie
      omega
    have htwo := nearest_mod_two hp heven (by omega) htie
    omega

/-- An exact binary number is rounded as its units are, so it does not matter how it is written. -/
theorem roundMagnitude_eq_min_nearest (he : f.leastExponent ≤ e) :
    f.roundMagnitude m e =
      min (f.nearest (m * 2 ^ (e - f.leastExponent).toNat)) f.infinity := by
  by_cases hm : m = 0
  · simp [roundMagnitude, hm, nearest_zero hp]
  have hlast : f.lastPlace m e =
      max (e + (m.log2 + 1 : Nat) - f.precision) f.leastExponent := rfl
  have hsteps : (f.lastPlace m e - f.leastExponent).toNat =
      f.steps (m * 2 ^ (e - f.leastExponent).toNat) := by
    rw [steps, log2_mul_two_pow hm]
    omega
  have hkept := kept_eq_halfEven m he (le_max_right _ _ |>.trans_eq hlast.symm)
  rw [nearest, ← hsteps, ← hkept]
  exact if_neg hm

/-- A number whose significant bits fit the format is kept at no place above its last one. -/
theorem steps_le (hm : m < 2 ^ f.precision) (shift : Nat) : f.steps (m * 2 ^ shift) ≤ shift := by
  by_cases hzero : m = 0
  · rw [hzero, Nat.zero_mul, steps, Nat.log2_zero]
    omega
  · have hlog := (Nat.log2_lt hzero).mpr hm
    rw [steps, log2_mul_two_pow hzero]
    omega

theorem units_nearest_exact (hm : m < 2 ^ f.precision) (shift : Nat) :
    f.units (f.nearest (m * 2 ^ shift)) = m * 2 ^ shift := by
  have hle := steps_le hp hm shift
  rw [units_nearest hp]
  generalize f.steps (m * 2 ^ shift) = kept at hle ⊢
  obtain ⟨rest, rfl⟩ := Nat.exists_eq_add_of_le hle
  have hwhole := halfEven_mul_two_pow (m * 2 ^ rest) 0 kept
  rw [Nat.zero_add, halfEven_zero] at hwhole
  rw [Nat.add_comm kept, pow_add, ← Nat.mul_assoc, hwhole]

theorem nearest_lt (hm : m < 2 ^ f.precision) (shift : Nat) :
    f.nearest (m * 2 ^ shift) < (shift + 2) * f.binade := by
  rw [← f.units_lt_units, units_nearest_exact hp hm, Nat.add_mul, units_eq le_rfl (by omega),
    two_mul_binade hp]
  exact Nat.mul_lt_mul_of_pos_right hm (Nat.two_pow_pos shift)

end Format

namespace Pattern

/-- A number that fits the format is rounded to itself. -/
theorem round_exact (hp : 0 < f.precision) (hm : m < 2 ^ f.precision)
    (he : f.leastExponent ≤ e) (hroom : e - f.leastExponent + 3 ≤ 2 ^ f.exponentWidth)
    (negative : Bool) :
    (round f negative m e).isNaN = false ∧ (round f negative m e).isInfinite = false ∧
      (round f negative m e).value = (if negative then -1 else 1) * (m * 2 ^ e) := by
  obtain ⟨shift, hshift⟩ : ∃ shift : Nat, e = f.leastExponent + shift :=
    ⟨(e - f.leastExponent).toNat, by omega⟩
  have hround : f.roundMagnitude m e = min (f.nearest (m * 2 ^ shift)) f.infinity := by
    rw [Format.roundMagnitude_eq_min_nearest hp he, hshift, add_sub_cancel_left,
      Int.toNat_natCast]
  have hbelow : f.nearest (m * 2 ^ shift) < f.infinity := by
    have hfield : shift + 2 ≤ 2 ^ f.exponentWidth - 1 := by
      have hcast : ((2 ^ f.exponentWidth : Nat) : Int) = 2 ^ f.exponentWidth := by push_cast; rfl
      omega
    exact (Format.nearest_lt hp hm shift).trans_le (Nat.mul_le_mul_right _ hfield)
  have hmagnitude : (round f negative m e).magnitude.toNat = f.nearest (m * 2 ^ shift) := by
    have hwidth := f.infinity_lt hp
    rw [round, hround, Nat.min_eq_left hbelow.le, BitVec.toNat_ofNat]
    exact Nat.mod_eq_of_lt (by omega)
  refine ⟨?_, ?_, ?_⟩
  · rw [isNaN, hmagnitude]
    simpa using hbelow.le
  · rw [isInfinite, hmagnitude]
    simpa using hbelow.ne
  · rw [value_eq_signedUnits, signedUnits, hmagnitude, Format.units_nearest_exact hp hm, hshift,
      zpow_add₀ two_ne_zero, zpow_natCast]
    push_cast
    cases negative <;> simp [round] <;> ring

end Pattern
end SolverValues.Ieee
