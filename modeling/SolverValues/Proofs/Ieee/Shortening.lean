import SolverValues.Ieee.Integral
import SolverValues.Proofs.Ieee.CorrectRounding

/-!
Shortening before rounding. If the last of 64 leading bits tells whether a bit is set among those
cut off, shortening does not change what the number is rounded to. For two limbs it always tells.
-/
namespace SolverValues.Ieee

variable {f : Format} {n s t cut : Nat}

/-- The bits of `n` from the lowest `cut` ones on. The last one is set also if one of those is. -/
def jam (n cut : Nat) : Nat :=
  if n % 2 ^ cut = 0 then n / 2 ^ cut else n / 2 ^ cut / 2 * 2 + 1

theorem jam_zero (n : Nat) : jam n 0 = n := by
  simp [jam, Nat.mod_one]

theorem dist_jam_lt (n cut : Nat) : Nat.dist (jam n cut * 2 ^ cut) n < 2 ^ cut := by
  have hsplit := Nat.div_add_mod' n (2 ^ cut)
  have hlt := Nat.mod_lt n (Nat.two_pow_pos cut)
  rw [Nat.dist, jam]
  generalize n / 2 ^ cut = leading at hsplit ⊢
  split
  · omega
  · rcases Nat.mod_two_eq_zero_or_one leading with heven | hodd
    · have hjam : leading / 2 * 2 + 1 = leading + 1 := by omega
      rw [hjam, Nat.add_mul]
      omega
    · have hjam : leading / 2 * 2 + 1 = leading := by omega
      rw [hjam]
      omega

/-- An odd number is at an odd distance from all multiples of four, so it is no midpoint. -/
theorem dist_halfEven_lt_of_odd (h : t % 2 = 1) (s : Nat) :
    Nat.dist (halfEven t (s + 2) * 2 ^ (s + 2)) t < 2 * 2 ^ s := by
  have herror := two_mul_dist_halfEven_le t (s + 2)
  have hfour : halfEven t (s + 2) * (2 ^ s * 2 ^ 2) = 4 * (halfEven t (s + 2) * 2 ^ s) := by ring
  rw [pow_add, Nat.dist, hfour] at herror ⊢
  omega

/-- Two bits after the last place kept are enough: a number with a bit jammed into the last of them
is no midpoint, and neither is what it was shortened from. -/
theorem halfEven_jam (n cut s : Nat) :
    halfEven (jam n cut) (s + 2) = halfEven n (s + 2 + cut) := by
  by_cases hlost : n % 2 ^ cut = 0
  · have hsplit : n = jam n cut * 2 ^ cut := by
      rw [jam, if_pos hlost]
      exact (Nat.div_mul_cancel (Nat.dvd_of_mod_eq_zero hlost)).symm
    nth_rewrite 2 [hsplit]
    exact (halfEven_mul_two_pow _ _ _).symm
  symm
  apply halfEven_eq_of_dist_lt
  have hpos := Nat.two_pow_pos cut
  have hjam := dist_jam_lt n cut
  have hodd : jam n cut % 2 = 1 := by
    rw [jam, if_neg hlost]
    omega
  have hnear := dist_halfEven_lt_of_odd hodd s
  calc
    2 * Nat.dist (halfEven (jam n cut) (s + 2) * 2 ^ (s + 2 + cut)) n
        ≤ 2 * (Nat.dist (halfEven (jam n cut) (s + 2) * 2 ^ (s + 2 + cut)) (jam n cut * 2 ^ cut) +
            Nat.dist (jam n cut * 2 ^ cut) n) :=
      Nat.mul_le_mul_left 2 (Nat.dist.triangle_inequality _ _ _)
    _ < 2 * (Nat.dist (halfEven (jam n cut) (s + 2) * 2 ^ (s + 2)) (jam n cut) * 2 ^ cut +
          2 ^ cut) := by
      rw [pow_add, ← Nat.mul_assoc, Nat.dist_mul_right]
      omega
    _ = 2 * ((Nat.dist (halfEven (jam n cut) (s + 2) * 2 ^ (s + 2)) (jam n cut) + 1) *
          2 ^ cut) := by ring
    _ ≤ 2 * (2 * 2 ^ s * 2 ^ cut) :=
      Nat.mul_le_mul_left 2 (Nat.mul_le_mul_right _ hnear)
    _ = 2 ^ (s + 2 + cut) := by ring

theorem le_jam (h : 2 ^ (s + 1 + cut) ≤ n) : 2 ^ (s + 1) ≤ jam n cut := by
  have hleading : 2 ^ (s + 1) ≤ n / 2 ^ cut := by
    rwa [Nat.le_div_iff_mul_le (Nat.two_pow_pos cut), ← pow_add]
  rw [pow_succ] at hleading ⊢
  rw [jam]
  split <;> omega

theorem jam_lt (h : n < 2 ^ (s + 1 + cut)) : jam n cut < 2 ^ (s + 1) := by
  have hleading : n / 2 ^ cut < 2 ^ (s + 1) := by
    rwa [Nat.div_lt_iff_lt_mul (Nat.two_pow_pos cut), ← pow_add]
  rw [pow_succ] at hleading ⊢
  rw [jam]
  split <;> omega

theorem log2_jam (hlog : n.log2 = s + 1 + cut) : (jam n cut).log2 = s + 1 := by
  have hn : n ≠ 0 := by
    rintro rfl
    rw [Nat.log2_zero] at hlog
    omega
  have hlow : 2 ^ (s + 1) ≤ jam n cut := le_jam (hlog ▸ Nat.log2_self_le hn)
  have hhigh : jam n cut < 2 ^ (s + 1 + 1) := by
    apply jam_lt
    rw [Nat.add_right_comm, ← hlog]
    exact Nat.lt_log2_self
  exact (Nat.log2_eq_iff ((Nat.two_pow_pos _).trans_le hlow).ne').mpr ⟨hlow, hhigh⟩

namespace Format

/-- Two bits after the last place kept, a number is rounded as what it was shortened from. -/
theorem nearest_jam_mul_two_pow (hlog : n.log2 = f.precision + s + 1 + cut) (j : Nat) :
    f.nearest (jam n cut * 2 ^ (cut + j)) = f.nearest (n * 2 ^ j) := by
  have hn : n ≠ 0 := by
    rintro rfl
    rw [Nat.log2_zero] at hlog
    omega
  have hjam : jam n cut ≠ 0 := by
    have hlow := le_jam (hlog ▸ Nat.log2_self_le hn)
    exact ((Nat.two_pow_pos _).trans_le hlow).ne'
  have hlogJam := log2_jam hlog
  rw [nearest_mul_two_pow (s := s + 2) hjam (by omega),
    nearest_mul_two_pow (s := s + 2 + cut) hn (by omega), halfEven_jam, ← Nat.add_assoc (s + 2)]

end Format

/-- A bit is seen among those cut off if there is one. -/
def SeesLostBits (n : Nat) : Prop :=
  lowBitSet n (n.log2 % 64 + 1) = true ↔ n % 2 ^ (n.log2 - 63) ≠ 0

theorem shorten_eq (h : SeesLostBits n) : shorten n = (jam n (n.log2 - 63), n.log2 - 63) := by
  unfold SeesLostBits at h
  by_cases hlost : n % 2 ^ (n.log2 - 63) = 0
  · have hunseen : ¬ lowBitSet n (n.log2 % 64 + 1) := by simpa [h] using hlost
    simp only [shorten, jam, if_neg hunseen, if_pos hlost]
    rfl
  · simp only [shorten, jam, if_pos (h.mpr hlost), if_neg hlost]
    rfl

/-- In two limbs just the bits that are searched are cut off, and in one limb there are none. -/
theorem seesLostBits_of_lt (h : n < 2 ^ 128) : SeesLostBits n := by
  have hlog : n.log2 < 128 := by
    by_cases hn : n = 0
    · rw [hn, Nat.log2_zero]
      decide
    · exact (Nat.log2_lt hn).mpr h
  unfold SeesLostBits lowBitSet
  rcases Nat.lt_or_ge n.log2 64 with hone | htwo
  · have hlimbs : n.log2 / 64 = 0 := by omega
    have hcut : n.log2 - 63 = 0 := by omega
    simp [hlimbs, hcut, Nat.mod_one]
  · have hlimbs : n.log2 / 64 = 1 := by omega
    have hwidth : n.log2 % 64 + 1 = n.log2 - 63 := by omega
    simp [hlimbs, hwidth]

/-- Whether a bit is seen or not, a number of 129 bits keeps its leading bit. -/
theorem two_pow_le_shorten (h : 2 ^ 128 ≤ n) : 2 ^ 128 ≤ (shorten n).1 * 2 ^ (shorten n).2 := by
  have hn : n ≠ 0 := by omega
  have hlog : 128 ≤ n.log2 := (Nat.le_log2 hn).mpr h
  have hleading : 2 ^ 63 ≤ n / 2 ^ (n.log2 - 63) := by
    rw [Nat.le_div_iff_mul_le (Nat.two_pow_pos _), ← pow_add, Nat.add_sub_cancel' (by omega)]
    exact Nat.log2_self_le hn
  have hkept : 2 ^ 63 ≤ (shorten n).1 := by
    simp only [shorten, Nat.pow_eq]
    split <;> omega
  calc
    2 ^ 128 = 2 ^ 63 * 2 ^ 65 := by rw [← pow_add]
    _ ≤ (shorten n).1 * 2 ^ (n.log2 - 63) :=
      Nat.mul_le_mul hkept (Nat.pow_le_pow_right (by decide) (by omega))

variable (hf : f.HoldsIntegers)

include hf

/-- Sixty-four leading bits are two more than any format here keeps. -/
theorem Format.roundMagnitude_jam (hprecision : f.precision ≤ 62) (n : Nat) :
    f.roundMagnitude (jam n (n.log2 - 63)) (n.log2 - 63 : Nat) = f.roundMagnitude n 0 := by
  rcases Nat.lt_or_ge n.log2 63 with hlow | hhigh
  · have hcut : n.log2 - 63 = 0 := by omega
    rw [hcut, jam_zero]
    rfl
  · have hlog : n.log2 = f.precision + (62 - f.precision) + 1 + (n.log2 - 63) := by omega
    have hnearest := nearest_jam_mul_two_pow hlog (-f.leastExponent).toNat
    have hwhole := hf.roundMagnitude_eq n 0
    rw [pow_zero, Nat.mul_one, Nat.cast_zero] at hwhole
    rw [hf.roundMagnitude_eq, hwhole, one, Nat.mul_assoc, ← pow_add, hnearest]

namespace Pattern

theorem ofInt_eq_nearestTo (hprecision : f.precision ≤ 62) {n : Int} (h : SeesLostBits n.natAbs) :
    ofInt f n = nearestTo f n := by
  simp only [ofInt, shorten_eq h, round, nearestTo, Int.ofNat_eq_natCast,
    Format.roundMagnitude_jam hf hprecision]

theorem ofInt_eq_nearestTo_of_le (hoverflow : f.overflow ≤ 2 ^ 128) {n : Int}
    (h : 2 ^ 128 ≤ n.natAbs) : ofInt f n = nearestTo f n := by
  have hshort := hf.roundMagnitude_eq_infinity (hoverflow.trans (two_pow_le_shorten h))
  have hwhole : f.roundMagnitude n.natAbs (0 : Nat) = f.infinity :=
    hf.roundMagnitude_eq_infinity (by omega)
  rw [nearestTo, round, ← Nat.cast_zero, hwhole, ← hshort]
  rfl

end Pattern

namespace Conversion

variable {convert : Conversion} {n : Int}

/-- The conversion gives the nearest pattern of an integer, or none where that one is infinite. -/
def RoundsAt (convert : Conversion) (f : Format) (n : Int) : Prop :=
  convert.pattern? f n = some (.nearestTo f n) ∨
    convert.pattern? f n = none ∧ (Pattern.nearestTo f n).isInfinite

omit hf in
theorem pattern_eq_nearestTo (h : convert.RoundsAt f n) :
    convert.pattern f n = .nearestTo f n := by
  rw [pattern]
  rcases h with h | ⟨h, hinf⟩
  · rw [h, Option.getD_some]
  · have hmagnitude : (Pattern.nearestTo f n).magnitude.toNat = f.infinity := by
      simpa [Pattern.isInfinite] using hinf
    rw [h, Option.getD_none, Pattern.infinite, ← hmagnitude, BitVec.ofNat_toNat, BitVec.setWidth_eq]
    rfl

/-- Shortening is invisible where a lost bit is seen, and where all long integers are infinite. -/
theorem shortening_roundsAt (hprecision : f.precision ≤ 62)
    (h : SeesLostBits n.natAbs ∨ f.overflow ≤ 2 ^ 128) : shortening.RoundsAt f n := by
  refine .inl (congrArg some ?_)
  rcases Nat.lt_or_ge n.natAbs (2 ^ 128) with hlt | hge
  · exact Pattern.ofInt_eq_nearestTo hf hprecision (seesLostBits_of_lt hlt)
  · obtain hsees | hoverflow := h
    · exact Pattern.ofInt_eq_nearestTo hf hprecision hsees
    · exact Pattern.ofInt_eq_nearestTo_of_le hf hoverflow hge

end Conversion

/-- The 140 bits of this integer are in three limbs, of which the topmost is 12 bits wide. Bit 12,
which puts it above the midpoint of two numbers, is not seen. -/
example : Pattern.ofInt .binary64 (2 ^ 139 + 2 ^ 88 + 2 ^ 86 + 2 ^ 12) ≠
    .nearestTo _ (2 ^ 139 + 2 ^ 88 + 2 ^ 86 + 2 ^ 12) := by decide +kernel

end SolverValues.Ieee
