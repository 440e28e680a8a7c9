import Mathlib.Data.Int.ModEq
import Mathlib.Tactic.LinearCombination
import Mathlib.Tactic.Positivity
import SolverValues.Word.Basic

/-!
Fixed-width integers as residues. Reduction gives the one representative of a residue class that
lies in the range of its width and sign, so it respects every operation that congruence respects.
-/
namespace SolverValues

variable {signed : Bool} {width : Nat} {u v : Int}

/-- The least integer of a width and sign. The only integer without bits is zero. -/
def lowest (signed : Bool) (width : Nat) : Int := if signed then -(2 ^ width / 2) else 0

theorem wrap_unsigned (width : Nat) (v : Int) : wrap false width v = v % 2 ^ width := by
  by_cases h : width = 0
  · simp [wrap, h]
  · simp [wrap, h]

theorem wrap_signed_succ (width : Nat) (v : Int) :
    wrap true (width + 1) v =
      if v / 2 ^ width % 2 = 0 then v % 2 ^ width else v % 2 ^ width - 2 ^ width := by
  simp [wrap]

theorem lowest_unsigned (width : Nat) : lowest false width = 0 := rfl

theorem lowest_signed_succ (width : Nat) : lowest true (width + 1) = -2 ^ width := by
  simp [lowest, pow_succ]

theorem wrap_modEq (signed : Bool) (width : Nat) (v : Int) :
    wrap signed width v ≡ v [ZMOD 2 ^ width] := by
  cases signed with
  | false =>
    rw [wrap_unsigned]
    exact Int.mod_modEq v _
  | true =>
    cases width with
    | zero => simp [Int.modEq_one]
    | succ width =>
      have hv := Int.mul_ediv_add_emod v (2 ^ width)
      rw [wrap_signed_succ, Int.modEq_iff_dvd, pow_succ]
      -- The quotient's parity says whether the remainder is off by half the modulus.
      split
      · rename_i heven
        obtain ⟨k, hk⟩ := Int.dvd_of_emod_eq_zero heven
        exact ⟨k, by rw [hk] at hv; linear_combination -hv⟩
      · rename_i hodd
        obtain ⟨k, hk⟩ : ∃ k, v / 2 ^ width = 2 * k + 1 := ⟨v / 2 ^ width / 2, by omega⟩
        exact ⟨k + 1, by rw [hk] at hv; linear_combination -hv⟩

theorem wrap_mem (signed : Bool) (width : Nat) (v : Int) :
    lowest signed width ≤ wrap signed width v ∧
      wrap signed width v < lowest signed width + 2 ^ width := by
  have hpos (n : Nat) : (0 : Int) < 2 ^ n := by positivity
  cases signed with
  | false =>
    have h0 := Int.emod_nonneg v (hpos width).ne'
    have h1 := Int.emod_lt_of_pos v (hpos width)
    rw [wrap_unsigned, lowest_unsigned]
    omega
  | true =>
    cases width with
    | zero => simp [wrap, lowest]
    | succ width =>
      have h0 := Int.emod_nonneg v (hpos width).ne'
      have h1 := Int.emod_lt_of_pos v (hpos width)
      rw [wrap_signed_succ, lowest_signed_succ, pow_succ]
      split <;> omega

theorem eq_of_modEq_of_mem (signed : Bool) (h : u ≡ v [ZMOD 2 ^ width])
    (hu : lowest signed width ≤ u ∧ u < lowest signed width + 2 ^ width)
    (hv : lowest signed width ≤ v ∧ v < lowest signed width + 2 ^ width) : u = v := by
  have hdvd : (2 : Int) ^ width ∣ u - v := h.symm.dvd
  have habs : |u - v| < 2 ^ width := by
    rw [abs_lt]
    omega
  have hzero := Int.eq_zero_of_abs_lt_dvd hdvd habs
  omega

theorem wrap_eq_iff : wrap signed width u = wrap signed width v ↔ u ≡ v [ZMOD 2 ^ width] := by
  constructor
  · intro h
    calc
      u ≡ wrap signed width u [ZMOD 2 ^ width] := (wrap_modEq signed width u).symm
      _ = wrap signed width v := h
      _ ≡ v [ZMOD 2 ^ width] := wrap_modEq signed width v
  · intro h
    refine eq_of_modEq_of_mem signed ?_ (wrap_mem _ _ _) (wrap_mem _ _ _)
    exact (wrap_modEq _ _ u).trans (h.trans (wrap_modEq _ _ v).symm)

/-- Integers in range are their own representatives. -/
theorem wrap_of_mem (h : lowest signed width ≤ v ∧ v < lowest signed width + 2 ^ width) :
    wrap signed width v = v :=
  eq_of_modEq_of_mem signed (wrap_modEq _ _ _) (wrap_mem _ _ _) h

namespace Kind

/-- What integers of a kind are counted modulo; nothing but equality is congruence modulo zero. -/
def modulus : Kind → Int
  | .bool => 2
  | .bitVector _ width => 2 ^ width.toNat
  | _ => 0

/-- The representative of an integer among the integers of a kind. -/
def reduce : Kind → Int → Int
  | .bool, v => v % 2
  | .bitVector signed width, v => wrap signed width.toNat v
  | _, v => v

theorem reduce_modEq (k : Kind) (v : Int) : k.reduce v ≡ v [ZMOD k.modulus] := by
  cases k with
  | bool => exact Int.mod_modEq v 2
  | bitVector signed width => exact wrap_modEq signed width.toNat v
  | _ => exact Int.ModEq.refl v

theorem reduce_eq_iff {k : Kind} : k.reduce u = k.reduce v ↔ u ≡ v [ZMOD k.modulus] := by
  cases k with
  | bool => exact Iff.rfl
  | bitVector signed width => exact wrap_eq_iff
  | _ => simp [reduce, modulus]

theorem reduce_reduce (k : Kind) (v : Int) : k.reduce (k.reduce v) = k.reduce v :=
  reduce_eq_iff.mpr (k.reduce_modEq v)

end Kind

namespace Word

theorem make_integer (k : Kind) (v : Int) : make k (.integer v) = ⟨k, .integer (k.reduce v)⟩ := by
  cases k <;> rfl

theorem make_eq_make_iff {k : Kind} :
    make k (.integer u) = make k (.integer v) ↔ u ≡ v [ZMOD k.modulus] := by
  simp [make_integer, Kind.reduce_eq_iff]

end Word
end SolverValues
