import SolverValues.Proofs.Word.Canonical

/-!
Narrowing. Words of a width know an integer up to multiples of their modulus. A detour over a kind
of at least as many bits, of any sign, forgets nothing that the narrower kind keeps; a detour over
fewer bits takes the modulus itself for zero.
-/
namespace SolverValues

variable {k k₁ k₂ : Kind} {signed signed₁ signed₂ : Bool} {width width₁ width₂ : Nat}

theorem Kind.modulus_eq_of_bits? (h : k.bits? = some (signed, width)) : k.modulus = 2 ^ width := by
  cases k with
  | bool | bitVector sign size =>
    cases h
    rfl
  | _ => cases h

theorem Kind.reduce_zero (k : Kind) : k.reduce 0 = 0 := by
  cases k <;> simp [reduce, wrap]

theorem Kind.reduce_modulus (k : Kind) : k.reduce k.modulus = 0 := by
  rw [← k.reduce_zero, reduce_eq_iff]
  exact Int.modEq_zero_iff_dvd.mpr dvd_rfl

namespace Word

/-- After a detour the integer is known as far as the detour's kind knows it. -/
theorem make_value_normalize (k₁ k₂ : Kind) (v : Int) :
    make k₁ (normalize ⟨k₂, .integer v⟩).value = make k₁ (.integer (k₂.reduce v)) := by
  change make k₁ (make k₂ (.integer v)).value = _
  rw [make_integer k₂]

theorem make_value_normalize_of_dvd (h : k₁.modulus ∣ k₂.modulus) (v : Int) :
    make k₁ (normalize ⟨k₂, .integer v⟩).value = make k₁ (.integer v) := by
  rw [make_value_normalize, make_eq_make_iff]
  exact (k₂.reduce_modEq v).of_dvd h

theorem make_value_normalize_modulus (h : ¬ k₁.modulus ∣ k₂.modulus) :
    (make k₁ (normalize ⟨k₂, .integer k₂.modulus⟩).value ==
      make k₁ (.integer k₂.modulus)) = false := by
  rw [make_value_normalize, k₂.reduce_modulus, make_integer, make_integer, Bool.eq_false_iff, Ne,
    beq_integer_iff, Kind.reduce_eq_iff]
  intro hzero
  exact h (Int.modEq_zero_iff_dvd.mp hzero.symm)

/-- A detour over a kind of at least as many bits changes no word, and over each kind of fewer bits
it changes one. So kinds of one width, whatever their signs, tell the same integers apart. -/
theorem make_value_normalize_iff (h₁ : k₁.bits? = some (signed₁, width₁))
    (h₂ : k₂.bits? = some (signed₂, width₂)) :
    (width₁ ≤ width₂ → ∀ v : Int,
      make k₁ (normalize ⟨k₂, .integer v⟩).value = make k₁ (.integer v)) ∧
    (width₂ < width₁ → ∃ v : Int,
      (make k₁ (normalize ⟨k₂, .integer v⟩).value == make k₁ (.integer v)) = false) ∧
    (width₁ = width₂ → ∀ u v : Int,
      make k₁ (.integer u) = make k₁ (.integer v) ↔
        make k₂ (.integer u) = make k₂ (.integer v)) := by
  have hm₁ := Kind.modulus_eq_of_bits? h₁
  have hm₂ := Kind.modulus_eq_of_bits? h₂
  refine ⟨?_, ?_, ?_⟩
  · intro hle v
    apply make_value_normalize_of_dvd
    rw [hm₁, hm₂]
    exact pow_dvd_pow 2 hle
  · intro hlt
    refine ⟨k₂.modulus, make_value_normalize_modulus ?_⟩
    rw [hm₁, hm₂]
    intro hdvd
    have hpow : (2 : Int) ^ width₂ < 2 ^ width₁ := pow_lt_pow_right₀ (by decide) hlt
    exact absurd (Int.le_of_dvd (by positivity) hdvd) (not_le.mpr hpow)
  · rintro rfl u v
    rw [make_eq_make_iff, make_eq_make_iff, hm₁, hm₂]

/-- A truth value by way of a signed byte, a byte by way of no bits, and the two signs of a byte. -/
theorem make_value_normalize_iff_bytes :
    make .bool (normalize ⟨.int 8, .integer 201⟩).value = make .bool (.integer 201) ∧
    (∃ v, (make (.word 8) (normalize ⟨.int 0, .integer v⟩).value ==
      make (.word 8) (.integer v)) = false) ∧
    (make (.int 8) (.integer 200) = make (.int 8) (.integer (-56)) ↔
      make (.word 8) (.integer 200) = make (.word 8) (.integer (-56))) := by
  have hbool : Kind.bool.bits? = some (false, 1) := rfl
  have hbyte (signed : Bool) : (Kind.bitVector signed 8).bits? = some (signed, 8) := rfl
  have hempty : (Kind.int 0).bits? = some (true, 0) := rfl
  obtain ⟨hwider, -, -⟩ := make_value_normalize_iff hbool (hbyte true)
  obtain ⟨-, hnarrower, -⟩ := make_value_normalize_iff (hbyte false) hempty
  obtain ⟨-, -, hsame⟩ := make_value_normalize_iff (hbyte true) (hbyte false)
  exact ⟨hwider (by decide) 201, hnarrower (by decide), hsame rfl 200 (-56)⟩

end Word
end SolverValues
