import SolverValues.Proofs.Word.Order
import SolverValues.Proofs.Word.Residue

/-!
Canonical integers. Every integer is congruent to just one integer in the range of a width and sign,
and reduction gives that one. So words of a fixed width are equal when the modulus divides the
difference of what they were made from, and normal when their integer is in range.
-/
namespace SolverValues

variable {signed : Bool} {width : Nat} {u v : Int} {k : Kind}

/-- The range of a width and sign. Without bits there is only zero. -/
def IsCanonical (signed : Bool) (width : Nat) (v : Int) : Prop :=
  if width = 0 then v = 0
  else if signed then -2 ^ (width - 1) ≤ v ∧ v ≤ 2 ^ (width - 1) - 1
  else 0 ≤ v ∧ v ≤ 2 ^ width - 1

/-- The sign and width of the kinds that have one. Truth values are unsigned and have one bit. -/
def Kind.bits? : Kind → Option (Bool × Nat)
  | .bool => some (false, 1)
  | .bitVector signed width => some (signed, width.toNat)
  | _ => none

theorem isCanonical_iff : IsCanonical signed width v ↔
    lowest signed width ≤ v ∧ v < lowest signed width + 2 ^ width := by
  cases width with
  | zero =>
    have hlowest : lowest signed 0 = 0 := by cases signed <;> rfl
    rw [IsCanonical, if_pos rfl, hlowest, pow_zero]
    omega
  | succ width =>
    rw [IsCanonical, if_neg (Nat.succ_ne_zero width), Nat.succ_sub_one, pow_succ]
    cases signed with
    | false =>
      rw [if_neg (by decide), lowest_unsigned]
      omega
    | true =>
      rw [if_pos rfl, lowest_signed_succ]
      omega

theorem isCanonical_wrap (signed : Bool) (width : Nat) (v : Int) :
    IsCanonical signed width (wrap signed width v) :=
  isCanonical_iff.mpr (wrap_mem signed width v)

theorem eq_wrap_of_isCanonical (h : u ≡ v [ZMOD 2 ^ width]) (hu : IsCanonical signed width u) :
    u = wrap signed width v :=
  eq_of_modEq_of_mem signed (h.trans (wrap_modEq signed width v).symm) (isCanonical_iff.mp hu)
    (wrap_mem signed width v)

/-- Reducing what is half a modulus above and going back down ends in the signed range. -/
theorem wrap_signed_eq_shift (width : Nat) (v : Int) :
    wrap true (width + 1) v = (v % 2 ^ (width + 1) + 2 ^ width) % 2 ^ (width + 1) - 2 ^ width := by
  have hpos : (0 : Int) < 2 ^ (width + 1) := by positivity
  symm
  apply eq_wrap_of_isCanonical
  · calc
      (v % 2 ^ (width + 1) + 2 ^ width) % 2 ^ (width + 1) - 2 ^ width
          ≡ v % 2 ^ (width + 1) + 2 ^ width - 2 ^ width [ZMOD 2 ^ (width + 1)] :=
        (Int.mod_modEq _ _).sub_right _
      _ = v % 2 ^ (width + 1) := add_sub_cancel_right _ _
      _ ≡ v [ZMOD 2 ^ (width + 1)] := Int.mod_modEq v _
  · have hlow := Int.emod_nonneg (v % 2 ^ (width + 1) + 2 ^ width) hpos.ne'
    have hhigh := Int.emod_lt_of_pos (v % 2 ^ (width + 1) + 2 ^ width) hpos
    rw [isCanonical_iff, lowest_signed_succ]
    omega

theorem wrap_eq_self_iff : wrap signed width v = v ↔ IsCanonical signed width v := by
  constructor
  · intro h
    rw [← h]
    exact isCanonical_wrap signed width v
  · intro h
    exact wrap_of_mem (isCanonical_iff.mp h)

theorem Kind.reduce_eq_wrap (h : k.bits? = some (signed, width)) (v : Int) :
    k.reduce v = wrap signed width v := by
  cases k with
  | bool =>
    cases h
    simp [reduce, wrap_unsigned]
  | bitVector sign size =>
    cases h
    rfl
  | _ => cases h

theorem Word.beq_integer_iff :
    ((⟨k, .integer u⟩ : Word) == ⟨k, .integer v⟩) = true ↔ u = v := by
  rw [beq_eq_true_iff, Constant.beq_eq_true_iff]
  change k = k ∧ compare u v = .eq ↔ u = v
  simp

/-- Reduction gives the one integer in range that is congruent to the integer reduced. At a kind of
fixed width words are equal just when the modulus divides the difference of the integers they were
made from, and an integer is normal just when it is in range. -/
theorem wrap_unique_representative :
    (∀ (signed : Bool) (width : Nat) (v : Int),
      wrap signed width v ≡ v [ZMOD 2 ^ width] ∧
      IsCanonical signed width (wrap signed width v) ∧
      (∀ u, u ≡ v [ZMOD 2 ^ width] → IsCanonical signed width u → u = wrap signed width v) ∧
      (signed = true → 1 ≤ width → wrap signed width v =
        (v % 2 ^ width + 2 ^ (width - 1)) % 2 ^ width - 2 ^ (width - 1))) ∧
    ∀ (k : Kind) (signed : Bool) (width : Nat), k.bits? = some (signed, width) → ∀ a b : Int,
      ((Word.make k (.integer a) == Word.make k (.integer b)) = true ↔ 2 ^ width ∣ a - b) ∧
      ((⟨k, .integer a⟩ : Word).isNormal = true ↔ IsCanonical signed width a) := by
  constructor
  · intro signed width v
    refine ⟨wrap_modEq signed width v, isCanonical_wrap signed width v, ?_, ?_⟩
    · intro u hmod hu
      exact eq_wrap_of_isCanonical hmod hu
    · rintro rfl hwidth
      obtain ⟨width, rfl⟩ := Nat.exists_eq_succ_of_ne_zero (Nat.one_le_iff_ne_zero.mp hwidth)
      exact wrap_signed_eq_shift width v
  · intro k signed width hk a b
    constructor
    · rw [Word.make_integer, Word.make_integer, Word.beq_integer_iff]
      rw [Kind.reduce_eq_wrap hk, Kind.reduce_eq_wrap hk, wrap_eq_iff, Int.modEq_comm]
      exact Int.modEq_iff_dvd
    · change (Word.make k (.integer a) == ⟨k, .integer a⟩) = true ↔ _
      rw [Word.make_integer, Word.beq_integer_iff, Kind.reduce_eq_wrap hk]
      exact wrap_eq_self_iff

/-- In eight signed bits, where the range ends at 127, and in the one bit of a truth value. -/
theorem wrap_unique_representative_signed :
    wrap true 8 (-129) = (-129 % 2 ^ 8 + 2 ^ 7) % 2 ^ 8 - 2 ^ 7 ∧
    127 = wrap true 8 (-129) ∧
    (Word.make (.int 8) (.integer 200) == Word.make (.int 8) (.integer (-56))) = true ∧
    (⟨.int 8, .integer 127⟩ : Word).isNormal = true ∧
    (⟨.int 8, .integer 128⟩ : Word).isNormal = false ∧
    (⟨.bool, .integer (-1)⟩ : Word).isNormal = false := by
  obtain ⟨hwrap, hword⟩ := wrap_unique_representative
  obtain ⟨-, -, hunique, hshift⟩ := hwrap true 8 (-129)
  refine ⟨hshift rfl (by decide), hunique 127 (by decide) (by simp [IsCanonical]), ?_, ?_, ?_, ?_⟩
  · exact (hword (.int 8) true 8 rfl 200 (-56)).1.mpr (by decide)
  · exact (hword (.int 8) true 8 rfl 127 0).2.mpr (by simp [IsCanonical])
  · have hrange := (hword (.int 8) true 8 rfl 128 0).2
    rw [Bool.eq_false_iff, Ne, hrange]
    simp [IsCanonical]
  · have hrange := (hword .bool false 1 rfl (-1) 0).2
    rw [Bool.eq_false_iff, Ne, hrange]
    simp [IsCanonical]

end SolverValues
