import Mathlib.Algebra.BigOperators.Fin
import Mathlib.Data.Set.Card
import SolverValues.Proofs.Sampling.Bytes
import SolverValues.Proofs.Sampling.Range
import SolverValues.Proofs.Word.Canonical

/-!
Uniform bit-vectors. The words that a bit-vector takes are one number in base `2 ^ 64`, and the
bit-vector is its remainder, moved down by half the modulus if it has a sign. So every value of the
range comes from equally many choices of the words.
-/
namespace SolverValues.Sampling

variable {signed : Bool} {width count d r : Nat} {v : Int}

/-- The number of the words, the first of them lowest. -/
def wordsNumber (words : Fin count → UInt64) : Nat := ∑ i, (words i).toNat * 2 ^ (64 * i.val)

/-- The tape with the given words in place of those that come next. -/
def Tape.supply (t : Tape) (words : Fin count → UInt64) : Tape :=
  { t with word := fun i =>
      if h : t.used ≤ i ∧ i < t.used + count then words ⟨i - t.used, by omega⟩ else t.word i }

theorem number_supply (t : Tape) (words : Fin count → UInt64) :
    (t.supply words).number count = wordsNumber words := by
  rw [Tape.number, wordsNumber, Finset.sum_range]
  simp [Tape.supply]

theorem wordsNumber_eq (words : Fin count → UInt64) :
    wordsNumber words = finFunctionFinEquiv fun i => (words i).toFin := by
  simp only [wordsNumber, finFunctionFinEquiv_apply, pow_mul]
  rfl

theorem wordsNumber_injective :
    Function.Injective (wordsNumber : (Fin count → UInt64) → Nat) := by
  intro words words' h
  rw [wordsNumber_eq, wordsNumber_eq] at h
  have hdigits := finFunctionFinEquiv.injective (Fin.ext h)
  funext i
  exact UInt64.toFin_inj.mp (congrFun hdigits i)

theorem wordsNumber_lt (words : Fin count → UInt64) : wordsNumber words < 2 ^ (64 * count) := by
  rw [wordsNumber_eq, pow_mul]
  exact (finFunctionFinEquiv fun i => (words i).toFin).isLt

theorem exists_wordsNumber {n : Nat} (h : n < 2 ^ (64 * count)) :
    ∃ words : Fin count → UInt64, wordsNumber words = n := by
  rw [pow_mul] at h
  refine ⟨fun i => .ofFin (finFunctionFinEquiv.symm ⟨n, h⟩ i), ?_⟩
  rw [wordsNumber_eq]
  exact congrArg Fin.val (finFunctionFinEquiv.apply_symm_apply ⟨n, h⟩)

/-- The numbers below `2 ^ (width + d)` with a given remainder are one for each quotient. -/
theorem encard_mod_eq (hr : r < 2 ^ width) :
    {n | n < 2 ^ (width + d) ∧ n % 2 ^ width = r}.encard = 2 ^ d := by
  have himage : {n | n < 2 ^ (width + d) ∧ n % 2 ^ width = r} =
      (fun q => r + 2 ^ width * q) '' (Finset.range (2 ^ d)) := by
    ext n
    constructor
    · rintro ⟨hn, rfl⟩
      rw [Nat.pow_add] at hn
      exact ⟨n / 2 ^ width, by simpa using Nat.div_lt_of_lt_mul hn, Nat.mod_add_div n _⟩
    · rintro ⟨q, hq, rfl⟩
      have hq : q + 1 ≤ 2 ^ d := by simpa using hq
      refine ⟨?_, ?_⟩
      · calc
          r + 2 ^ width * q < 2 ^ width + 2 ^ width * q := Nat.add_lt_add_right hr _
          _ = 2 ^ width * (q + 1) := by rw [Nat.mul_succ, Nat.add_comm]
          _ ≤ 2 ^ width * 2 ^ d := Nat.mul_le_mul_left _ hq
          _ = 2 ^ (width + d) := (Nat.pow_add ..).symm
      · change (r + 2 ^ width * q) % 2 ^ width = r
        rw [Nat.add_mul_mod_self_left, Nat.mod_eq_of_lt hr]
  have hinjective : Function.Injective fun q => r + 2 ^ width * q := by
    intro q q' h
    exact Nat.mul_left_cancel (Nat.two_pow_pos width) (Nat.add_left_cancel h)
  rw [himage, hinjective.encard_image, Set.encard_coe_eq_coe_finsetCard, Finset.card_range]
  norm_cast

theorem encard_wordsNumber_mod (hr : r < 2 ^ width) (hwidth : width ≤ 64 * count) :
    {words : Fin count → UInt64 | wordsNumber words % 2 ^ width = r}.encard =
      2 ^ (64 * count - width) := by
  obtain ⟨d, hd⟩ := Nat.exists_eq_add_of_le hwidth
  have himage : wordsNumber '' {words : Fin count → UInt64 | wordsNumber words % 2 ^ width = r} =
      {n | n < 2 ^ (width + d) ∧ n % 2 ^ width = r} := by
    ext n
    constructor
    · rintro ⟨words, hwords, rfl⟩
      exact ⟨hd ▸ wordsNumber_lt words, hwords⟩
    · rintro ⟨hn, hmod⟩
      obtain ⟨words, rfl⟩ := exists_wordsNumber (hd.symm ▸ hn)
      exact ⟨words, hmod, rfl⟩
  rw [← wordsNumber_injective.encard_image, himage, encard_mod_eq hr, hd, Nat.add_sub_cancel_left]

theorem run_drawBitVector (signed : Bool) (h : width ≠ 0) (t : Tape) :
    (drawBitVector signed width).run t =
      (((t.number ((width + 63) / 64) % 2 ^ width : Nat) : Int) -
        (if signed then 2 ^ (width - 1) else 0), t.skip ((width + 63) / 64)) := by
  rw [drawBitVector, if_neg h, run_bind, run_drawWords]
  cases signed with
  | false =>
    rw [if_neg (by decide), sub_zero]
    rfl
  | true =>
    have hhalf : Int.ofNat (Nat.pow 2 (width - 1)) = 2 ^ (width - 1) := by simp
    rw [if_pos rfl, ← hhalf]
    rfl

/-- A drawn bit-vector lies above the least value of its range by the remainder. -/
theorem run_drawBitVector_supply (signed : Bool) (width : Nat) (t : Tape)
    (words : Fin ((width + 63) / 64) → UInt64) :
    ((drawBitVector signed width).run (t.supply words)).1 =
      lowest signed width + (wordsNumber words % 2 ^ width : Nat) := by
  cases width with
  | zero =>
    rw [pow_zero, Nat.mod_one]
    cases signed <;> rfl
  | succ width =>
    rw [run_drawBitVector signed (Nat.succ_ne_zero width)]
    dsimp only
    rw [number_supply]
    cases signed with
    | false =>
      rw [lowest_unsigned]
      simp
    | true =>
      rw [lowest_signed_succ, if_pos rfl, Nat.succ_sub_one]
      ring

/-- Choices of the words that give the value. -/
def choices (signed : Bool) (width : Nat) (t : Tape) (v : Int) :
    Set (Fin ((width + 63) / 64) → UInt64) :=
  {words | ((drawBitVector signed width).run (t.supply words)).1 = v}

theorem choices_eq (h : IsCanonical signed width v) (t : Tape) :
    choices signed width t v =
      {words | wordsNumber words % 2 ^ width = (v - lowest signed width).toNat} := by
  obtain ⟨hlow, hhigh⟩ := isCanonical_iff.mp h
  ext words
  change ((drawBitVector signed width).run (t.supply words)).1 = v ↔ _ = _
  rw [run_drawBitVector_supply]
  omega

theorem encard_choices (h : IsCanonical signed width v) (t : Tape) :
    (choices signed width t v).encard = 2 ^ (64 * ((width + 63) / 64) - width) := by
  obtain ⟨hlow, hhigh⟩ := isCanonical_iff.mp h
  have hcast : ((2 ^ width : Nat) : Int) = 2 ^ width := by push_cast; rfl
  rw [choices_eq h]
  apply encard_wordsNumber_mod
  · omega
  · omega

theorem choices_eq_empty (h : ¬ IsCanonical signed width v) (t : Tape) :
    choices signed width t v = ∅ := by
  rw [Set.eq_empty_iff_forall_notMem]
  rintro words rfl
  exact h (isCanonical_iff.mpr (drawBitVector_mem signed width (t.supply words)))

/-- A bit-vector is drawn as from bytes. It takes as many words as its bits start, and it is their
number modulo `2 ^ width`, less half the modulus if it has a sign. Whatever follows in the source,
each value of the range comes from as many choices of these words as leave the other bits free, and
no other value comes from any. Without bits no word is taken. -/
theorem drawBitVector_uniform (signed : Bool) (width : Nat) (t : Tape) :
    let count := (width + 63) / 64
    drawBitVector signed width = drawFromBytes signed width ∧
    (1 ≤ width → (drawBitVector signed width).run t =
      (((t.number count % 2 ^ width : Nat) : Int) - (if signed then 2 ^ (width - 1) else 0),
        t.skip count)) ∧
    (∀ v, IsCanonical signed width v →
      (choices signed width t v).encard = 2 ^ (64 * count - width)) ∧
    (∀ v, ¬ IsCanonical signed width v → choices signed width t v = ∅) ∧
    (drawBitVector signed 0).run t = (0, t) := by
  refine ⟨drawBitVector_eq_drawFromBytes signed width, ?_, ?_, ?_, rfl⟩
  · intro hwidth
    exact run_drawBitVector signed (Nat.one_le_iff_ne_zero.mp hwidth) t
  · intro v hv
    exact encard_choices hv t
  · intro v hv
    exact choices_eq_empty hv t

/-- A signed bit-vector of 65 bits takes two words and leaves 63 bits of the second one unread. -/
theorem drawBitVector_uniform_two_words :
    let t := Tape.start fun i => if i = 0 then 7 else 3
    (drawBitVector true 65).run t = (7, t.skip 2) ∧
    (choices true 65 t (-2 ^ 64)).encard = 2 ^ 63 ∧
    choices true 65 t (2 ^ 64) = ∅ := by
  intro t
  obtain ⟨-, hrun, hrange, hnone, -⟩ := drawBitVector_uniform true 65 t
  refine ⟨?_, hrange _ (by simp [IsCanonical]), hnone _ (by simp [IsCanonical])⟩
  have hnumber : t.number 2 % 2 ^ 65 = 7 + 2 ^ 64 := by decide
  rw [hrun (by decide)]
  change (((t.number 2 % 2 ^ 65 : Nat) : Int) - 2 ^ 64, t.skip 2) = _
  rw [hnumber]
  norm_num

end SolverValues.Sampling
