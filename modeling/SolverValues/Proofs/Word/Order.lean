import SolverValues.Proofs.Constant.Order
import SolverValues.Proofs.Kind.Order
import SolverValues.Word.Basic

/-!
The order of words, whether their constants fit their kinds or not. It is total, values decide before
kinds, and the words that are level in it are the equal ones.
-/
namespace SolverValues.Word

instance : Std.TransOrd Word :=
  inferInstanceAs (Std.TransCmp (compareLex (compareOn Word.value) (compareOn Word.kind)))

variable {x y : Word}

theorem beq_eq_true_iff : (x == y) = true ↔ x.kind = y.kind ∧ (x.value == y.value) = true := by
  change (x.kind == y.kind && x.value == y.value) = true ↔ _
  rw [Bool.and_eq_true, beq_iff_eq]

theorem compare_eq_iff : x.compare y = .eq ↔ x.kind = y.kind ∧ (x.value == y.value) = true := by
  rw [Word.compare, Ordering.then_eq_eq, ← Constant.beq_eq_true_iff, and_comm]
  exact and_congr_left' Kind.compare_eq_iff

theorem compare_eq_lt_iff : x.compare y = .lt ↔
    x.value.compare y.value = .lt ∨ (x.value == y.value) = true ∧ x.kind.Precedes y.kind := by
  rw [Word.compare, Ordering.then_eq_lt, ← Constant.beq_eq_true_iff]
  exact or_congr_right (and_congr_right' Kind.compare_eq_lt_iff)

/-- Words and kinds are in total order. Words are level when they are equal, and the kinds of words
matter where the values are equal only. Level kinds are the same. -/
theorem compare_value_then_kind :
    TotalOrder Word.compare (fun x y => x.kind = y.kind ∧ (x.value == y.value) = true) ∧
    (∀ x y : Word, (x == y) = true ↔ x.compare y = .eq) ∧
    (∀ x y : Word, x.compare y = .lt ↔
      x.value.compare y.value = .lt ∨ (x.value == y.value) = true ∧ x.kind.Precedes y.kind) ∧
    TotalOrder Kind.compare (· = ·) ∧
    ∀ a b : Kind, a.compare b = .lt ↔ a.Precedes b := by
  have htrans : Std.TransCmp Word.compare := inferInstanceAs (Std.TransOrd Word)
  have htransKind : Std.TransCmp Kind.compare := inferInstanceAs (Std.TransOrd Kind)
  refine ⟨.of_transCmp fun _ _ => compare_eq_iff, ?_, fun _ _ => compare_eq_lt_iff,
    .of_transCmp fun _ _ => Kind.compare_eq_iff, fun _ _ => Kind.compare_eq_lt_iff⟩
  intro x y
  rw [beq_eq_true_iff, compare_eq_iff]

/-- Two patterns of no number are level, so that the kinds decide. -/
example : (⟨.int 8, .float (.ofBits _ 0x7fc00001)⟩ : Word).compare
    ⟨.word 9, .float (.ofBits _ 0xffffffff)⟩ = .gt := by decide

end SolverValues.Word
