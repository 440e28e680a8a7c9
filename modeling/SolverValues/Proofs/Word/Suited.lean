import SolverValues.Proofs.Constant.Order
import SolverValues.Proofs.Word.Residue
import SolverValues.Word.Lift

/-!
Normal words, and words whose constant has the variant of its kind's family. Making and normalizing
a word gives a normal one, and every map keeps kind and variant.
-/
namespace SolverValues

/-- Does the constant have the variant of the kind's family, in lists at every depth? -/
def Constant.suits : Kind → Constant → Bool
  | .bool, .integer _ | .bitVector .., .integer _ | .integer, .integer _ => true
  | .real, .real _ | .float, .float _ | .double, .double _ => true
  | .char, .char _ | .string, .string _ | .user _, .user .. => true
  | .list element, .list elements => elements.all (suits element)
  | _, _ => false

/-- Only lists have parts that the variant alone says nothing about. -/
theorem Constant.suits_of_rank_eq {a b : Constant} (h : a.rank = b.rank)
    (hlist : ∀ elements, a ≠ .list elements) (k : Kind) : a.suits k = b.suits k := by
  cases sameVariant_of_rank_eq h with
  | list _ _ => exact (hlist _ rfl).elim
  | _ => cases k <;> rfl

theorem Transform.rank_onScalar {h : Transform} {a b : Constant} (hab : h.onScalar a = some b) :
    a.rank = b.rank ∧ ∀ elements, a ≠ .list elements := by
  cases a <;> simp only [onScalar, Option.some.injEq, reduceCtorEq] at hab <;> subst hab <;>
    simp [Constant.rank]

theorem Combine.rank_onPair {h : Combine} {a b c : Constant} (habc : h.onPair a b = some c) :
    a.rank = c.rank ∧ ∀ elements, a ≠ .list elements := by
  cases a <;> cases b <;> simp only [onPair, Option.some.injEq, reduceCtorEq] at habc <;>
    subst habc <;> simp [Constant.rank]

namespace Word

/-- The constant has the variant of the kind's family. -/
def Suited (w : Word) : Prop := w.value.suits w.kind

instance : ReflBEq Word where
  rfl {w} := by
    change (w.kind == w.kind && w.value == w.value) = true
    simp

theorem normalize_eq_make (w : Word) : w.normalize = make w.kind w.value := rfl

theorem make_of_not_integer {k : Kind} {c : Constant} (h : ∀ v, c ≠ .integer v) :
    make k c = ⟨k, c⟩ := by
  cases c with
  | integer v => exact (h v rfl).elim
  | _ => cases k <;> rfl

theorem normalize_make (k : Kind) (c : Constant) : (make k c).normalize = make k c := by
  by_cases h : ∃ v, c = .integer v
  · obtain ⟨v, rfl⟩ := h
    rw [make_integer]
    exact (make_integer k _).trans (by rw [k.reduce_reduce])
  · rw [make_of_not_integer fun v hv => h ⟨v, hv⟩]
    exact make_of_not_integer fun v hv => h ⟨v, hv⟩

theorem isNormal_of_normalize_eq {w : Word} (h : w.normalize = w) : w.isNormal := by
  rw [isNormal, h]
  exact beq_self_eq_true w

theorem isNormal_make (k : Kind) (c : Constant) : (make k c).isNormal :=
  isNormal_of_normalize_eq (normalize_make k c)

theorem suited_make {k : Kind} {c : Constant} (h : c.suits k) : (make k c).Suited := by
  cases c with
  | integer v =>
    have hr : (Constant.integer (k.reduce v)).rank = (Constant.integer v).rank := rfl
    rw [make_integer]
    exact (Constant.suits_of_rank_eq hr (by simp) k).trans h
  | _ =>
    rw [make_of_not_integer (by simp)]
    exact h

theorem suited_normalize {w : Word} (h : w.Suited) : w.normalize.Suited := suited_make h

/-- A mapped word is made anew from a constant of the same variant. -/
theorem map_eq_ok {h : Transform} {w mapped : Word} (hm : w.map h = .ok mapped) :
    ∃ c, w.value.rank = c.rank ∧ (∀ elements, w.value ≠ .list elements) ∧
      mapped = make w.kind c := by
  unfold map at hm
  split at hm
  · rename_i c hc
    cases hm
    exact ⟨c, (h.rank_onScalar hc).1, (h.rank_onScalar hc).2, rfl⟩
  · cases hm

theorem map₂_eq_ok {h : Combine} {a b mapped : Word} (hm : (a.map₂ h b).result = .ok mapped) :
    ∃ c, a.value.rank = c.rank ∧ (∀ elements, a.value ≠ .list elements) ∧
      mapped = make a.kind c := by
  unfold map₂ at hm
  by_cases hk : a.sameKind b
  · cases hc : h.onPair a.value b.value with
    | none => simp [hk, hc, orMismatch] at hm
    | some c =>
      have heq : make a.kind c = mapped := by simpa [hk, hc, orMismatch] using hm
      exact ⟨c, (h.rank_onPair hc).1, (h.rank_onPair hc).2, heq.symm⟩
  · simp [hk, orMismatch] at hm

theorem suited_of_same_variant {w : Word} {c : Constant} (hw : w.Suited)
    (h : w.value.rank = c.rank) (hlist : ∀ elements, w.value ≠ .list elements) :
    (make w.kind c).Suited := by
  apply suited_make
  rw [← Constant.suits_of_rank_eq h hlist]
  exact hw

theorem ofInt_eq_ok {k : Kind} {n : Int} {w : Word} (h : ofInt k n = .ok w) :
    ∃ c, c.suits k ∧ w = make k c := by
  cases k <;> simp only [ofInt, ofIntBy, Except.ok.injEq, reduceCtorEq] at h <;>
    exact ⟨_, rfl, h.symm⟩

end Word
end SolverValues
