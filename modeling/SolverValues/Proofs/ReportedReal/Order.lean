import Mathlib.Algebra.Order.Ring.Rat
import SolverValues.Proofs.Ranked
import SolverValues.ReportedReal.Basic

/-! The order of reported reals is total, and only equal reports are level in it. -/
namespace SolverValues

instance : Std.TransOrd Term :=
  inferInstanceAs (Std.TransCmp (compareLex (compareOn Term.coefficient) (compareOn Term.exponent)))

instance : Std.LawfulEqOrd Term where
  eq_of_compare {a b} h := by
    obtain ⟨hc, he⟩ := Ordering.then_eq_eq.mp h
    cases a
    cases b
    simp_all

namespace ReportedReal

theorem compareRationals_eq (a b : Rat) : compareRationals a b = compare a b := by
  unfold compareRationals
  rcases lt_trichotomy a b with h | rfl | h
  · rw [if_pos h, compare_lt_iff_lt.mpr h]
  · simp
  · rw [if_neg h.not_gt, if_pos h, compare_gt_iff_gt.mpr h]

/-- The position of a report's form among the three. -/
def formRank : ReportedReal → Nat
  | .exact _ => 0
  | .approximate _ => 1
  | .root .. => 2

theorem rankedBy_formRank : RankedBy ReportedReal.compare formRank := by
  intro a b h
  cases a <;> cases b <;> first | rfl | exact (h rfl).elim

theorem compare_swap (a b : ReportedReal) : b.compare a = (a.compare b).swap := by
  apply rankedBy_formRank.swap
  intro h
  cases a <;> cases b <;> simp only [formRank, Nat.reduceEqDiff] at h
  case exact.exact | approximate.approximate =>
    simp only [ReportedReal.compare, compareRationals_eq]
    exact Std.OrientedCmp.eq_swap
  case root.root =>
    simp only [ReportedReal.compare, Ordering.swap_then, ← Std.OrientedCmp.eq_swap]

theorem compare_chains (a b c : ReportedReal) :
    Chains (a.compare b) (b.compare c) (a.compare c) := by
  apply rankedBy_formRank.chains
  intro h h'
  cases a <;> cases b <;> simp only [formRank, Nat.reduceEqDiff] at h <;>
    cases c <;> simp only [formRank, Nat.reduceEqDiff] at h'
  case exact.exact.exact | approximate.approximate.approximate =>
    simp only [ReportedReal.compare, compareRationals_eq]
    exact .of_transCmp compare _ _ _
  case root.root.root =>
    exact (Chains.of_transCmp compare _ _ _).lex
      ((Chains.of_transCmp compare _ _ _).lex (.of_transCmp compare _ _ _))

theorem compare_eq_iff {a b : ReportedReal} : a.compare b = .eq ↔ a = b := by
  constructor
  · intro h
    have hr := rankedBy_formRank.rank_eq h
    cases a <;> cases b <;> simp only [formRank, Nat.reduceEqDiff] at hr <;>
      simp_all [ReportedReal.compare, compareRationals_eq]
  · rintro rfl
    cases a <;> simp [ReportedReal.compare, compareRationals_eq]

instance : Std.TransOrd ReportedReal where
  eq_swap := compare_swap _ _
  isLE_trans := (compare_chains _ _ _).isLE

instance : Std.LawfulEqOrd ReportedReal where
  compare_self := compare_eq_iff.mpr rfl
  eq_of_compare := compare_eq_iff.mp

end ReportedReal
end SolverValues
