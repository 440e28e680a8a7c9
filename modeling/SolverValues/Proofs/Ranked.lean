/-!
Total orders, and orders that put the values of a type into ranks. Values of different ranks are
compared by rank, so swapping and chaining need a proof within one rank only.
-/
namespace SolverValues

/-- Given how `a` stands to `b` and `b` to `c`, neither in descending order, how `a` stands to `c`:
it comes first as soon as it does so at one of the two steps. -/
def Chains (ab bc ac : Ordering) : Prop := ab.isLE → bc.isLE → ac = ab.then bc

namespace Chains

theorem of_transCmp {α : Type} (cmp : α → α → Ordering) [Std.TransCmp cmp] (a b c : α) :
    Chains (cmp a b) (cmp b c) (cmp a c) := by
  intro hab hbc
  cases h : cmp a b with
  | lt => exact Std.TransCmp.lt_of_lt_of_isLE h hbc
  | eq => exact Std.TransCmp.congr_left h
  | gt => simp [h] at hab

/-- Lexicographic composition keeps chains. -/
theorem lex {ab bc ac ab' bc' ac' : Ordering} (h : Chains ab bc ac)
    (h' : Chains ab' bc' ac') : Chains (ab.then ab') (bc.then bc') (ac.then ac') := by
  intro hab hbc
  rw [h (Ordering.isLE_left_of_isLE_then hab) (Ordering.isLE_left_of_isLE_then hbc)]
  unfold Chains at h'
  cases ab <;> cases bc <;> cases ab' <;> simp_all

/-- Nothing changes in front of a value that is level with the one before. -/
theorem of_eq_right (ab : Ordering) : Chains ab .eq ab := by
  intro _ _
  cases ab <;> rfl

theorem isLE {ab bc ac : Ordering} (h : Chains ab bc ac) (hab : ab.isLE) (hbc : bc.isLE) :
    ac.isLE := by
  rw [h hab hbc]
  cases ab <;> simp_all

theorem eq_lt {ab bc ac : Ordering} (h : Chains ab bc ac) (hab : ab.isLE) (hbc : bc.isLE)
    (hlt : ab = .lt ∨ bc = .lt) : ac = .lt := by
  rw [h hab hbc]
  cases ab <;> simp_all

end Chains

/-- Values of different ranks are compared by rank. -/
def RankedBy {α : Type} (cmp : α → α → Ordering) (rank : α → Nat) : Prop :=
  ∀ a b, rank a ≠ rank b → cmp a b = compare (rank a) (rank b)

namespace RankedBy

variable {α : Type} {cmp : α → α → Ordering} {rank : α → Nat} {a b c : α}

theorem rank_eq (h : RankedBy cmp rank) (heq : cmp a b = .eq) : rank a = rank b := by
  by_cases hr : rank a = rank b
  · exact hr
  · rw [h a b hr] at heq
    exact Nat.compare_eq_eq.mp heq

theorem rank_le (h : RankedBy cmp rank) (hle : (cmp a b).isLE) : rank a ≤ rank b := by
  by_cases heq : rank a = rank b
  · exact Nat.le_of_eq heq
  · rw [h a b heq] at hle
    exact Nat.isLE_compare.mp hle

theorem eq_lt (h : RankedBy cmp rank) (hlt : rank a < rank b) : cmp a b = .lt := by
  rw [h a b (Nat.ne_of_lt hlt)]
  exact Nat.compare_eq_lt.mpr hlt

theorem swap (h : RankedBy cmp rank)
    (hsame : rank a = rank b → cmp b a = (cmp a b).swap) : cmp b a = (cmp a b).swap := by
  by_cases heq : rank a = rank b
  · exact hsame heq
  · rw [h a b heq, h b a (Ne.symm heq)]
    exact Std.OrientedCmp.eq_swap

theorem chains (h : RankedBy cmp rank)
    (hsame : rank a = rank b → rank b = rank c → Chains (cmp a b) (cmp b c) (cmp a c)) :
    Chains (cmp a b) (cmp b c) (cmp a c) := by
  intro hab hbc
  have hle := h.rank_le hab
  have hle' := h.rank_le hbc
  by_cases heq : rank a = rank b
  · by_cases heq' : rank b = rank c
    · exact hsame heq heq' hab hbc
    · have hlt : cmp b c = .lt := h.eq_lt (by omega)
      rw [h.eq_lt (by omega : rank a < rank c), hlt]
      cases hc : cmp a b <;> simp_all
  · rw [h.eq_lt (by omega : rank a < rank b), h.eq_lt (by omega : rank a < rank c)]
    rfl

end RankedBy

/-- Swapping two values swaps the answer, ascending steps chain, and the values that are level are
those that are the same for some purpose. -/
structure TotalOrder {α : Type} (cmp : α → α → Ordering) (same : α → α → Prop) : Prop where
  swap : ∀ a b, cmp b a = (cmp a b).swap
  chain : ∀ a b c, (cmp a b).isLE → (cmp b c).isLE →
    (cmp a c).isLE ∧ (cmp a b = .lt ∨ cmp b c = .lt → cmp a c = .lt)
  level : ∀ a b, cmp a b = .eq ↔ same a b

theorem TotalOrder.of_transCmp {α : Type} {cmp : α → α → Ordering} {same : α → α → Prop}
    [Std.TransCmp cmp] (level : ∀ a b, cmp a b = .eq ↔ same a b) : TotalOrder cmp same where
  swap _ _ := Std.OrientedCmp.eq_swap
  chain a b c hab hbc :=
    have h := Chains.of_transCmp cmp a b c
    ⟨h.isLE hab hbc, h.eq_lt hab hbc⟩
  level := level

end SolverValues
