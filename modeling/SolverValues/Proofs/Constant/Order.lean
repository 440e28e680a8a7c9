import SolverValues.Constant.Basic
import SolverValues.Proofs.Ieee.Place
import SolverValues.Proofs.ReportedReal.Order

/-!
The order of constants is total. Two constants are level in it just when they are the same after all
patterns of no number are replaced by one, at every depth.
-/
namespace SolverValues.Constant

/-- The elements of a list; other constants have none. -/
def elements : Constant → List Constant
  | .list elements => elements
  | _ => []

theorem sizeOf_lt_of_mem_elements {c e : Constant} (h : e ∈ c.elements) : sizeOf e < sizeOf c := by
  cases c with
  | list es =>
    have : sizeOf e < sizeOf es := List.sizeOf_lt_of_mem h
    simp only [list.sizeOf_spec]
    omega
  | _ => simp [elements] at h

/-- What holds of a constant as soon as it holds of its elements holds of every constant. -/
theorem elements_induction {motive : Constant → Prop}
    (step : ∀ c, (∀ e ∈ c.elements, motive e) → motive c) (c : Constant) : motive c :=
  step c fun e _ => elements_induction step e
termination_by sizeOf c
decreasing_by exact sizeOf_lt_of_mem_elements (by assumption)

theorem rankedBy_rank : RankedBy Constant.compare rank := by
  intro a b h
  cases a <;> cases b <;> first | rfl | exact (h rfl).elim

/-- Two constants of one variant. -/
inductive SameVariant : Constant → Constant → Prop where
  | real (a b : ReportedReal) : SameVariant (.real a) (.real b)
  | integer (a b : Int) : SameVariant (.integer a) (.integer b)
  | float (a b : Ieee.Binary32) : SameVariant (.float a) (.float b)
  | double (a b : Ieee.Binary64) : SameVariant (.double a) (.double b)
  | char (a b : Char) : SameVariant (.char a) (.char b)
  | string (a b : String) : SameVariant (.string a) (.string b)
  | list (as bs : List Constant) : SameVariant (.list as) (.list bs)
  | user (i j : Option Nat) (a b : String) : SameVariant (.user i a) (.user j b)

theorem sameVariant_of_rank_eq {a b : Constant} (h : a.rank = b.rank) : SameVariant a b := by
  cases a <;> cases b <;> first | constructor | simp [rank] at h

theorem compareLists_swap (as : List Constant)
    (ih : ∀ a ∈ as, ∀ b, b.compare a = (a.compare b).swap) (bs : List Constant) :
    compareLists bs as = (compareLists as bs).swap := by
  induction as generalizing bs with
  | nil => cases bs <;> rfl
  | cons a as ihas =>
    cases bs with
    | nil => rfl
    | cons b bs =>
      simp only [compareLists, Ordering.swap_then]
      rw [ih a List.mem_cons_self b, ihas (fun x hx => ih x (List.mem_cons_of_mem a hx)) bs]

theorem compare_swap (a b : Constant) : b.compare a = (a.compare b).swap := by
  induction a using elements_induction generalizing b with
  | step a ih =>
    apply rankedBy_rank.swap
    intro h
    cases sameVariant_of_rank_eq h with
    | list as bs => simpa only [Constant.compare] using compareLists_swap as ih bs
    | user i j a b =>
      simp only [Constant.compare, Ordering.swap_then, ← Std.OrientedCmp.eq_swap]
    | _ =>
      simp only [Constant.compare]
      exact Std.OrientedCmp.eq_swap

theorem compareLists_chains (as : List Constant)
    (ih : ∀ a ∈ as, ∀ b c, Chains (a.compare b) (b.compare c) (a.compare c))
    (bs cs : List Constant) :
    Chains (compareLists as bs) (compareLists bs cs) (compareLists as cs) := by
  induction as generalizing bs cs with
  | nil =>
    intro hab hbc
    cases bs <;> cases cs <;> simp_all [compareLists]
  | cons a as ihas =>
    cases bs with
    | nil =>
      intro hab
      simp [compareLists] at hab
    | cons b bs =>
      cases cs with
      | nil =>
        intro _ hbc
        simp [compareLists] at hbc
      | cons c cs =>
        have hhead := ih a List.mem_cons_self b c
        have htail := ihas (fun x hx => ih x (List.mem_cons_of_mem a hx)) bs cs
        exact hhead.lex htail

theorem compare_chains (a b c : Constant) :
    Chains (a.compare b) (b.compare c) (a.compare c) := by
  induction a using elements_induction generalizing b c with
  | step a ih =>
    apply rankedBy_rank.chains
    intro h h'
    cases sameVariant_of_rank_eq h with
    | list as bs =>
      cases sameVariant_of_rank_eq h' with
      | list _ cs => simpa only [Constant.compare] using compareLists_chains as ih bs cs
    | user i j a b =>
      cases sameVariant_of_rank_eq h' with
      | user _ k _ c =>
        simp only [Constant.compare]
        exact (Chains.of_transCmp compare _ _ _).lex (.of_transCmp compare _ _ _)
    | _ =>
      cases sameVariant_of_rank_eq h'
      simp only [Constant.compare]
      exact .of_transCmp compare _ _ _

theorem compareLists_eq_iff (as : List Constant)
    (ih : ∀ a ∈ as, ∀ b, a.compare b = .eq ↔ a.canonical = b.canonical) (bs : List Constant) :
    compareLists as bs = .eq ↔ canonicalAll as = canonicalAll bs := by
  induction as generalizing bs with
  | nil => cases bs <;> simp [compareLists, canonicalAll]
  | cons a as ihas =>
    cases bs with
    | nil => simp [compareLists, canonicalAll]
    | cons b bs =>
      have hhead := ih a List.mem_cons_self b
      have htail := ihas (fun x hx => ih x (List.mem_cons_of_mem a hx)) bs
      simp [compareLists, canonicalAll, hhead, htail]

theorem canonicalAll_eq_map (cs : List Constant) : canonicalAll cs = cs.map canonical := by
  induction cs with
  | nil => rfl
  | cons c cs ih => rw [canonicalAll, ih, List.map_cons]

theorem rank_canonical (c : Constant) : c.canonical.rank = c.rank := by
  cases c <;> rfl

theorem compare_eq_iff (a b : Constant) : a.compare b = .eq ↔ a.canonical = b.canonical := by
  induction a using elements_induction generalizing b with
  | step a ih =>
    by_cases h : a.rank = b.rank
    · cases sameVariant_of_rank_eq h with
      | list as bs => simpa [Constant.compare, canonical] using compareLists_eq_iff as ih bs
      | float x y =>
        simpa [Constant.compare, canonical] using
          (Ieee.Pattern.canonical_eq_iff Ieee.binary32_hasNaN).symm
      | double x y =>
        simpa [Constant.compare, canonical] using
          (Ieee.Pattern.canonical_eq_iff Ieee.binary64_hasNaN).symm
      | _ => simp [Constant.compare, canonical]
    · constructor
      · intro heq
        exact (h (rankedBy_rank.rank_eq heq)).elim
      · intro heq
        rw [← rank_canonical a, heq, rank_canonical] at h
        exact (h rfl).elim

instance : Std.TransOrd Constant where
  eq_swap := compare_swap _ _
  isLE_trans := (compare_chains _ _ _).isLE

theorem beq_eq_true_iff {a b : Constant} : (a == b) = true ↔ compare a b = .eq := by
  change (a.compare b == .eq) = true ↔ _
  rw [beq_iff_eq]
  rfl

instance : ReflBEq Constant where
  rfl := beq_eq_true_iff.mpr Std.ReflCmp.compare_self

/-- Swapping the constants swaps the answer, ascending steps chain, and level constants are those
that differ in nothing but patterns of no number. Equality is being level. -/
theorem compare_totalOrder (a b c : Constant) :
    b.compare a = (a.compare b).swap ∧
    ((a.compare b).isLE → (b.compare c).isLE →
      (a.compare c).isLE ∧ (a.compare b = .lt ∨ b.compare c = .lt → a.compare c = .lt)) ∧
    (a.compare b = .eq ↔ a.canonical = b.canonical) ∧
    ((a == b) = true ↔ a.compare b = .eq) := by
  refine ⟨compare_swap a b, ?_, compare_eq_iff a b, beq_eq_true_iff⟩
  intro hab hbc
  have h := compare_chains a b c
  exact ⟨h.isLE hab hbc, h.eq_lt hab hbc⟩

/-- Two lists that start with patterns of no number and differ after them, and a list that starts
with another variant. -/
theorem compare_totalOrder_lists :
    (list [.float (.ofBits _ 0x7fc00001), .integer 3]).compare
      (list [.float (.ofBits _ 0xffffffff), .integer 4]) = .lt ∧
    (list [.float (.ofBits _ 0xffffffff), .integer 4]).compare
      (list [.double (.ofBits _ 0)]) = .lt ∧
    (list [.float (.ofBits _ 0x7fc00001), .integer 3]).compare
      (list [.double (.ofBits _ 0)]) = .lt := by
  have hab : (list [.float (.ofBits _ 0x7fc00001), .integer 3]).compare
      (list [.float (.ofBits _ 0xffffffff), .integer 4]) = .lt := by decide
  have hbc : (list [.float (.ofBits _ 0xffffffff), .integer 4]).compare
      (list [.double (.ofBits _ 0)]) = .lt := by decide
  obtain ⟨_, hchain, _⟩ := compare_totalOrder _ _ (list [.double (.ofBits _ 0)])
  exact ⟨hab, hbc, (hchain (by rw [hab]; rfl) (by rw [hbc]; rfl)).2 (.inl hab)⟩

end SolverValues.Constant
