import SolverValues.Kind.Basic
import SolverValues.Proofs.Ranked

/-!
The order of kinds. It is total, only equal kinds are level in it, and a kind comes before another
one by its family, by what the family holds, or, for user sorts, by name and then by shape.
-/
namespace SolverValues

/-- The text is the start of the other one, or has the lower code where they first differ. -/
def Text.Before (a b : String) : Prop := List.Lex (fun c d => c.toNat < d.toNat) a.toList b.toList

/-- Shapes in order: first the uninterpreted ones, by reason, then enumerations by constructors. -/
inductive Shape.Precedes : Shape → Shape → Prop where
  | reason {a b : String} (h : Text.Before a b) : Precedes (.uninterpreted a) (.uninterpreted b)
  | enumerated (reason : String) (names : List String) :
    Precedes (.uninterpreted reason) (.enumerated names)
  | constructors {as bs : List String} (h : List.Lex Text.Before as bs) :
    Precedes (.enumerated as) (.enumerated bs)

/-- User sorts in order: by name, and those of one name by shape. -/
inductive UserSort.Precedes (a b : UserSort) : Prop where
  | name (h : Text.Before a.name b.name)
  | shape (hname : a.name = b.name) (h : a.shape.Precedes b.shape)

/-- All families, those of lesser kinds first. -/
def Family.ascending : List Family :=
  [.boolean, .bitVector, .integer, .real, .float, .double, .char, .string, .list, .userSort]

/-- Kinds in order: by family, bit-vectors by sign and then by width, lists by element. -/
inductive Kind.Precedes : Kind → Kind → Prop where
  | family {a b : Kind} (h : Family.ascending.idxOf a.family < Family.ascending.idxOf b.family) :
    Precedes a b
  | sign (width width' : UInt64) : Precedes (.word width) (.int width')
  | width (signed : Bool) {width width' : UInt64} (h : width.toNat < width'.toNat) :
    Precedes (.bitVector signed width) (.bitVector signed width')
  | element {a b : Kind} (h : Precedes a b) : Precedes (.list a) (.list b)
  | user {a b : UserSort} (h : a.Precedes b) : Precedes (.user a) (.user b)

theorem compareLex_eq_lt_iff {α : Type} {cmp : α → α → Ordering} {r : α → α → Prop}
    (hlt : ∀ a b, cmp a b = .lt ↔ r a b) (heq : ∀ a b, cmp a b = .eq ↔ a = b) (as bs : List α) :
    List.compareLex cmp as bs = .lt ↔ List.Lex r as bs := by
  induction as generalizing bs with
  | nil => cases bs <;> simp [List.compareLex_nil_nil, List.compareLex_nil_cons]
  | cons a as ih =>
    cases bs with
    | nil => simp [List.compareLex_cons_nil]
    | cons b bs =>
      rw [List.compareLex_cons_cons, Ordering.then_eq_lt, hlt, heq, ih, List.cons_lex_cons_iff]

theorem Text.compare_eq_lt_iff (a b : String) : compare a b = .lt ↔ Text.Before a b := by
  have hlt : compare a b = .lt ↔ a < b := compareOfLessAndEq_eq_lt
  rw [hlt, String.lt_iff]
  exact List.lex_lt.symm

theorem Text.compare_list_eq_lt_iff (as bs : List String) :
    compare as bs = .lt ↔ List.Lex Text.Before as bs :=
  compareLex_eq_lt_iff Text.compare_eq_lt_iff (fun _ _ => Std.LawfulEqOrd.compare_eq_iff_eq) as bs

namespace Shape

/-- Uninterpreted shapes come first. -/
def rank : Shape → Nat
  | .uninterpreted _ => 0
  | .enumerated _ => 1

theorem rankedBy_rank : RankedBy Shape.compare rank := by
  intro a b h
  cases a <;> cases b <;> first | rfl | exact (h rfl).elim

theorem compare_swap (a b : Shape) : b.compare a = (a.compare b).swap := by
  apply rankedBy_rank.swap
  intro h
  cases a <;> cases b <;> simp only [rank, Nat.reduceEqDiff] at h <;>
    simp only [Shape.compare] <;> exact Std.OrientedCmp.eq_swap

theorem compare_chains (a b c : Shape) : Chains (a.compare b) (b.compare c) (a.compare c) := by
  apply rankedBy_rank.chains
  intro h h'
  cases a <;> cases b <;> simp only [rank, Nat.reduceEqDiff] at h <;>
    cases c <;> simp only [rank, Nat.reduceEqDiff] at h' <;> exact .of_transCmp compare _ _ _

theorem compare_eq_iff {a b : Shape} : a.compare b = .eq ↔ a = b := by
  cases a <;> cases b <;> simp [Shape.compare]

instance : Std.TransOrd Shape where
  eq_swap := compare_swap _ _
  isLE_trans := (compare_chains _ _ _).isLE

instance : Std.LawfulEqOrd Shape where
  compare_self := compare_eq_iff.mpr rfl
  eq_of_compare := compare_eq_iff.mp

theorem compare_eq_lt_iff {a b : Shape} : a.compare b = .lt ↔ a.Precedes b := by
  constructor
  · intro h
    cases a with
    | uninterpreted a =>
      cases b with
      | uninterpreted b => exact .reason ((Text.compare_eq_lt_iff a b).mp h)
      | enumerated names => exact .enumerated a names
    | enumerated as =>
      cases b with
      | uninterpreted b => cases h
      | enumerated bs => exact .constructors ((Text.compare_list_eq_lt_iff as bs).mp h)
  · intro h
    cases h with
    | reason h => exact (Text.compare_eq_lt_iff _ _).mpr h
    | enumerated => rfl
    | constructors h => exact (Text.compare_list_eq_lt_iff _ _).mpr h

end Shape

namespace UserSort

instance : Std.TransOrd UserSort :=
  inferInstanceAs (Std.TransCmp (compareLex (compareOn UserSort.name) (compareOn UserSort.shape)))

instance : Std.LawfulEqOrd UserSort where
  eq_of_compare {a b} h := by
    obtain ⟨hname, hshape⟩ := Ordering.then_eq_eq.mp h
    cases a
    cases b
    simp_all

theorem compare_eq_lt_iff {a b : UserSort} : compare a b = .lt ↔ a.Precedes b := by
  have hcompare : compare a b = (compare a.name b.name).then (a.shape.compare b.shape) := rfl
  rw [hcompare, Ordering.then_eq_lt, Text.compare_eq_lt_iff, Shape.compare_eq_lt_iff,
    Std.LawfulEqOrd.compare_eq_iff_eq]
  constructor
  · rintro (h | ⟨hname, h⟩)
    · exact .name h
    · exact .shape hname h
  · rintro (h | ⟨hname, h⟩)
    · exact .inl h
    · exact .inr ⟨hname, h⟩

end UserSort

namespace Kind

variable {a b c : Kind}

theorem rankedBy_rank : RankedBy Kind.compare rank := by
  intro a b h
  cases a <;> cases b <;> first | rfl | exact (h rfl).elim

theorem rank_eq_idxOf (k : Kind) : k.rank = Family.ascending.idxOf k.family := by
  cases k <;> rfl

theorem compare_width_eq_lt_iff (w w' : UInt64) : compare w w' = .lt ↔ w.toNat < w'.toNat := by
  have hlt : compare w w' = .lt ↔ w < w' := compareOfLessAndEq_eq_lt
  rw [hlt, UInt64.lt_iff_toNat_lt]

/-- Two kinds of one family. Most families have a single kind. -/
inductive SameFamily : Kind → Kind → Prop where
  | same (k : Kind) : SameFamily k k
  | bitVector (s s' : Bool) (w w' : UInt64) : SameFamily (.bitVector s w) (.bitVector s' w')
  | list (a b : Kind) : SameFamily (.list a) (.list b)
  | user (a b : UserSort) : SameFamily (.user a) (.user b)

theorem sameFamily_of_rank_eq (h : a.rank = b.rank) : SameFamily a b := by
  cases a <;> cases b <;> first | constructor | simp [rank] at h

theorem compare_self (k : Kind) : k.compare k = .eq := by
  induction k with
  | bitVector => simp [Kind.compare]
  | list element ih => exact ih
  | user sort =>
    simp only [Kind.compare]
    exact Std.ReflCmp.compare_self
  | _ => rfl

theorem compare_swap (a b : Kind) : b.compare a = (a.compare b).swap := by
  apply rankedBy_rank.swap
  intro h
  cases sameFamily_of_rank_eq h with
  | same k =>
    rw [compare_self]
    rfl
  | bitVector s s' w w' =>
    simp only [Kind.compare, Ordering.swap_then, ← Std.OrientedCmp.eq_swap]
  | list a b => exact compare_swap a b
  | user a b =>
    simp only [Kind.compare]
    exact Std.OrientedCmp.eq_swap

theorem compare_chains (a b c : Kind) : Chains (a.compare b) (b.compare c) (a.compare c) := by
  apply rankedBy_rank.chains
  intro h h'
  cases sameFamily_of_rank_eq h with
  | same k =>
    rw [compare_self]
    exact fun _ _ => rfl
  | bitVector s s' w w' =>
    cases sameFamily_of_rank_eq h' with
    | same k =>
      rw [compare_self]
      exact .of_eq_right _
    | bitVector _ s'' _ w'' =>
      simp only [Kind.compare]
      exact (Chains.of_transCmp compare _ _ _).lex (.of_transCmp compare _ _ _)
  | list a b =>
    cases sameFamily_of_rank_eq h' with
    | same k =>
      rw [compare_self]
      exact .of_eq_right _
    | list _ c => exact compare_chains a b c
  | user a b =>
    cases sameFamily_of_rank_eq h' with
    | same k =>
      rw [compare_self]
      exact .of_eq_right _
    | user _ c =>
      simp only [Kind.compare]
      exact .of_transCmp compare _ _ _

theorem eq_of_compare {a b : Kind} (heq : a.compare b = .eq) : a = b := by
  cases sameFamily_of_rank_eq (rankedBy_rank.rank_eq heq) with
  | same k => rfl
  | bitVector s s' w w' =>
    obtain ⟨hsign, hwidth⟩ := Ordering.then_eq_eq.mp heq
    rw [Std.LawfulEqOrd.eq_of_compare hsign, Std.LawfulEqOrd.eq_of_compare hwidth]
  | list a b => rw [eq_of_compare (a := a) (b := b) heq]
  | user a b => rw [Std.LawfulEqOrd.eq_of_compare (a := a) (b := b) heq]
termination_by sizeOf a

theorem compare_eq_iff {a b : Kind} : a.compare b = .eq ↔ a = b := by
  constructor
  · exact eq_of_compare
  · rintro rfl
    exact compare_self a

instance : Std.TransOrd Kind where
  eq_swap := compare_swap _ _
  isLE_trans := (compare_chains _ _ _).isLE

theorem precedes_of_compare {a b : Kind} (hlt : a.compare b = .lt) : a.Precedes b := by
  by_cases hrank : a.rank = b.rank
  · cases sameFamily_of_rank_eq hrank with
    | same k =>
      rw [compare_self] at hlt
      cases hlt
    | bitVector s s' w w' =>
      rcases Ordering.then_eq_lt.mp hlt with hsign | ⟨hsign, hwidth⟩
      · cases s <;> cases s' <;> first | exact .sign w w' | cases hsign
      · rw [Std.LawfulEqOrd.eq_of_compare hsign]
        exact .width s' ((compare_width_eq_lt_iff w w').mp hwidth)
    | list a b => exact .element (precedes_of_compare hlt)
    | user a b => exact .user (UserSort.compare_eq_lt_iff.mp hlt)
  · rw [rankedBy_rank a b hrank, Nat.compare_eq_lt] at hlt
    rw [rank_eq_idxOf, rank_eq_idxOf] at hlt
    exact .family hlt
termination_by sizeOf a

theorem compare_of_precedes {a b : Kind} (h : a.Precedes b) : a.compare b = .lt := by
  induction h with
  | family h =>
    rw [← rank_eq_idxOf, ← rank_eq_idxOf] at h
    exact rankedBy_rank.eq_lt h
  | sign width width' => rfl
  | @width signed w w' h =>
    have hwidth := (compare_width_eq_lt_iff w w').mpr h
    simp [Kind.compare, hwidth]
  | element h ih => exact ih
  | user h => exact UserSort.compare_eq_lt_iff.mpr h

theorem compare_eq_lt_iff : a.compare b = .lt ↔ a.Precedes b :=
  ⟨precedes_of_compare, compare_of_precedes⟩

end Kind
end SolverValues
