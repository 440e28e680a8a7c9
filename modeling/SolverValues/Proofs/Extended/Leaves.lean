import SolverValues.Extended.Basic

/-!
The leaves of an extended value, from left to right. The kind of the value is that of the first one.
Together with the shape of the tree they determine the value.
-/
namespace SolverValues.Extended

/-- The kinds of the leaves, from left to right. -/
def leafKinds : Extended → List Kind
  | .infinity kind | .epsilon kind => [kind]
  | .word leaf => [leaf.kind]
  | .interval left right | .sum left right | .product left right =>
    left.leafKinds ++ right.leafKinds

/-- The words in an expression, from left to right. -/
def words : Extended → List Word
  | .infinity _ | .epsilon _ => []
  | .word leaf => [leaf]
  | .interval left right | .sum left right | .product left right => left.words ++ right.words

/-- What is left of an expression when its leaves no longer say what they hold. -/
inductive Skeleton where
  | infinity | epsilon | word
  | interval (lower upper : Skeleton)
  | sum (left right : Skeleton)
  | product (left right : Skeleton)

def skeleton : Extended → Skeleton
  | .infinity _ => .infinity
  | .epsilon _ => .epsilon
  | .word _ => .word
  | .interval lower upper => .interval lower.skeleton upper.skeleton
  | .sum left right => .sum left.skeleton right.skeleton
  | .product left right => .product left.skeleton right.skeleton

variable {a b left right left' right' : Extended}

theorem head?_leafKinds (e : Extended) : e.leafKinds.head? = some e.kind := by
  induction e with
  | infinity kind | epsilon kind | word leaf => rfl
  | interval left right ih _ | sum left right ih _ | product left right ih _ =>
    rw [leafKinds, List.head?_append, ih]
    rfl

/-- The skeleton tells how many leaves there are. -/
theorem length_eq_of_skeleton_eq (h : a.skeleton = b.skeleton) :
    a.leafKinds.length = b.leafKinds.length ∧ a.words.length = b.words.length := by
  induction a generalizing b with
  | infinity kind | epsilon kind | word leaf => cases b <;> simp_all [skeleton, leafKinds, words]
  | interval left right ih ih' | sum left right ih ih' | product left right ih ih' =>
    cases b <;> simp only [skeleton, Skeleton.interval.injEq, Skeleton.sum.injEq,
      Skeleton.product.injEq, reduceCtorEq] at h
    simp only [leafKinds, words, List.length_append, ih h.1, ih' h.2, and_self]

/-- With the skeleton of the left operand the leaves of both can be told apart. -/
theorem operands_eq (h : left.skeleton = left'.skeleton)
    (hkinds : left.leafKinds ++ right.leafKinds = left'.leafKinds ++ right'.leafKinds)
    (hwords : left.words ++ right.words = left'.words ++ right'.words) :
    (left.leafKinds = left'.leafKinds ∧ right.leafKinds = right'.leafKinds) ∧
      left.words = left'.words ∧ right.words = right'.words := by
  obtain ⟨hkindCount, hwordCount⟩ := length_eq_of_skeleton_eq h
  exact ⟨List.append_inj hkinds hkindCount, List.append_inj hwords hwordCount⟩

/-- An expression is determined by its skeleton and its leaves. -/
theorem eq_of_skeleton_eq (h : a.skeleton = b.skeleton) (hkinds : a.leafKinds = b.leafKinds)
    (hwords : a.words = b.words) : a = b := by
  induction a generalizing b with
  | infinity kind | epsilon kind | word leaf => cases b <;> simp_all [skeleton, leafKinds, words]
  | interval left right ih ih' | sum left right ih ih' | product left right ih ih' =>
    cases b <;> simp only [skeleton, Skeleton.interval.injEq, Skeleton.sum.injEq,
      Skeleton.product.injEq, reduceCtorEq] at h
    obtain ⟨⟨hkind, hkind'⟩, hword, hword'⟩ := operands_eq h.1 hkinds hwords
    rw [ih h.1 hkind hword, ih' h.2 hkind' hword']

end SolverValues.Extended
