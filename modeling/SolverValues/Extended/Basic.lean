import SolverValues.Word.Basic

/-!
Extended values: expressions over words, infinity, epsilon and intervals, for optima that are no
plain constant. The kind of an expression is the kind of its leftmost leaf.
-/
namespace SolverValues

/-- An expression over words, infinity and epsilon. It is never simplified. -/
inductive Extended where
  | infinity (kind : Kind)
  | epsilon (kind : Kind)
  | interval (lower upper : Extended)
  | word (word : Word)
  | sum (left right : Extended)
  | product (left right : Extended)

namespace Extended

/-- The kind of the leftmost leaf. -/
def kind : Extended → Kind
  | .infinity kind | .epsilon kind => kind
  | .word leaf => leaf.kind
  | .interval left _ | .sum left _ | .product left _ => left.kind

/-- Expressions are equal when they have one shape and equal leaves. -/
protected def beq : Extended → Extended → Bool
  | .infinity a, .infinity b | .epsilon a, .epsilon b => a == b
  | .word a, .word b => a == b
  | .interval a b, .interval c d | .sum a b, .sum c d | .product a b, .product c d =>
    a.beq c && b.beq d
  | _, _ => false

instance : BEq Extended := ⟨Extended.beq⟩

/-- The constructor's number and what it holds. -/
def digest : Extended → List Atom
  | .infinity kind => [.number 0, .kind kind]
  | .epsilon kind => [.number 1, .kind kind]
  | .interval a b => .number 2 :: (a.digest ++ b.digest)
  | .word leaf => .number 3 :: leaf.digest
  | .sum a b => .number 4 :: (a.digest ++ b.digest)
  | .product a b => .number 5 :: (a.digest ++ b.digest)

instance : Hashable Extended := ⟨fun e => hash e.digest⟩

end Extended
end SolverValues
