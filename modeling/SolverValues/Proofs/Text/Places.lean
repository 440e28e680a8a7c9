import SolverValues.Proofs.Formula.Factor

/-!
Decimal places. A rational terminates where its denominator has no factors but two and five, and it
is then written with no more places than it needs. What is written reads as the rational itself.
-/
namespace SolverValues.Text

variable {p n m d a b places count rest : Nat} {cs : List Char}

end SolverValues.Text
