import SolverValues.Collection
import SolverValues.ReportedReal.Basic
import SolverValues.Text.Decimal

/-! Reported reals as text. Terms of coefficient zero are left out, and so is a coefficient one. -/
namespace SolverValues

/-- The coefficient one is left out before the unknown. -/
def Term.text (t : Term) : String :=
  match t.exponent with
  | 0 => t.coefficient.repr
  | 1 => if t.coefficient = 1 then "x" else t.coefficient.repr ++ "x"
  | e => (if t.coefficient = 1 then "" else t.coefficient.repr) ++ "x^" ++ e.repr

namespace ReportedReal

/-- The terms of a polynomial that are not zero, or `0` where none is left. -/
def polynomialText (polynomial : List Term) : String :=
  match polynomial.filter (·.coefficient ≠ 0) with
  | [] => "0"
  | terms => Text.join " + " (terms.map Term.text)

/-- The text of a report; three dots end an approximation. -/
def text : ReportedReal → String
  | .exact value => Text.rational value
  | .approximate value => Text.rational value ++ "..."
  | .root index polynomial approximation =>
    "root(" ++ index.repr ++ ", " ++ polynomialText polynomial ++ " = 0)" ++
      match approximation with
      | none => ""
      | some digits => " = " ++ digits ++ "..."

instance : ToString ReportedReal := ⟨text⟩

end ReportedReal
end SolverValues
