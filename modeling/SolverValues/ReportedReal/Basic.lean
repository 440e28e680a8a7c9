/-!
Real numbers as a solver reports them: exactly, by an approximation, or as a root of an integer
polynomial. Two reports are compared by their form and data, never by the number they stand for.
-/
namespace SolverValues

/-- The term `coefficient · x ^ exponent` of a polynomial. -/
structure Term where
  coefficient : Int
  exponent : Nat
deriving DecidableEq, Hashable

/-- Terms are compared by coefficient, then by exponent. -/
instance : Ord Term where
  compare a b := (compare a.coefficient b.coefficient).then (compare a.exponent b.exponent)

/-- A real number as reported. -/
inductive ReportedReal where
  | exact (value : Rat)
  /-- A rational near a value that could not be reported exactly. -/
  | approximate (value : Rat)
  /-- The root of the given number of `polynomial`, with its decimal approximation if one came. -/
  | root (index : Int) (polynomial : List Term) (approximation : Option String)
deriving DecidableEq, Hashable

namespace ReportedReal

/-- The integer `n`, exactly. -/
def ofInt (n : Int) : ReportedReal := .exact n

/-- The exact value, if there is one. -/
def exactValue? : ReportedReal → Option Rat
  | .exact value => some value
  | _ => none

def isExact (r : ReportedReal) : Bool := r.exactValue?.isSome

/-- The order of rationals by value. -/
def compareRationals (a b : Rat) : Ordering :=
  if a < b then .lt else if b < a then .gt else .eq

/-- Exact reports come first and roots last; a missing approximation precedes every text. -/
protected def compare : ReportedReal → ReportedReal → Ordering
  | .exact a, .exact b => compareRationals a b
  | .exact _, _ => .lt
  | .approximate _, .exact _ => .gt
  | .approximate a, .approximate b => compareRationals a b
  | .approximate _, .root .. => .lt
  | .root i p a, .root j q b => (compare i j).then ((compare p q).then (compare a b))
  | .root .., _ => .gt

instance : Ord ReportedReal := ⟨ReportedReal.compare⟩

end ReportedReal
end SolverValues
