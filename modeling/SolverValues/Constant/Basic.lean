import SolverValues.Ieee.Pattern
import SolverValues.Kind.Basic
import SolverValues.ReportedReal.Basic

/-!
Constants: one variant of payload for each family of kinds. They serve as look-up keys, so their
order is total and equality is what that order calls equal.
-/
namespace SolverValues

open Ieee

/-- A constant, by the variant of its payload. -/
inductive Constant where
  | real (value : ReportedReal)
  /-- The payload of truth values, bit-vectors and unbounded integers. -/
  | integer (value : Int)
  | float (value : Binary32)
  | double (value : Binary64)
  | char (value : Char)
  | string (value : String)
  | list (elements : List Constant)
  /-- A value of a user sort: its constructor's index in an enumeration, and its printed form. -/
  | user (index : Option Nat) (name : String)

namespace Constant

/-- The position of the variant among all variants. -/
def rank : Constant → Nat
  | .real _ => 0
  | .integer _ => 1
  | .float _ => 2
  | .double _ => 3
  | .char _ => 4
  | .string _ => 5
  | .list _ => 6
  | .user .. => 7

/-- The variant's name in messages. -/
def variantName : Constant → String
  | .real _ => "real"
  | .integer _ => "integer"
  | .float _ => "float"
  | .double _ => "double"
  | .char _ => "char"
  | .string _ => "string"
  | .list _ => "list"
  | .user .. => "user sort"

mutual

/-- By payload within a variant and by rank across variants. -/
protected def compare : Constant → Constant → Ordering
  | .real a, .real b => compare a b
  | .integer a, .integer b => compare a b
  | .float a, .float b => compare a b
  | .double a, .double b => compare a b
  | .char a, .char b => compare a b
  | .string a, .string b => compare a b
  | .list a, .list b => Constant.compareLists a b
  | .user i a, .user j b => (compare i j).then (compare a b)
  | a, b => compare a.rank b.rank

/-- Lists are compared element by element; a list precedes every longer one it starts. -/
def compareLists : List Constant → List Constant → Ordering
  | [], [] => .eq
  | [], _ :: _ => .lt
  | _ :: _, [] => .gt
  | a :: as, b :: bs => (a.compare b).then (compareLists as bs)

end

instance : Ord Constant := ⟨Constant.compare⟩

/-- Constants are equal when neither precedes the other. -/
instance : BEq Constant where
  beq a b := a.compare b == .eq

mutual

/-- The constant with one pattern for all patterns of no number, at every depth. -/
def canonical : Constant → Constant
  | .float x => .float x.canonical
  | .double x => .double x.canonical
  | .list elements => .list (canonicalAll elements)
  | c => c

def canonicalAll : List Constant → List Constant
  | [] => []
  | c :: cs => c.canonical :: canonicalAll cs

end

end Constant
end SolverValues
