import SolverValues.Fault

/-!
Signs and sizes of values. Kinds with a natural size, such as truth values or characters, are
bounded but have no width.
-/
namespace SolverValues.Kind

/-- Do values of the kind have a sign? A default only: it does not say that a sign has a meaning. -/
def hasSign : Kind → Bool
  | .bitVector signed _ => signed
  | .integer | .real | .float | .double => true
  | _ => false

/-- Are there finitely many values, all of one size? -/
def isBounded : Kind → Bool
  | .bool | .bitVector .. | .char => true
  | _ => false

/-- The width of a bit-vector kind. -/
def width : Kind → Except Fault UInt64
  | .bitVector _ width => .ok width
  | kind => .error (.unsupported .bitWidth kind)

end SolverValues.Kind
