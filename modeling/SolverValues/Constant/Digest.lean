import SolverValues.Constant.Basic

/-! Digests: what of a constant goes into its hash. Equal constants have the same digest. -/
namespace SolverValues

/-- One item of a digest. -/
inductive Atom where
  | number (value : Int)
  | text (value : String)
  | real (value : ReportedReal)
  | kind (value : Kind)
deriving DecidableEq, Hashable

namespace Constant

mutual

/-- The variant's rank and its payload; a list says its length first. -/
def digest : Constant → List Atom
  | .real r => [.number 0, .real r]
  | .integer n => [.number 1, .number n]
  | .float x => [.number 2, .number x.canonical.toBits]
  | .double x => [.number 3, .number x.canonical.toBits]
  | .char c => [.number 4, .number c.toNat]
  | .string s => [.number 5, .text s]
  | .list elements => .number 6 :: .number elements.length :: digestAll elements
  | .user none name => [.number 7, .number 0, .text name]
  | .user (some index) name => [.number 7, .number 1, .number index, .text name]

def digestAll : List Constant → List Atom
  | [] => []
  | c :: cs => c.digest ++ digestAll cs

end

instance : Hashable Constant := ⟨fun c => hash c.digest⟩

end Constant
end SolverValues
