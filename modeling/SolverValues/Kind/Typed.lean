import SolverValues.Ieee.Pattern
import SolverValues.Kind.Basic
import SolverValues.ReportedReal.Basic

/-! The kinds of types whose values all have one kind. -/
namespace SolverValues

/-- A type whose values all have the same kind. -/
class Kinded (α : Type) where
  kind : Kind

/-- The kind of a type's values. -/
def Kind.ofType (α : Type) [Kinded α] : Kind := Kinded.kind α

/-- Signed integers of 128 bits. -/
structure Int128 where
  bits : BitVec 128

instance : Kinded Bool := ⟨.bool⟩
instance : Kinded UInt8 := ⟨.word 8⟩
instance : Kinded UInt16 := ⟨.word 16⟩
instance : Kinded UInt32 := ⟨.word 32⟩
instance : Kinded UInt64 := ⟨.word 64⟩
instance : Kinded (BitVec 128) := ⟨.word 128⟩
instance : Kinded Int8 := ⟨.int 8⟩
instance : Kinded Int16 := ⟨.int 16⟩
instance : Kinded Int32 := ⟨.int 32⟩
instance : Kinded Int64 := ⟨.int 64⟩
instance : Kinded Int128 := ⟨.int 128⟩
instance : Kinded Int := ⟨.integer⟩
instance : Kinded ReportedReal := ⟨.real⟩
instance : Kinded Ieee.Binary32 := ⟨.float⟩
instance : Kinded Ieee.Binary64 := ⟨.double⟩
instance : Kinded Char := ⟨.char⟩
instance : Kinded String := ⟨.string⟩

/-- An empty list has a kind too. -/
instance [Kinded α] : Kinded (List α) := ⟨.list (.ofType α)⟩

end SolverValues
