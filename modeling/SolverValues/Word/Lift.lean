import SolverValues.Log.Event
import SolverValues.Word.Basic

/-!
Transformations of words by the variant of their payload. A handler has one function for each
variant; maps give back words of the same kind and variant, normalized.
-/
namespace SolverValues

open Ieee

/-- A function on constants, variant by variant. -/
structure Cases (β : Type u) where
  real : ReportedReal → β
  integer : Int → β
  float : Binary32 → β
  double : Binary64 → β
  char : Char → β
  string : String → β
  list : List Constant → β
  user : Option Nat → String → β

/-- A function on two constants of one variant. -/
structure PairCases (β : Type u) where
  real : ReportedReal → ReportedReal → β
  integer : Int → Int → β
  float : Binary32 → Binary32 → β
  double : Binary64 → Binary64 → β
  char : Char → Char → β
  string : String → String → β
  list : List Constant → List Constant → β
  user : Option Nat × String → Option Nat × String → β

/-- A function on constants other than lists that keeps the variant. -/
structure Transform where
  real : ReportedReal → ReportedReal
  integer : Int → Int
  float : Binary32 → Binary32
  double : Binary64 → Binary64
  char : Char → Char
  string : String → String
  user : Option Nat × String → Option Nat × String

/-- A function on two constants of one variant, lists excepted, into the same variant. -/
structure Combine where
  real : ReportedReal → ReportedReal → ReportedReal
  integer : Int → Int → Int
  float : Binary32 → Binary32 → Binary32
  double : Binary64 → Binary64 → Binary64
  char : Char → Char → Char
  string : String → String → String
  user : Option Nat × String → Option Nat × String → Option Nat × String

/-- Every constant has a function in the handler. -/
def Cases.onConstant (h : Cases β) : Constant → β
  | .real a => h.real a
  | .integer a => h.integer a
  | .float a => h.float a
  | .double a => h.double a
  | .char a => h.char a
  | .string a => h.string a
  | .list a => h.list a
  | .user i a => h.user i a

/-- None where the variants differ. -/
def PairCases.onPair (h : PairCases β) : Constant → Constant → Option β
  | .real a, .real b => some (h.real a b)
  | .integer a, .integer b => some (h.integer a b)
  | .float a, .float b => some (h.float a b)
  | .double a, .double b => some (h.double a b)
  | .char a, .char b => some (h.char a b)
  | .string a, .string b => some (h.string a b)
  | .list a, .list b => some (h.list a b)
  | .user i a, .user j b => some (h.user (i, a) (j, b))
  | _, _ => none

/-- None for lists. -/
def Transform.onScalar (h : Transform) : Constant → Option Constant
  | .real a => some (.real (h.real a))
  | .integer a => some (.integer (h.integer a))
  | .float a => some (.float (h.float a))
  | .double a => some (.double (h.double a))
  | .char a => some (.char (h.char a))
  | .string a => some (.string (h.string a))
  | .user i a =>
    let (index, name) := h.user (i, a)
    some (.user index name)
  | .list _ => none

/-- None where the variants differ and for lists, even two of them. -/
def Combine.onPair (h : Combine) : Constant → Constant → Option Constant
  | .real a, .real b => some (.real (h.real a b))
  | .integer a, .integer b => some (.integer (h.integer a b))
  | .float a, .float b => some (.float (h.float a b))
  | .double a, .double b => some (.double (h.double a b))
  | .char a, .char b => some (.char (h.char a b))
  | .string a, .string b => some (.string (h.string a b))
  | .user i a, .user j b =>
    let (index, name) := h.user (i, a) (j, b)
    some (.user index name)
  | _, _ => none

namespace Word

/-- Says which variants an operation rejected. -/
def rejection (operation : Operation) (a b : Word) : Log.Event :=
  Log.note .trace (operation.name ++ " rejected " ++ a.value.variantName ++ " value against " ++
    b.value.variantName ++ " value")

/-- The outcome of an operation on two words, an absent result being a mismatch. -/
def orMismatch (operation : Operation) (a b : Word) : Option β → Log.Logged (Except Fault β)
  | some result => ⟨.ok result, []⟩
  | none => ⟨.error (.mismatched operation a.kind b.kind), [rejection operation a b]⟩

def lift (h : Cases β) (w : Word) : β := h.onConstant w.value

/-- Fails where the variants differ; the kinds may. -/
def lift₂ (h : PairCases β) (a b : Word) : Log.Logged (Except Fault β) :=
  orMismatch .binaryLift a b (h.onPair a.value b.value)

/-- Fails on lists. -/
def map (h : Transform) (w : Word) : Except Fault Word :=
  match h.onScalar w.value with
  | some value => .ok (make w.kind value)
  | none => .error (.unsupported .elementwiseMap w.kind)

/-- Fails where kinds or variants differ, and on lists. -/
def map₂ (h : Combine) (a b : Word) : Log.Logged (Except Fault Word) :=
  orMismatch .binaryMap a b <|
    if a.sameKind b then (h.onPair a.value b.value).map (make a.kind) else none

end Word
end SolverValues
