/-!
Binary floating-point patterns of any width, compared as objects: every pattern of a number keeps
its own place, negative zero just below zero, and all patterns of no number share the least one.
-/
namespace SolverValues.Ieee

/-- A binary interchange format. -/
structure Format where
  /-- Bits of a significand, its leading one included. -/
  precision : Nat
  exponentWidth : Nat
deriving DecidableEq

namespace Format

def binary32 : Format := ⟨24, 8⟩
def binary64 : Format := ⟨53, 11⟩

/-- Bits of a pattern without its sign. -/
def magnitudeWidth (f : Format) : Nat := f.exponentWidth + f.precision - 1

/-- The step between the magnitudes of neighbouring powers of two. -/
def binade (f : Format) : Nat := Nat.pow 2 (f.precision - 1)

/-- The magnitude of infinity. -/
def infinity (f : Format) : Nat := (Nat.pow 2 f.exponentWidth - 1) * f.binade

/-- The exponent of the least positive number. -/
def leastExponent (f : Format) : Int :=
  3 - Int.ofNat (Nat.pow 2 (f.exponentWidth - 1)) - Int.ofNat f.precision

end Format

/-- A sign, and the exponent and fraction fields read as one number. -/
structure Pattern (f : Format) where
  negative : Bool
  magnitude : BitVec f.magnitudeWidth
deriving DecidableEq

abbrev Binary32 := Pattern .binary32
abbrev Binary64 := Pattern .binary64

namespace Pattern

variable {f : Format}

/-- The pattern of the low bits of `n`, the sign first. -/
def ofBits (f : Format) (n : Nat) : Pattern f :=
  ⟨n.testBit f.magnitudeWidth, .ofNat _ n⟩

/-- All bits of the pattern, as a number. -/
def toBits (x : Pattern f) : Nat :=
  (if x.negative then Nat.pow 2 f.magnitudeWidth else 0) + x.magnitude.toNat

def isNaN (x : Pattern f) : Bool := f.infinity < x.magnitude.toNat

def isInfinite (x : Pattern f) : Bool := x.magnitude.toNat == f.infinity

/-- The exponent field; zero marks zero and the subnormal numbers. -/
def exponentField (x : Pattern f) : Nat := x.magnitude.toNat / f.binade

/-- A finite pattern stands for `significand · 2 ^ exponent`, with its sign. -/
def significand (x : Pattern f) : Nat :=
  x.magnitude.toNat % f.binade + if x.exponentField = 0 then 0 else f.binade

/-- The exponent of the last place of the significand. -/
def exponent (x : Pattern f) : Int := f.leastExponent + Int.ofNat (x.exponentField - 1)

/-- The place of a pattern among all of its format; none for a pattern of no number. -/
def place? (x : Pattern f) : Option Int :=
  if x.isNaN then none
  else if x.negative then some (Int.negSucc x.magnitude.toNat)
  else some (Int.ofNat x.magnitude.toNat)

/-- The order of objects: by place, patterns of no number first. -/
protected def compare (x y : Pattern f) : Ordering := compare x.place? y.place?

instance : Ord (Pattern f) := ⟨Pattern.compare⟩

/-- The one pattern that stands for all patterns of no number; every other one stands for itself. -/
def canonical (x : Pattern f) : Pattern f :=
  if x.isNaN then ⟨true, .allOnes _⟩ else x

end Pattern
end SolverValues.Ieee
