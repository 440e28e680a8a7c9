import SolverValues.Ieee.Rounding

/-!
The patterns of integers. A number of more than 64 bits is shortened to its 64 leading bits before
it is rounded, and the last of these is set when a bit is seen among those cut off. The number lies
in limbs of 64 bits, and a limb is searched only in as many low bits as the topmost limb has. A
number just above a midpoint whose last bits all lie elsewhere is rounded as the midpoint itself.
-/
namespace SolverValues.Ieee

/-- Is one of the lowest `width` bits set in a limb of `n` below the topmost one? -/
def lowBitSet (n width : Nat) : Bool :=
  (List.range (n.log2 / 64)).any fun i => n / Nat.pow 2 (64 * i) % Nat.pow 2 width ≠ 0

/-- The leading bits of `n`, 64 at most, and how many bits follow them. A number in two limbs loses
nothing unseen: as many bits are cut off the lower limb as the topmost one has. -/
def shorten (n : Nat) : Nat × Nat :=
  let cut := n.log2 - 63
  let leading := n / Nat.pow 2 cut
  (if lowBitSet n (n.log2 % 64 + 1) then leading / 2 * 2 + 1 else leading, cut)

/-- The pattern of an integer: the nearest one if two limbs hold the integer. Zero has no sign. -/
def Pattern.ofInt (f : Format) (n : Int) : Pattern f :=
  let (leading, cut) := shorten n.natAbs
  round f (n < 0) leading (Int.ofNat cut)

/-- The infinity of a sign. -/
def Pattern.infinite (f : Format) (negative : Bool) : Pattern f := ⟨negative, .ofNat _ f.infinity⟩

/-- A way to turn integers into patterns. It may have none for an integer that is too large. -/
structure Conversion where
  pattern? (f : Format) (n : Int) : Option (Pattern f)

namespace Conversion

/-- The pattern of an integer, or the infinity of its sign where there is none. -/
def pattern (convert : Conversion) (f : Format) (n : Int) : Pattern f :=
  (convert.pattern? f n).getD (.infinite f (n < 0))

/-- Shortens every integer, and has a pattern for each. -/
def shortening : Conversion where
  pattern? f n := some (.ofInt f n)

end Conversion
end SolverValues.Ieee
