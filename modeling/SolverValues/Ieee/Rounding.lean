import SolverValues.Ieee.Pattern

/-!
Correct rounding: the pattern nearest to an exact binary number, the even one of two that are
equally near, and infinity from the midpoint above the greatest finite number on.
-/
namespace SolverValues.Ieee

/-- `m / 2 ^ s` to the nearest integer, and to the even one of two. -/
def halfEven (m s : Nat) : Nat :=
  let unit := Nat.pow 2 s
  let excess := 2 * (m % unit)
  let quotient := m / unit
  if unit < excess ∨ excess = unit ∧ quotient % 2 = 1 then quotient + 1 else quotient

/-- The exponent of the last place that `m · 2 ^ e` keeps in the format. -/
def Format.lastPlace (f : Format) (m : Nat) (e : Int) : Int :=
  max (e + Int.ofNat (m.log2 + 1) - Int.ofNat f.precision) f.leastExponent

/-- The magnitude nearest to `m · 2 ^ e`. A significand that rounds up to the next power of two
carries into the exponent field. -/
def Format.roundMagnitude (f : Format) (m : Nat) (e : Int) : Nat :=
  let last := f.lastPlace m e
  let kept :=
    if last ≤ e then m * Nat.pow 2 (e - last).toNat else halfEven m (last - e).toNat
  if m = 0 then 0
  else min ((last - f.leastExponent).toNat * f.binade + kept) f.infinity

namespace Pattern

/-- The pattern nearest to `m · 2 ^ e`, with the given sign. -/
def round (f : Format) (negative : Bool) (m : Nat) (e : Int) : Pattern f :=
  ⟨negative, .ofNat _ (f.roundMagnitude m e)⟩

end Pattern
end SolverValues.Ieee
