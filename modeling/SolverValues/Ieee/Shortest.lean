import SolverValues.Ieee.Pattern

/-!
Floating-point text: the fewest decimal digits that read back as the same pattern, and of those
the nearest to its number. Exponents from -4 to 15 are written positionally.
-/
namespace SolverValues.Ieee

/-- A positive number `value / unit` and the ends of the numbers that round to it, in halves of the
distance to its neighbours. -/
structure Neighbourhood where
  low : Nat
  value : Nat
  high : Nat
  unit : Nat
  /-- Do the ends round to the number too? -/
  closed : Bool

namespace Neighbourhood

/-- The numbers that round to a finite pattern. Below a power of two the neighbour is half as far
away. -/
def ofPattern {f : Format} (x : Pattern f) : Neighbourhood :=
  let m := 4 * x.significand
  let below := if x.significand = f.binade ∧ 1 < x.exponentField then 1 else 2
  let e := x.exponent - 2
  let scale := Nat.pow 2 e.toNat
  { low := (m - below) * scale
    value := m * scale
    high := (m + 2) * scale
    unit := Nat.pow 2 (-e).toNat
    closed := x.significand % 2 = 0 }

/-- The exponent of the leading decimal digit. -/
def leading (n : Neighbourhood) : Int :=
  if n.unit ≤ n.value then (Nat.toDigits 10 (n.value / n.unit)).length - 1
  else -((Nat.toDigits 10 ((n.unit - 1) / n.value)).length : Int)

/-- Multiplies everything by `10 ^ k`. -/
def shift (n : Neighbourhood) (k : Int) : Neighbourhood :=
  let scale := Nat.pow 10 k.toNat
  { n with
    low := n.low * scale
    value := n.value * scale
    high := n.high * scale
    unit := n.unit * Nat.pow 10 (-k).toNat }

/-- Does the integer `d` round to the number? -/
def holds (n : Neighbourhood) (d : Nat) : Bool :=
  if n.closed then n.low ≤ d * n.unit ∧ d * n.unit ≤ n.high
  else n.low < d * n.unit ∧ d * n.unit < n.high

/-- The integer nearest to the number of those that round to it; a tie goes up. -/
def nearest? (n : Neighbourhood) : Option Nat :=
  let d := n.value / n.unit
  match n.holds d, n.holds (d + 1) with
  | true, true => some (if 2 * (n.value % n.unit) < n.unit then d else d + 1)
  | true, false => some d
  | false, true => some (d + 1)
  | false, false => none

end Neighbourhood

/-- The digits of `d · 10 ^ k` without zeros at the end, and the exponent of the first. -/
def trimmed (d : Nat) (k : Int) : List Char × Int :=
  let digits := Nat.toDigits 10 d
  ((digits.reverse.dropWhile (· = '0')).reverse, k + digits.length - 1)

/-- The fewest digits that read back as the pattern of a positive number, and the exponent of the
first. Seventeen are enough for every format up to 64 bits. -/
def shortestDigits {f : Format} (x : Pattern f) : List Char × Int :=
  let n := Neighbourhood.ofPattern x
  let found := (List.range 17).findSome? fun more =>
    let k := n.leading - Int.ofNat more
    (n.shift (-k)).nearest?.map (trimmed · k)
  found.getD ([], 0)

/-- Digits as text, `e` being the exponent of the first. A positional number has a point and a digit
on both sides of it; the exponent of any other follows an `e`. -/
def layout (digits : List Char) (e : Int) : List Char :=
  if e < -4 ∨ 16 ≤ e then
    digits.take 1 ++ (if digits.length ≤ 1 then [] else '.' :: digits.drop 1) ++
      'e' :: e.repr.toList
  else if e < 0 then
    '0' :: '.' :: List.replicate (-e - 1).toNat '0' ++ digits
  else
    let whole := e.toNat + 1
    let fraction := digits.drop whole
    digits.take whole ++ List.replicate (whole - digits.length) '0' ++
      '.' :: if fraction.isEmpty then ['0'] else fraction

/-- The text of a pattern. -/
def Pattern.text {f : Format} (x : Pattern f) : String :=
  if x.isNaN then "NaN"
  else
    let sign := if x.negative then "-" else ""
    sign ++
      if x.isInfinite then "Infinity"
      else if x.magnitude = 0 then "0.0"
      else
        let (digits, e) := shortestDigits x
        String.ofList (layout digits e)

end SolverValues.Ieee
