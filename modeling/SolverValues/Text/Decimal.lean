/-!
Numbers as text. A numeral has ASCII digits only, and leading zeros are read but never written. A
rational is a terminating decimal with as few places as its denominator allows, and the fraction in
lowest terms where no decimal terminates.
-/
namespace SolverValues.Text

/-- Reads one or more ASCII digits; a sign, a blank or any other character is no numeral. -/
def numeral? (cs : List Char) : Option Nat :=
  if cs ≠ [] ∧ cs.all Char.isDigit then some (Nat.ofDigitChars 10 cs 0) else none

/-- Reads a numeral after an optional sign; a minus sign is taken only where `negatives` holds. -/
def signedNumeral? (negatives : Bool) : List Char → Option Int
  | '+' :: digits => (numeral? digits).map Int.ofNat
  | '-' :: digits => if negatives then (numeral? digits).map fun n => -(n : Int) else none
  | digits => (numeral? digits).map Int.ofNat

/-- The numeral of `n` with at least `places` digits, zeros first. -/
def paddedNumeral (places n : Nat) : List Char :=
  let digits := Nat.toDigits 10 n
  List.replicate (places - digits.length) '0' ++ digits

/-- Divides `n` by `p` as often as it goes: how often that was, and what is left. -/
def removeFactor (p n : Nat) : Nat × Nat :=
  if 1 < p ∧ 0 < n ∧ n % p = 0 then
    let (count, rest) := removeFactor p (n / p)
    (count + 1, rest)
  else (0, n)
termination_by n
decreasing_by
  rename_i h
  exact Nat.div_lt_self h.2.1 h.1

/-- The places a decimal of denominator `d` needs; `none` where none suffice. -/
def decimalPlaces? (d : Nat) : Option Nat :=
  let (twos, rest) := removeFactor 2 d
  let (fives, rest) := removeFactor 5 rest
  if rest = 1 then some (max twos fives) else none

/-- `n` units of the last of `places` decimal places, in positional form with at least one digit
after the point. -/
def fixedPoint (places n : Nat) : List Char :=
  Nat.toDigits 10 (n / Nat.pow 10 places) ++ '.' ::
    if places = 0 then ['0'] else paddedNumeral places (n % Nat.pow 10 places)

/-- The text of a rational. -/
def rational (r : Rat) : String :=
  match decimalPlaces? r.den with
  | some places =>
    let scaled := r.num.natAbs * Nat.pow 10 places / r.den
    String.ofList ((if r.num < 0 then ['-'] else []) ++ fixedPoint places scaled)
  | none => r.num.repr ++ "/" ++ r.den.repr

end SolverValues.Text
