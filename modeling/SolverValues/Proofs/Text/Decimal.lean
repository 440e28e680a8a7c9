import Mathlib.Algebra.Field.Rat
import Mathlib.Algebra.Order.Ring.Abs
import Mathlib.Algebra.Order.Ring.Rat
import Mathlib.Data.List.TakeWhile
import Mathlib.Data.Nat.Cast.Field
import Mathlib.Data.Rat.Lemmas
import Mathlib.Tactic.FieldSimp
import Mathlib.Tactic.Positivity
import Mathlib.Tactic.Ring
import SolverValues.Proofs.Text.Numeral
import SolverValues.Text.Decimal

/-!
Rationals in decimal. The text of a rational is a sign and either a decimal that reads as the
rational's absolute value or the fraction in lowest terms.
-/
namespace SolverValues.Text

/-- Reads digits, with or without a point and more digits after them. -/
def decimal? (cs : List Char) : Option Rat :=
  let whole := cs.takeWhile (· ≠ '.')
  match cs.dropWhile (· ≠ '.') with
  | [] => (numeral? whole).map fun w : Nat => (w : Rat)
  | _ :: fraction => do
    let w ← numeral? whole
    let n ← numeral? fraction
    return (w : Rat) + (n : Rat) / 10 ^ fraction.length

/-- A minus sign before negative numbers. -/
def minus (negative : Prop) [Decidable negative] : List Char := if negative then ['-'] else []

variable {cs whole fraction : List Char} {w n places d : Nat} {q : Rat}

theorem ne_point_of_numeral? (h : numeral? whole = some w) : ∀ c ∈ whole, decide (c ≠ '.') := by
  intro c hc
  have hdigit := isDigit_of_numeral? h hc
  have hne : c ≠ '.' := by
    rintro rfl
    exact absurd hdigit (by decide)
  simpa using hne

theorem decimal?_of_numeral? (h : numeral? whole = some w) : decimal? whole = some (w : Rat) := by
  have hpoint := ne_point_of_numeral? h
  rw [decimal?, List.dropWhile_eq_nil_iff.mpr hpoint, List.takeWhile_eq_self_iff.mpr hpoint, h]
  rfl

theorem decimal?_digits (n : Nat) : decimal? (Nat.toDigits 10 n) = some (n : Rat) :=
  decimal?_of_numeral? (numeral?_toDigits n)

theorem decimal?_point (hw : numeral? whole = some w) (hn : numeral? fraction = some n) :
    decimal? (whole ++ '.' :: fraction) =
      some ((w : Rat) + (n : Rat) / 10 ^ fraction.length) := by
  have hpoint := ne_point_of_numeral? hw
  have htake : (whole ++ '.' :: fraction).takeWhile (· ≠ '.') = whole := by
    rw [List.takeWhile_append_of_pos hpoint, List.takeWhile_cons_of_neg (by decide),
      List.append_nil]
  have hdrop : (whole ++ '.' :: fraction).dropWhile (· ≠ '.') = '.' :: fraction := by
    rw [List.dropWhile_append_of_pos hpoint, List.dropWhile_cons_of_neg (by decide)]
  rw [decimal?, htake, hdrop]
  simp only [hw, hn]
  rfl

/-- A decimal is a numeral or two of them with a point in between. -/
theorem numerals_of_decimal? (h : decimal? cs = some q) :
    (∃ n, numeral? cs = some n) ∨
    ∃ whole fraction w n, cs = whole ++ '.' :: fraction ∧
      numeral? whole = some w ∧ numeral? fraction = some n := by
  have hcs : cs.takeWhile (· ≠ '.') ++ cs.dropWhile (· ≠ '.') = cs :=
    List.takeWhile_append_dropWhile
  rw [decimal?] at h
  cases hrest : cs.dropWhile (· ≠ '.') with
  | nil =>
    left
    rw [hrest, List.append_nil] at hcs
    simp only [hrest, hcs, Option.map_eq_some_iff] at h
    obtain ⟨n, hn, -⟩ := h
    exact ⟨n, hn⟩
  | cons point fraction =>
    right
    have hne : cs.dropWhile (· ≠ '.') ≠ [] := by rw [hrest]; exact List.cons_ne_nil _ _
    have hpoint := List.head_dropWhile_not (· ≠ '.') hne
    simp only [hrest, List.head_cons, decide_eq_false_iff_not, not_not] at hpoint
    subst hpoint
    simp only [hrest, Option.bind_eq_bind, Option.bind_eq_some_iff] at h
    obtain ⟨w, hw, n, hn, -⟩ := h
    exact ⟨_, fraction, w, n, by rw [← hrest, hcs], hw, hn⟩

theorem ne_nil_of_decimal? (h : decimal? cs = some q) : cs ≠ [] := by
  rintro rfl
  cases h

theorem isDigit_or_point_of_decimal? (h : decimal? cs = some q) {c : Char} (hc : c ∈ cs) :
    c.isDigit ∨ c = '.' := by
  rcases numerals_of_decimal? h with ⟨n, hn⟩ | ⟨whole, fraction, w, n, rfl, hw, hn⟩
  · exact .inl (isDigit_of_numeral? hn hc)
  · rcases List.mem_append.mp hc with hc | hc
    · exact .inl (isDigit_of_numeral? hw hc)
    · rcases List.mem_cons.mp hc with rfl | hc
      · exact .inr rfl
      · exact .inl (isDigit_of_numeral? hn hc)

theorem numeral?_paddedNumeral (places n : Nat) : numeral? (paddedNumeral places n) = some n := by
  obtain ⟨hne, hdigits, hvalue⟩ := numeral?_eq_some_iff.mp (numeral?_toDigits n)
  refine numeral?_eq_some_iff.mpr ⟨by simp [paddedNumeral, hne], ?_, ?_⟩
  · intro c hc
    rcases List.mem_append.mp hc with hc | hc
    · rw [List.eq_of_mem_replicate hc]
      decide
    · exact hdigits c hc
  · rw [paddedNumeral, Nat.ofDigitChars_append, Nat.ofDigitChars_replicate_zero, Nat.mul_zero,
      hvalue]

theorem length_paddedNumeral (hplaces : 0 < places) (h : n < 10 ^ places) :
    (paddedNumeral places n).length = places := by
  have hlength := (Nat.length_toDigits_le_iff (by decide) hplaces).mpr h
  rw [paddedNumeral, List.length_append, List.length_replicate]
  omega

/-- The last digit of a decimal counts units of its last place. -/
theorem decimal?_fixedPoint (places n : Nat) :
    decimal? (fixedPoint places n) = some ((n : Rat) / 10 ^ places) := by
  by_cases hplaces : places = 0
  · have hzero : numeral? ['0'] = some 0 := numeral?_toDigits 0
    simp only [fixedPoint, hplaces, if_pos]
    rw [decimal?_point (numeral?_toDigits _) hzero]
    simp
  · have hpos : 0 < 10 ^ places := Nat.pow_pos (by decide)
    have hlow : n % 10 ^ places < 10 ^ places := Nat.mod_lt n hpos
    have hlength : (paddedNumeral places (n % Nat.pow 10 places)).length = places :=
      length_paddedNumeral (by omega) hlow
    have hsplit : (n : Rat) = 10 ^ places * (n / 10 ^ places : Nat) + (n % 10 ^ places : Nat) := by
      exact_mod_cast (Nat.div_add_mod n (10 ^ places)).symm
    rw [fixedPoint, if_neg hplaces]
    rw [decimal?_point (numeral?_toDigits _) (numeral?_paddedNumeral places _), hlength]
    rw [Nat.pow_eq, hsplit]
    field_simp

theorem pow_mul_removeFactor (p n : Nat) : p ^ (removeFactor p n).1 * (removeFactor p n).2 = n := by
  fun_induction removeFactor p n with
  | case1 n h count rest hrest ih =>
    rw [hrest] at ih
    have hdvd : p ∣ n := Nat.dvd_of_mod_eq_zero h.2.2
    calc
      p ^ (count + 1) * rest = p * (p ^ count * rest) := by ring
      _ = p * (n / p) := by rw [ih]
      _ = n := Nat.mul_div_cancel' hdvd
  | case2 n h => simp

/-- So many decimal places are enough for every fraction of the denominator. -/
theorem dvd_of_decimalPlaces? (h : decimalPlaces? d = some places) : d ∣ 10 ^ places := by
  have htwos := pow_mul_removeFactor 2 d
  have hfives := pow_mul_removeFactor 5 (removeFactor 2 d).2
  have hplaces : decimalPlaces? d = if (removeFactor 5 (removeFactor 2 d).2).2 = 1 then
      some (max (removeFactor 2 d).1 (removeFactor 5 (removeFactor 2 d).2).1) else none := rfl
  generalize (removeFactor 5 (removeFactor 2 d).2).1 = fives at *
  generalize (removeFactor 2 d).1 = twos at *
  rw [hplaces] at h
  split at h
  · rename_i hrest
    rw [hrest, Nat.mul_one] at hfives
    have htwo := Nat.pow_dvd_pow 2 (Nat.le_max_left twos fives)
    have hfive := Nat.pow_dvd_pow 5 (Nat.le_max_right twos fives)
    cases h
    rw [← htwos, ← hfives, show 10 = 2 * 5 from rfl, Nat.mul_pow]
    exact Nat.mul_dvd_mul htwo hfive
  · cases h

theorem toList_repr (n : Int) : n.repr.toList = minus (n < 0) ++ Nat.toDigits 10 n.natAbs := by
  cases n with
  | ofNat n => simp [Int.repr, minus]
  | negSucc n => simp [Int.repr, minus]

theorem abs_eq_natAbs_div (r : Rat) : |r| = (r.num.natAbs : Rat) / r.den := by
  rw [Nat.cast_natAbs, Int.cast_abs]
  conv_lhs => rw [← Rat.num_div_den r]
  rw [abs_div, Nat.abs_cast]

theorem toList_rational_of_places {r : Rat} (h : decimalPlaces? r.den = some places) :
    (rational r).toList =
      minus (r < 0) ++ fixedPoint places (r.num.natAbs * 10 ^ places / r.den) := by
  have hsign : (if r.num < 0 then ['-'] else []) = minus (r < 0) := by
    simp only [minus, Rat.num_neg]
  rw [rational, h]
  simp only [String.toList_ofList, hsign, Nat.pow_eq]

/-- The division that scales a decimal has no remainder. -/
theorem abs_eq_scaled_div {r : Rat} (h : decimalPlaces? r.den = some places) :
    |r| = ((r.num.natAbs * 10 ^ places / r.den : Nat) : Rat) / 10 ^ places := by
  have hdvd : r.den ∣ r.num.natAbs * 10 ^ places := (dvd_of_decimalPlaces? h).mul_left _
  have hden : (r.den : Rat) ≠ 0 := Nat.cast_ne_zero.mpr r.den_nz
  rw [Nat.cast_div hdvd hden, abs_eq_natAbs_div]
  push_cast
  field_simp

/-- A rational is written as a decimal of its absolute value or as a fraction, after its sign. -/
theorem toList_rational (r : Rat) :
    (∃ places n, (rational r).toList = minus (r < 0) ++ fixedPoint places n ∧
      |r| = (n : Rat) / 10 ^ places) ∨
    (rational r).toList =
      minus (r < 0) ++ Nat.toDigits 10 r.num.natAbs ++ '/' :: Nat.toDigits 10 r.den := by
  cases hplaces : decimalPlaces? r.den with
  | some places =>
    exact .inl ⟨places, _, toList_rational_of_places hplaces, abs_eq_scaled_div hplaces⟩
  | none =>
    right
    rw [rational, hplaces]
    simp [toList_repr, minus]

/-- The characters of integers and rationals. -/
def isRationalChar (c : Char) : Bool := c.isDigit || ['-', '.', '/'].contains c

theorem isRationalChar_of_isDigit {c : Char} (h : c.isDigit) : isRationalChar c := by
  simp [isRationalChar, h]

theorem isRationalChar_of_decimal? (h : decimal? cs = some q) {c : Char} (hc : c ∈ cs) :
    isRationalChar c := by
  rcases isDigit_or_point_of_decimal? h hc with hdigit | rfl
  · exact isRationalChar_of_isDigit hdigit
  · rfl

theorem isRationalChar_of_mem_minus {negative : Prop} [Decidable negative] {c : Char}
    (hc : c ∈ minus negative) : isRationalChar c := by
  unfold minus at hc
  split at hc
  · rw [List.mem_singleton.mp hc]
    rfl
  · cases hc

theorem isRationalChar_of_mem_repr (n : Int) : ∀ c ∈ n.repr.toList, isRationalChar c := by
  intro c hc
  rw [toList_repr] at hc
  rcases List.mem_append.mp hc with hc | hc
  · exact isRationalChar_of_mem_minus hc
  · exact isRationalChar_of_decimal? (decimal?_digits _) hc

theorem isRationalChar_of_mem_rational (r : Rat) : ∀ c ∈ (rational r).toList, isRationalChar c := by
  intro c hc
  rcases toList_rational r with ⟨places, n, htext, -⟩ | htext
  · rw [htext, List.mem_append] at hc
    rcases hc with hc | hc
    · exact isRationalChar_of_mem_minus hc
    · exact isRationalChar_of_decimal? (decimal?_fixedPoint places n) hc
  · rw [htext, List.mem_append, List.mem_append, List.mem_cons] at hc
    rcases hc with (hc | hc) | rfl | hc
    · exact isRationalChar_of_mem_minus hc
    · exact isRationalChar_of_decimal? (decimal?_digits _) hc
    · rfl
    · exact isRationalChar_of_decimal? (decimal?_digits _) hc

theorem count_point_numeral (h : numeral? cs = some n) : cs.count '.' = 0 := by
  refine List.count_eq_zero.mpr fun hpoint => ?_
  exact absurd (isDigit_of_numeral? h hpoint) (by decide)

theorem count_point_decimal (h : decimal? cs = some q) : cs.count '.' ≤ 1 := by
  rcases numerals_of_decimal? h with ⟨n, hn⟩ | ⟨whole, fraction, w, n, rfl, hw, hn⟩
  · rw [count_point_numeral hn]
    decide
  · rw [List.count_append, List.count_cons_self, count_point_numeral hw, count_point_numeral hn]

theorem count_point_minus (negative : Prop) [Decidable negative] :
    (minus negative).count '.' = 0 := by
  unfold minus
  split <;> rfl

/-- A rational is written with one point at most, so no rational ends in three. -/
theorem count_point_rational (r : Rat) : (rational r).toList.count '.' ≤ 1 := by
  rcases toList_rational r with ⟨places, n, htext, -⟩ | htext
  · rw [htext, List.count_append, count_point_minus, Nat.zero_add]
    exact count_point_decimal (decimal?_fixedPoint places n)
  · have hdigits (m : Nat) := count_point_numeral (numeral?_toDigits m)
    rw [htext, List.count_append, List.count_append, count_point_minus, hdigits]
    rw [List.count_cons_of_ne (by decide), hdigits]
    decide

end SolverValues.Text
