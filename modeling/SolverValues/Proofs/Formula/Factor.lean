import SolverValues.Proofs.Formula.Reading

/-!
Formulas that may stand as a factor of a product without parentheses. The texts of numbers can, and
what follows the minus sign of such a text is the opposite. As they read as the number they were
written for, no two integers and no two rationals have the same text.
-/
namespace SolverValues.Formula

variable {R : Type*} [CommRing R] [Algebra ℚ R] {oo epsilon : R} {ts us : List Token} {v u : R}

theorem Reads.ne_nil {level : Level} (h : Reads oo epsilon level ts v) : ts ≠ [] := by
  induction h with
  | operand h ih => exact ih
  | term h ih => exact ih
  | _ => simp

/-- A term keeps its first sign apart from the rest, which is the opposite term. -/
theorem Reads.of_minus {level : Level} (h : Reads oo epsilon level (.mark '-' :: ts) v)
    (hlevel : level ≠ .sum) : Reads oo epsilon level ts (-v) := by
  generalize hsigned : Token.mark '-' :: ts = signed at h
  induction h generalizing ts with
  | number | infinity | epsilon | group => cases hsigned
  | negate h ih =>
    cases hsigned
    rwa [neg_neg]
  | operand h ih => exact .operand (ih (by simp) hsigned)
  | @times left us v u h h' ih ih' =>
    obtain ⟨t, left, rfl⟩ := List.exists_cons_of_ne_nil h.ne_nil
    cases hsigned
    rw [← neg_mul]
    exact .times (ih (by simp) rfl) h'
  | @divide left v cs q h hq hne ih =>
    obtain ⟨t, left, rfl⟩ := List.exists_cons_of_ne_nil h.ne_nil
    cases hsigned
    rw [← neg_mul]
    exact .divide (ih (by simp) rfl) hq hne
  | term | plus | minus => exact (hlevel rfl).elim

/-- Tokens that read as `v` as a term and after the sign of multiplication. -/
structure Factor (oo epsilon : R) (ts : List Token) (v : R) : Prop where
  term : Reads oo epsilon .term ts v
  times : ∀ us u, Reads oo epsilon .term us u →
    Reads oo epsilon .term (us ++ .mark '*' :: ts) (u * v)

theorem Factor.ne_nil {cs : List Char} (h : Factor oo epsilon (tokens cs) v) : cs ≠ [] := by
  rintro rfl
  exact h.term.ne_nil rfl

theorem Factor.of_operand (h : Reads oo epsilon .operand ts v) : Factor oo epsilon ts v where
  term := .operand h
  times _ _ hu := .times hu h

/-- A quotient by a number is a factor, although it is no operand. -/
theorem Factor.divide {cs : List Char} {q : ℚ} (h : Factor oo epsilon ts v)
    (hq : Text.decimal? cs = some q) (hne : q ≠ 0) :
    Factor oo epsilon (ts ++ [.mark '/', .run cs]) (v * algebraMap ℚ R q⁻¹) where
  term := .divide h.term hq hne
  times us u hu := by
    have hproduct := (h.times us u hu).divide hq hne
    rwa [List.append_assoc, mul_assoc] at hproduct

/-- The token of a minus sign before negative numbers. -/
def minusTokens (negative : Prop) [Decidable negative] : List Token :=
  if negative then [.mark '-'] else []

theorem tokens_minus (negative : Prop) [Decidable negative] (cs : List Char) :
    tokens (Text.minus negative ++ cs) = minusTokens negative ++ tokens cs := by
  unfold Text.minus minusTokens
  split
  · exact tokens_mark rfl (by decide)
  · rfl

/-- The sign of a number before its absolute value gives the number. -/
theorem reads_minus {q : ℚ} (h : Reads oo epsilon .operand ts (algebraMap ℚ R |q|)) :
    Reads oo epsilon .operand (minusTokens (q < 0) ++ ts) (algebraMap ℚ R q) := by
  unfold minusTokens
  split
  · rename_i hneg
    rw [abs_of_neg hneg, map_neg] at h
    rw [← neg_neg (algebraMap ℚ R q)]
    exact h.negate
  · rename_i hpos
    rwa [abs_of_nonneg (not_lt.mp hpos)] at h

/-- A number is one run. -/
theorem tokens_decimal {cs : List Char} {q : ℚ} (h : Text.decimal? cs = some q) :
    tokens cs = [.run cs] := by
  refine tokens_run (Text.ne_nil_of_decimal? h) fun c hc => ?_
  rcases Text.isDigit_or_point_of_decimal? h hc with hdigit | rfl
  · exact isRunChar_of_isDigit hdigit
  · rfl

/-- A rational's sign and the decimal of its absolute value. -/
theorem factor_decimal {cs : List Char} {q : ℚ} (h : Text.decimal? cs = some |q|) :
    Factor oo epsilon (tokens (Text.minus (q < 0) ++ cs)) (algebraMap ℚ R q) := by
  rw [tokens_minus, tokens_decimal h]
  exact .of_operand (reads_minus (.number h))

theorem factor_integer (oo epsilon : R) (n : Int) :
    Factor oo epsilon (tokens n.repr.toList) (algebraMap ℚ R n) := by
  have habs : ((n.natAbs : ℕ) : ℚ) = |(n : ℚ)| := by rw [Nat.cast_natAbs, Int.cast_abs]
  have hsign : Text.minus (n < 0) = Text.minus ((n : ℚ) < 0) := by
    simp only [Text.minus, Int.cast_lt_zero]
  rw [Text.toList_repr, hsign]
  exact factor_decimal (habs ▸ Text.decimal?_digits n.natAbs)

theorem factor_rational (oo epsilon : R) (q : ℚ) :
    Factor oo epsilon (tokens (Text.rational q).toList) (algebraMap ℚ R q) := by
  rcases Text.toList_rational q with ⟨places, n, htext, habs⟩ | htext
  · rw [htext]
    exact factor_decimal (habs ▸ Text.decimal?_fixedPoint places n)
  · have hden := Text.decimal?_digits q.den
    have hquotient := (factor_integer oo epsilon q.num).divide hden (Nat.cast_ne_zero.mpr q.den_nz)
    rw [← map_mul, ← div_eq_mul_inv, Rat.num_div_den, Text.toList_repr] at hquotient
    rw [htext, tokens_append _ (breaks_cons rfl), tokens_mark rfl (by decide), tokens_decimal hden]
    simpa only [Rat.num_neg] using hquotient

end SolverValues.Formula

namespace SolverValues.Text

/-- A text reads as one rational only, so no two integers have the same text. -/
theorem repr_injective : Function.Injective Int.repr := by
  intro n m h
  have hn := (Formula.factor_integer (0 : ℚ) 0 n).term.term
  have hm := (Formula.factor_integer (0 : ℚ) 0 m).term.term
  rw [h] at hn
  exact Int.cast_injective (hn.unique hm)

theorem repr_ne_nil (n : Int) : n.repr.toList ≠ [] :=
  (Formula.factor_integer (0 : ℚ) 0 n).ne_nil

theorem rational_injective : Function.Injective rational := by
  intro q r h
  have hq := (Formula.factor_rational (0 : ℚ) 0 q).term.term
  have hr := (Formula.factor_rational (0 : ℚ) 0 r).term.term
  rw [h] at hq
  exact hq.unique hr

theorem rational_ne_nil (q : ℚ) : (rational q).toList ≠ [] :=
  (Formula.factor_rational (0 : ℚ) 0 q).ne_nil

end SolverValues.Text
