import Mathlib.Algebra.Algebra.Basic
import Mathlib.Tactic.Ring
import SolverValues.Proofs.Formula.Tokens
import SolverValues.Proofs.Text.Decimal

/-!
Formulas in infix form over rationals, infinity and epsilon, which stand for any two elements of an
algebra over the rationals. No text reads as two different elements.
-/
namespace SolverValues.Formula

/-- Products are made of operands, and sums of products. -/
inductive Level where
  | operand | term | sum

variable {R : Type*} [CommRing R] [Algebra ℚ R] {oo epsilon : R}

/-- The element of the ring that tokens read as, where a term or an operand is expected or a sum may
stand. Operations of one level are done from left to right. -/
inductive Reads (oo epsilon : R) : Level → List Token → R → Prop where
  | number {cs : List Char} {q : ℚ} (hq : Text.decimal? cs = some q) :
    Reads oo epsilon .operand [.run cs] (algebraMap ℚ R q)
  | infinity : Reads oo epsilon .operand [.run "oo".toList] oo
  | epsilon : Reads oo epsilon .operand [.run "epsilon".toList] epsilon
  | group {ts : List Token} {v : R} (h : Reads oo epsilon .sum ts v) :
    Reads oo epsilon .operand (.mark '(' :: (ts ++ [.mark ')'])) v
  | negate {ts : List Token} {v : R} (h : Reads oo epsilon .operand ts v) :
    Reads oo epsilon .operand (.mark '-' :: ts) (-v)
  | operand {ts : List Token} {v : R} (h : Reads oo epsilon .operand ts v) :
    Reads oo epsilon .term ts v
  | times {ts us : List Token} {v u : R} (h : Reads oo epsilon .term ts v)
      (h' : Reads oo epsilon .operand us u) :
    Reads oo epsilon .term (ts ++ .mark '*' :: us) (v * u)
  | divide {ts : List Token} {v : R} {cs : List Char} {q : ℚ} (h : Reads oo epsilon .term ts v)
      (hq : Text.decimal? cs = some q) (hne : q ≠ 0) :
    Reads oo epsilon .term (ts ++ [.mark '/', .run cs]) (v * algebraMap ℚ R q⁻¹)
  | term {ts : List Token} {v : R} (h : Reads oo epsilon .term ts v) : Reads oo epsilon .sum ts v
  | plus {ts us : List Token} {v u : R} (h : Reads oo epsilon .sum ts v)
      (h' : Reads oo epsilon .term us u) :
    Reads oo epsilon .sum (ts ++ .mark '+' :: us) (v + u)
  | minus {ts us : List Token} {v u : R} (h : Reads oo epsilon .sum ts v)
      (h' : Reads oo epsilon .term us u) :
    Reads oo epsilon .sum (ts ++ .mark '-' :: us) (v - u)

/-- What a calculator waits for. -/
inductive Phase where
  | operand | operator | divisor

/-- A calculator keeps the sum of the terms that are complete and the product of the factors of the
term it is in. It keeps both for each parenthesis that is still open, too. -/
structure Calculator (R : Type*) where
  phase : Phase
  sum : R
  product : R
  outer : List (R × R)

/-- The element that a run of characters stands for. -/
def runValue? (oo epsilon : R) (cs : List Char) : Option R :=
  if cs = "oo".toList then some oo
  else if cs = "epsilon".toList then some epsilon
  else (Text.decimal? cs).map (algebraMap ℚ R)

namespace Calculator

/-- The sum in the innermost parenthesis becomes a factor outside it. -/
def close (s : Calculator R) : Option (Calculator R) :=
  match s.outer with
  | [] => none
  | (sum, product) :: outer => some ⟨.operator, sum, product * (s.sum + s.product), outer⟩

def step (oo epsilon : R) (s : Calculator R) (t : Token) : Option (Calculator R) :=
  match s.phase, t with
  | .operand, .run cs => (runValue? oo epsilon cs).map fun v =>
    { s with phase := .operator, product := s.product * v }
  | .operand, .mark '-' => some { s with product := -s.product }
  | .operand, .mark '(' => some ⟨.operand, 0, 1, (s.sum, s.product) :: s.outer⟩
  | .operator, .mark ')' => s.close
  | .operator, .mark '*' => some { s with phase := .operand }
  | .operator, .mark '/' => some { s with phase := .divisor }
  | .operator, .mark '+' => some ⟨.operand, s.sum + s.product, 1, s.outer⟩
  | .operator, .mark '-' => some ⟨.operand, s.sum + s.product, -1, s.outer⟩
  | .divisor, .run cs => (Text.decimal? cs).map fun q =>
    { s with phase := .operator, product := s.product * algebraMap ℚ R q⁻¹ }
  | _, _ => none

end Calculator

/-- The calculator goes from `s` to `s'` by taking the tokens. -/
def Calculates (oo epsilon : R) (ts : List Token) (s s' : Calculator R) : Prop :=
  ts.foldlM (Calculator.step oo epsilon) s = some s'

/-- What a calculator makes of tokens that read as `v` at a level, wherever it meets them. -/
def Computes (oo epsilon : R) (ts : List Token) (v : R) : Level → Prop
  | .operand | .term => ∀ sum product outer, Calculates oo epsilon ts
      ⟨.operand, sum, product, outer⟩ ⟨.operator, sum, product * v, outer⟩
  | .sum => ∀ outer, ∃ sum product, sum + product = v ∧ Calculates oo epsilon ts
      ⟨.operand, 0, 1, outer⟩ ⟨.operator, sum, product, outer⟩

theorem Calculates.append {ts us : List Token} {s s' s'' : Calculator R}
    (h : Calculates oo epsilon ts s s') (h' : Calculates oo epsilon us s' s'') :
    Calculates oo epsilon (ts ++ us) s s'' := by
  rw [Calculates, List.foldlM_append, h]
  exact h'

theorem Calculates.cons {t : Token} {ts : List Token} {s s' s'' : Calculator R}
    (h : Calculator.step oo epsilon s t = some s') (h' : Calculates oo epsilon ts s' s'') :
    Calculates oo epsilon (t :: ts) s s'' := by
  rw [Calculates, List.foldlM_cons, h]
  exact h'

theorem Calculates.nil (s : Calculator R) : Calculates oo epsilon [] s s := rfl

theorem runValue?_of_decimal? {cs : List Char} {q : ℚ} (h : Text.decimal? cs = some q) :
    runValue? oo epsilon cs = some (algebraMap ℚ R q) := by
  have hoo : cs ≠ "oo".toList := by
    rintro rfl
    cases h
  have hepsilon : cs ≠ "epsilon".toList := by
    rintro rfl
    cases h
  rw [runValue?, if_neg hoo, if_neg hepsilon, h]
  rfl

theorem Reads.computes {level : Level} {ts : List Token} {v : R}
    (h : Reads oo epsilon level ts v) : Computes oo epsilon ts v level := by
  induction h with
  | number hq =>
    intro sum product outer
    refine .cons ?_ (.nil _)
    simp only [Calculator.step, runValue?_of_decimal? hq, Option.map_some]
  | infinity =>
    intro sum product outer
    exact .cons rfl (.nil _)
  | epsilon =>
    intro sum product outer
    exact .cons rfl (.nil _)
  | group h ih =>
    intro sum product outer
    obtain ⟨sum', product', rfl, hinner⟩ := ih ((sum, product) :: outer)
    exact .cons rfl (hinner.append (.cons rfl (.nil _)))
  | @negate ts v h ih =>
    intro sum product outer
    have hnegated := ih sum (-product) outer
    rw [neg_mul, ← mul_neg] at hnegated
    exact .cons rfl hnegated
  | operand h ih => exact ih
  | @times ts us v u h h' ih ih' =>
    intro sum product outer
    have hright := ih' sum (product * v) outer
    rw [mul_assoc] at hright
    exact (ih sum product outer).append (.cons rfl hright)
  | divide h hq hne ih =>
    intro sum product outer
    refine (ih sum product outer).append (.cons rfl (.cons ?_ (.nil _)))
    simp only [Calculator.step, hq, Option.map_some, mul_assoc]
  | @term ts v h ih =>
    intro outer
    have hterm := ih 0 1 outer
    rw [one_mul] at hterm
    exact ⟨0, v, zero_add v, hterm⟩
  | plus h h' ih ih' =>
    intro outer
    obtain ⟨sum, product, rfl, hleft⟩ := ih outer
    have hright := ih' (sum + product) 1 outer
    rw [one_mul] at hright
    exact ⟨_, _, rfl, hleft.append (.cons rfl hright)⟩
  | minus h h' ih ih' =>
    intro outer
    obtain ⟨sum, product, rfl, hleft⟩ := ih outer
    have hright := ih' (sum + product) (-1) outer
    rw [neg_one_mul] at hright
    exact ⟨_, _, (sub_eq_add_neg _ _).symm, hleft.append (.cons rfl hright)⟩

/-- No tokens read as two different elements. -/
theorem Reads.unique {ts : List Token} {v u : R} (h : Reads oo epsilon .sum ts v)
    (h' : Reads oo epsilon .sum ts u) : v = u := by
  obtain ⟨sum, product, rfl, hv⟩ := h.computes []
  obtain ⟨sum', product', rfl, hu⟩ := h'.computes []
  have heq := Option.some.inj (hv.symm.trans hu)
  simp only [Calculator.mk.injEq, true_and, and_true] at heq
  rw [heq.1, heq.2]

end SolverValues.Formula
