import SolverValues.Proofs.Extended.Layout
import SolverValues.Proofs.Formula.Factor

/-!
The text of an extended value is a formula for it. In any ring over the rationals, whatever infinity
and epsilon stand for, the text reads as the value of the expression and as nothing else.
-/
namespace SolverValues

/-- The rational that a word stands for, as an unbounded integer or an exact real. -/
def Word.rational? (w : Word) : Option Rat :=
  match w.kind, w.value with
  | .integer, .integer n => some n
  | .real, .real (.exact q) => some q
  | _, _ => none

theorem Word.eq_of_rational? {w : Word} {q : Rat} (h : w.rational? = some q) :
    (∃ n : Int, w = ⟨.integer, .integer n⟩ ∧ q = n) ∨ w = ⟨.real, .real (.exact q)⟩ := by
  obtain ⟨kind, value⟩ := w
  unfold rational? at h
  split at h
  · simp_all
  · simp_all
  · cases h

variable {R : Type*} [CommRing R] [Algebra ℚ R] {oo epsilon : R}

namespace Extended

/-- The value of an expression. An interval has none. -/
def value? (oo epsilon : R) : Extended → Option R
  | .infinity _ => some oo
  | .epsilon _ => some epsilon
  | .word leaf => leaf.rational?.map (algebraMap ℚ R)
  | .interval _ _ => none
  | .sum left right => do return (← left.value? oo epsilon) + (← right.value? oo epsilon)
  | .product left right => do return (← left.value? oo epsilon) * (← right.value? oo epsilon)

def IntervalFree : Extended → Prop
  | .infinity _ | .epsilon _ | .word _ => True
  | .interval _ _ => False
  | .sum left right | .product left right => left.IntervalFree ∧ right.IntervalFree

end Extended

namespace Layout

def Symbol.value (oo epsilon : R) : Symbol → R
  | .infinity => oo
  | .epsilon => epsilon

def Leaf.value? (oo epsilon : R) : Leaf → Option R
  | .symbol false name => some (name.value oo epsilon)
  | .symbol true name => some (-name.value oo epsilon)
  | .word content => content.rational?.map (algebraMap ℚ R)

def Connective.apply : Connective → R → R → R
  | .sum, v, u => v + u
  | .product, v, u => v * u

/-- The value of what a layout shows. -/
def value? (oo epsilon : R) : Layout → Option R
  | .leaf content => content.value? oo epsilon
  | .interval _ _ => none
  | .operation connective left right => do
    return connective.apply (← left.value? oo epsilon) (← right.value? oo epsilon)

open Formula

variable {cs ds : List Char} {l : Leaf} {a left right : Layout} {v u : R}

theorem Symbol.reads (name : Symbol) :
    Reads oo epsilon .operand (tokens name.chars) (name.value oo epsilon) := by
  cases name with
  | infinity => exact .infinity
  | epsilon => exact .epsilon

theorem Leaf.factor (h : l.value? oo epsilon = some v) : Factor oo epsilon (tokens l.chars) v := by
  cases l with
  | symbol negated name =>
    cases negated with
    | false =>
      cases h
      exact .of_operand name.reads
    | true =>
      cases h
      rw [chars, tokens_mark rfl (by decide)]
      exact .of_operand name.reads.negate
  | word content =>
    obtain ⟨q, hq, rfl⟩ := Option.map_eq_some_iff.mp h
    rcases Word.eq_of_rational? hq with ⟨n, rfl, rfl⟩ | rfl
    · exact factor_integer oo epsilon n
    · exact factor_rational oo epsilon q

/-- A sum whose right operand has lost its minus sign is the difference from the opposite. -/
theorem Connective.reads_before (c : Connective) (hleft : Factor oo epsilon (tokens cs) v)
    (hright : Factor oo epsilon (tokens ds) u) :
    Reads oo epsilon .sum (tokens (cs ++ c.before ds)) (c.apply v u) := by
  unfold before
  split
  · rename_i negated
    have hnegated := hright.term
    rw [tokens_mark rfl (by decide)] at hnegated
    have hminus := hleft.term.term.minus (hnegated.of_minus (by simp))
    rw [sub_neg_eq_add] at hminus
    rw [tokens_spaced _ _ rfl (by decide)]
    exact hminus
  · rw [tokens_spaced _ _ rfl (by decide)]
    exact hleft.term.term.plus hright.term
  · rw [tokens_spaced _ _ rfl (by decide)]
    exact (hright.times _ _ hleft.term).term

/-- An operand reads as its value as part of a product, too. -/
theorem reads (h : a.value? oo epsilon = some v) :
    Factor oo epsilon (tokens (a.chars true)) v ∧
      Reads oo epsilon .sum (tokens (a.chars false)) v := by
  induction a generalizing v with
  | leaf l =>
    have hleaf := Leaf.factor h
    exact ⟨hleaf, hleaf.term.term⟩
  | interval lower upper => cases h
  | operation c left right ih ih' =>
    obtain ⟨x, hx, y, hy, rfl⟩ : ∃ x, left.value? oo epsilon = some x ∧
        ∃ y, right.value? oo epsilon = some y ∧ c.apply x y = v := by
      simpa [value?, Option.bind_eq_some_iff] using h
    have hsum := c.reads_before (ih hx).1 (ih' hy).1
    refine ⟨.of_operand ?_, hsum⟩
    have hgroup := hsum.group
    rw [chars, if_pos rfl, tokens_mark rfl (by decide), tokens_append _ (breaks_cons rfl)]
    rwa [tokens_mark rfl (by decide), tokens_nil]

end Layout

namespace Extended

open Formula

variable {k : Kind} {e left right : Extended} {name : Layout.Symbol}

theorem value?_of_isMinusOne (h : e.isMinusOne) : e.value? oo epsilon = some (-1) := by
  unfold isMinusOne at h
  split at h
  · rename_i n
    rw [beq_iff_eq.mp h]
    simp [value?, Word.rational?]
  · rename_i q
    rw [beq_iff_eq.mp h]
    simp [value?, Word.rational?]
  · cases h

theorem value?_of_symbol? (h : e.symbol? = some name) :
    e.value? oo epsilon = some (name.value oo epsilon) := by
  cases e with
  | infinity kind | epsilon kind =>
    cases h
    rfl
  | _ => cases h

/-- A negation has the value of the product that it stands for. -/
theorem value?_layout (e : Extended) : e.layout.value? oo epsilon = e.value? oo epsilon := by
  induction e with
  | infinity kind | epsilon kind | word leaf | interval lower upper => rfl
  | sum left right ih ih' =>
    rw [layout, Layout.value?, value?, ih, ih']
    rfl
  | product left right ih ih' =>
    rw [layout]
    split
    · rename_i name hleft hright
      rw [value?, value?_of_isMinusOne hleft, value?_of_symbol? hright]
      simp [Layout.value?, Layout.Leaf.value?]
    · rw [Layout.value?, value?, ih, ih']
      rfl

theorem exists_value? (hleaves : e.LeavesIn k fun w => w.rational?.isSome) (h : e.IntervalFree) :
    ∃ v, e.value? oo epsilon = some v := by
  induction e with
  | infinity kind | epsilon kind => exact ⟨_, rfl⟩
  | word leaf =>
    obtain ⟨q, hq⟩ := Option.isSome_iff_exists.mp hleaves.2
    exact ⟨algebraMap ℚ R q, by rw [value?, hq]; rfl⟩
  | interval lower upper => exact h.elim
  | sum left right ih ih' =>
    obtain ⟨v, hv⟩ := ih hleaves.1 h.1
    obtain ⟨u, hu⟩ := ih' hleaves.2 h.2
    exact ⟨v + u, by rw [value?, hv, hu]; rfl⟩
  | product left right ih ih' =>
    obtain ⟨v, hv⟩ := ih hleaves.1 h.1
    obtain ⟨u, hu⟩ := ih' hleaves.2 h.2
    exact ⟨v * u, by rw [value?, hv, hu]; rfl⟩

/-- The text of an expression without intervals reads as the expression's value only. -/
theorem reads_render (hleaves : e.LeavesIn k fun w => w.rational?.isSome) (h : e.IntervalFree)
    (oo epsilon : R) :
    ∃ v, e.value? oo epsilon = some v ∧
      ∀ u, Reads oo epsilon .sum (tokens (e.render .bare).toList) u ↔ u = v := by
  obtain ⟨v, hv⟩ : ∃ v, e.value? oo epsilon = some v := exists_value? hleaves h
  have hreads := (Layout.reads ((value?_layout e).trans hv)).2
  rw [← toList_renderAs] at hreads
  refine ⟨v, hv, fun u => ⟨fun hu => hu.unique hreads, ?_⟩⟩
  rintro rfl
  exact hreads

/-- The text `1/3 - epsilon`, where epsilon is two. -/
theorem reads_render_folded :
    Reads (0 : ℚ) 2 .sum (tokens ((sum (word ⟨.real, .real (.exact (1 / 3))⟩)
      (product (word ⟨.real, .real (.exact (-1))⟩) (.epsilon .real))).render .bare).toList)
      (1 / 3 + -1 * 2) := by
  obtain ⟨v, hv, hreads⟩ := reads_render (k := .real) (e := sum (word ⟨.real, .real (.exact (1 / 3))⟩)
    (product (word ⟨.real, .real (.exact (-1))⟩) (.epsilon .real)))
    ⟨⟨rfl, rfl⟩, ⟨rfl, rfl⟩, rfl⟩ ⟨trivial, trivial, trivial⟩ (0 : ℚ) 2
  exact (hreads _).mpr (Option.some.inj hv)

end Extended
end SolverValues
