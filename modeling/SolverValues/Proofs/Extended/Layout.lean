import SolverValues.Extended.Text

/-!
Layouts: what the text of an extended value shows. A product that is written as a negation is a leaf
of the layout, and the kinds of infinity and epsilon are not shown.
-/
namespace SolverValues

namespace Layout

inductive Symbol where
  | infinity | epsilon
deriving DecidableEq

/-- A symbol, perhaps with a minus sign, or a word. -/
inductive Leaf where
  | symbol (negated : Bool) (name : Symbol)
  | word (content : Word)

inductive Connective where
  | sum | product

end Layout

open Layout in
/-- What is shown of an extended value. -/
inductive Layout where
  | leaf (content : Leaf)
  | interval (lower upper : Layout)
  | operation (connective : Connective) (left right : Layout)

namespace Layout

def Symbol.chars : Symbol → List Char
  | .infinity => "oo".toList
  | .epsilon => "epsilon".toList

def Leaf.chars : Leaf → List Char
  | .symbol false name => name.chars
  | .symbol true name => '-' :: name.chars
  | .word content => (content.render .bare).toList

/-- The connective and what stands to its right. A sum takes over the minus sign that its right
operand starts with. -/
def Connective.before : Connective → List Char → List Char
  | .sum, '-' :: negated => ' ' :: '-' :: ' ' :: negated
  | .sum, right => ' ' :: '+' :: ' ' :: right
  | .product, right => ' ' :: '*' :: ' ' :: right

/-- The characters of a layout; `nested` where it is an operand. -/
def chars (nested : Bool) : Layout → List Char
  | .leaf content => content.chars
  | .interval lower upper =>
    '[' :: (lower.chars false ++ (" .. ".toList ++ (upper.chars false ++ [']'])))
  | .operation connective left right =>
    let text := left.chars true ++ connective.before (right.chars true)
    if nested then '(' :: (text ++ [')']) else text

/-- All words of a layout satisfy `P`. -/
def Words (P : Word → Prop) : Layout → Prop
  | .leaf (.symbol _ _) => True
  | .leaf (.word content) => P content
  | .interval left right | .operation _ left right => left.Words P ∧ right.Words P

end Layout

namespace Extended

open Layout

/-- All leaves have kind `k`, and all words satisfy `P`. -/
def LeavesIn (k : Kind) (P : Word → Prop) : Extended → Prop
  | .infinity kind | .epsilon kind => kind = k
  | .word content => content.kind = k ∧ P content
  | .interval left right | .sum left right | .product left right =>
    left.LeavesIn k P ∧ right.LeavesIn k P

def symbol? : Extended → Option Symbol
  | .infinity _ => some .infinity
  | .epsilon _ => some .epsilon
  | _ => none

def layout : Extended → Layout
  | .infinity _ => .leaf (.symbol false .infinity)
  | .epsilon _ => .leaf (.symbol false .epsilon)
  | .word content => .leaf (.word content)
  | .interval lower upper => .interval lower.layout upper.layout
  | .sum left right => .operation .sum left.layout right.layout
  | .product left right =>
    match left.isMinusOne, right.symbol? with
    | true, some name => .leaf (.symbol true name)
    | _, _ => .operation .product left.layout right.layout

variable {k : Kind} {P : Word → Prop} {e left right : Extended} {name : Symbol}

theorem words_layout (h : e.LeavesIn k P) :
    e.layout.Words fun content => content.kind = k ∧ P content := by
  induction e with
  | infinity kind | epsilon kind => trivial
  | word content => exact h
  | interval lower upper ih ih' => exact ⟨ih h.1, ih' h.2⟩
  | sum left right ih ih' => exact ⟨ih h.1, ih' h.2⟩
  | product left right ih ih' =>
    rw [layout]
    split
    · trivial
    · exact ⟨ih h.1, ih' h.2⟩

/-- The constant minus one, as far as kind `k` has one. -/
def minusOne (k : Kind) : Word :=
  ⟨k, if k = .real then .real (.exact (-1)) else .integer (-1)⟩

theorem eq_word_of_isMinusOne (h : e.isMinusOne) : e = .word (minusOne e.kind) := by
  unfold isMinusOne at h
  split at h
  · simp_all [minusOne, kind]
  · simp_all [minusOne, kind]
  · cases h

theorem kind_eq (h : e.LeavesIn k P) : e.kind = k := by
  induction e with
  | infinity kind | epsilon kind => exact h
  | word content => exact h.1
  | interval left right ih _ | sum left right ih _ | product left right ih _ => exact ih h.1

theorem negation?_eq_none (h : ∀ name, left.isMinusOne = true → right.symbol? = some name → False) :
    negation? left right = none := by
  cases right with
  | infinity kind => simpa [negation?, symbol?] using h .infinity
  | epsilon kind => simpa [negation?, symbol?] using h .epsilon
  | _ => rfl

theorem negation?_eq_some (h : left.isMinusOne) (h' : right.symbol? = some name) :
    ∃ text, negation? left right = some text ∧ text.toList = '-' :: name.chars := by
  cases right with
  | infinity kind =>
    cases h'
    exact ⟨"-oo", if_pos h, rfl⟩
  | epsilon kind =>
    cases h'
    exact ⟨"-epsilon", if_pos h, rfl⟩
  | _ => cases h'

theorem toList_sumText (left right : String) :
    (sumText left right).toList = left.toList ++ Connective.sum.before right.toList := by
  unfold sumText
  split
  · rename_i negated hright
    simp [hright, Connective.before]
  · rename_i hright
    rw [Connective.before]
    · simp
    · exact hright

/-- The text of an extended value is that of its layout. -/
theorem toList_renderAs (e : Extended) (nested : Bool) :
    (e.renderAs .bare nested).toList = e.layout.chars nested := by
  induction e generalizing nested with
  | infinity kind | epsilon kind | word content => rfl
  | interval lower upper ih ih' =>
    simp [renderAs, annotate, layout, chars, ih, ih']
  | sum left right ih ih' =>
    cases nested <;>
      simp [renderAs, annotate, parenthesize, layout, chars, toList_sumText, ih, ih']
  | product left right ih ih' =>
    rw [layout]
    split
    · rename_i name hleft hright
      obtain ⟨text, htext, hchars⟩ := negation?_eq_some hleft hright
      simp only [renderAs, htext, annotate, hchars, chars, Leaf.chars]
    · rename_i hproduct
      cases nested <;>
        simp [renderAs, negation?_eq_none hproduct, annotate, parenthesize, chars,
          Connective.before, ih, ih']

example : (product (.infinity .integer) (.sum (.word ⟨.integer, .integer 2⟩)
    (.product (.word ⟨.integer, .integer (-1)⟩) (.epsilon .integer)))).render .bare =
      "oo * (2 - epsilon)" := rfl

end Extended
end SolverValues
