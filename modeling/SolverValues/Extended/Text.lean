import SolverValues.Extended.Basic

/-!
Extended values as text. A product of minus one with infinity or epsilon is written as a negation,
and adding what starts with a minus sign as subtracting what follows the sign.
-/
namespace SolverValues.Extended

/-- Is the expression the constant minus one, as an unbounded integer or an exact real? -/
def isMinusOne : Extended → Bool
  | .word ⟨.integer, .integer n⟩ => n == -1
  | .word ⟨.real, .real (.exact r)⟩ => r == -1
  | _ => false

/-- The negated symbol that a product stands for, if it does. -/
def negation? (left : Extended) : Extended → Option String
  | .infinity _ => if left.isMinusOne then some "-oo" else none
  | .epsilon _ => if left.isMinusOne then some "-epsilon" else none
  | _ => none

/-- Adds the kind in the typed style; an interval's stands in brackets. -/
def annotate (style : Style) (isInterval : Bool) (kind : Kind) (text : String) : String :=
  match style with
  | .bare => text
  | .typed =>
    text ++ " :: " ++ if isInterval then "[" ++ kind.baseName ++ "]" else kind.baseName

/-- Sums and products inside others stand in parentheses. -/
def parenthesize (nested : Bool) (text : String) : String :=
  if nested then "(" ++ text ++ ")" else text

/-- Two operands with a plus sign, or with the minus sign that the right one starts with. -/
def sumText (left right : String) : String :=
  match right.toList with
  | '-' :: negated => left ++ " - " ++ String.ofList negated
  | _ => left ++ " + " ++ right

/-- The text of an expression; `nested` where it is an operand of a sum or product. -/
def renderAs (style : Style) (nested : Bool) : Extended → String
  | .infinity kind => annotate style false kind "oo"
  | .epsilon kind => annotate style false kind "epsilon"
  | .word leaf => leaf.render style
  | .interval lower upper =>
    annotate style true lower.kind
      ("[" ++ renderAs .bare false lower ++ " .. " ++ renderAs .bare false upper ++ "]")
  | .sum left right =>
    parenthesize nested <| annotate style false left.kind <|
      sumText (renderAs .bare true left) (renderAs .bare true right)
  | .product left right =>
    match negation? left right with
    | some text => annotate style false left.kind text
    | none =>
      parenthesize nested <| annotate style false left.kind <|
        renderAs .bare true left ++ " * " ++ renderAs .bare true right

/-- The text of an expression. -/
def render (e : Extended) (style : Style) : String := e.renderAs style false

instance : ToString Extended := ⟨(render · .bare)⟩

end SolverValues.Extended
