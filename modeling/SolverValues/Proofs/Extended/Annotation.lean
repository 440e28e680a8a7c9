import Mathlib.Data.List.Basic
import SolverValues.Optimum
import SolverValues.Proofs.Extended.Leaves

/-!
The typed style. Whatever the shape of an extended value, its typed text is the bare one and one
annotation behind it: the kind of the leftmost leaf. A value that is a single word or is known to be
an extended one is shown alike.
-/
namespace SolverValues.Extended

def isInterval : Extended → Bool
  | .interval .. => true
  | _ => false

/-- What the typed style adds to a text. -/
def annotation (isInterval : Bool) (kind : Kind) : String :=
  " :: " ++ if isInterval then "[" ++ kind.baseName ++ "]" else kind.baseName

theorem annotate_typed (isInterval : Bool) (kind : Kind) (text : String) :
    annotate .typed isInterval kind text =
      annotate .bare isInterval kind text ++ annotation isInterval kind :=
  String.append_assoc

/-- Operands are rendered bare, so the only annotation is the one at the top, where no parentheses
stand around it. -/
theorem render_typed (e : Extended) :
    e.render .typed = e.render .bare ++ annotation e.isInterval e.kind := by
  cases e with
  | infinity kind | epsilon kind => exact annotate_typed _ _ _
  | word leaf => exact String.append_assoc
  | interval lower upper => exact annotate_typed _ _ _
  | sum left right => exact annotate_typed _ _ _
  | product left right =>
    simp only [render, renderAs]
    split
    · exact annotate_typed _ _ _
    · exact annotate_typed _ _ _

theorem render_ofExtended (e : Extended) (style : Style) :
    (Optimum.ofExtended e).render style = e.render style := by
  cases e <;> rfl

theorem kind_ofExtended (e : Extended) : (Optimum.ofExtended e).kind = e.kind := by
  cases e <;> rfl

/-- The typed text of an extended value is the bare text, two colons and the base name of the kind
of the leftmost leaf, an interval's in brackets. As an optimum the value has the same texts and
kind, whether a single word is told apart from other values or not. -/
theorem render_annotates_leftmost (e : Extended) :
    (∃ leftmost, e.leafKinds.head? = some leftmost ∧
      e.render .typed = e.render .bare ++ " :: " ++
        (if e.isInterval then "[" ++ leftmost.baseName ++ "]" else leftmost.baseName)) ∧
    (∀ style, (Optimum.ofExtended e).render style = e.render style ∧
      (Optimum.extended e).render style = e.render style) ∧
    (Optimum.ofExtended e).kind = e.kind ∧ (Optimum.extended e).kind = e.kind := by
  refine ⟨⟨e.kind, head?_leafKinds e, ?_⟩, ?_, kind_ofExtended e, rfl⟩
  · rw [render_typed]
    exact String.append_assoc.symm
  · intro style
    exact ⟨render_ofExtended e style, rfl⟩

/-- The leftmost leaf lies in an interval, but the value is none. -/
example : (sum (.interval (.epsilon .real) (.infinity .integer)) (.infinity .char)).render .typed =
    "[epsilon .. oo] + oo :: Real" := rfl

end SolverValues.Extended
