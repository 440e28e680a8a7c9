import SolverValues.Extended.Text

/-! Results of optimization: a word, or an extended value where no word will do. -/
namespace SolverValues

inductive Optimum where
  | extended (value : Extended)
  | word (word : Word)

namespace Optimum

/-- An extended value that is a single word is that word. -/
def ofExtended : Extended → Optimum
  | .word leaf => .word leaf
  | value => .extended value

def isWord : Optimum → Bool
  | .word _ => true
  | .extended _ => false

def kind : Optimum → Kind
  | .word single => single.kind
  | .extended value => value.kind

instance : BEq Optimum where
  beq
    | .word a, .word b => a == b
    | .extended a, .extended b => a == b
    | _, _ => false

/-- The constructor's number and what it holds. -/
def digest : Optimum → List Atom
  | .extended value => .number 0 :: value.digest
  | .word single => .number 1 :: single.digest

instance : Hashable Optimum := ⟨fun o => hash o.digest⟩

/-- The text of a result. -/
def render (o : Optimum) (style : Style) : String :=
  match o with
  | .word single => single.render style
  | .extended value => value.render style

instance : ToString Optimum := ⟨(render · .bare)⟩

end Optimum
end SolverValues
