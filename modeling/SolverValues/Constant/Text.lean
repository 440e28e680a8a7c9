import SolverValues.Constant.Basic
import SolverValues.Ieee.Shortest
import SolverValues.ReportedReal.Text
import SolverValues.Text.Quoted

/-! Constants as literals of a kind. The kind tells truth values from other integers. -/
namespace SolverValues

/-- The kind at which a list of the given kind shows its elements. -/
def Kind.elementKind : Kind → Kind
  | .list element => element
  | kind => kind

namespace Constant

mutual

/-- The literal of a constant at a kind; `hidden` characters are written by their code. -/
def literal (hidden : Char → Bool) : Kind → Constant → String
  | .bool, .integer n => if n = 0 then "False" else "True"
  | _, .integer n => n.repr
  | _, .real r => r.text
  | _, .float x => x.text
  | _, .double x => x.text
  | _, .char c => Text.enclose hidden '\x27' [c]
  | _, .string s => Text.enclose hidden '"' s.toList
  | kind, .list elements =>
    "[" ++ Text.join ", " (literals hidden kind.elementKind elements) ++ "]"
  | _, .user _ name => name

def literals (hidden : Char → Bool) (kind : Kind) : List Constant → List String
  | [] => []
  | c :: cs => literal hidden kind c :: literals hidden kind cs

end

/-- The literal of a constant at a kind. -/
def text (kind : Kind) (c : Constant) : String := c.literal Text.unprintable kind

end Constant
end SolverValues
