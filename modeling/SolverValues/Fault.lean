import SolverValues.Kind.Names
import SolverValues.Text.Quoted

/-! What can go wrong. Every fault is a mistake of the caller and says so in one line. -/
namespace SolverValues

/-- The operations that are not defined for all kinds. -/
inductive Operation where
  | bitWidth | truthValue | elementwiseMap | binaryLift | binaryMap
deriving DecidableEq

def Operation.name : Operation → String
  | .bitWidth => "bit width"
  | .truthValue => "conversion to bool"
  | .elementwiseMap => "element-wise map"
  | .binaryLift => "binary lift"
  | .binaryMap => "binary map"

inductive Fault where
  /-- The text is what is left of a name without its matching outer brackets. -/
  | unknownKind (text : String)
  /-- A user sort's name starts like a built-in kind's. -/
  | reservedName (name start : String)
  | noIntegralLiteral (kind : Kind)
  | unsupported (operation : Operation) (kind : Kind)
  | mismatched (operation : Operation) (left right : Kind)
  | noDistribution (kind : Kind)
deriving DecidableEq

def Fault.message : Fault → String
  | .unknownKind text =>
    "construction error: " ++ Text.quoted text ++ " is not the name of a built-in kind"
  | .reservedName name start =>
    "construction error: user sort name " ++ name ++
      " collides with the reserved sort name prefix " ++ start
  | .noIntegralLiteral kind =>
    "construction error: kind " ++ kind.name ++ " cannot be constructed from an integral literal"
  | .unsupported operation kind =>
    "unsupported operation: " ++ operation.name ++ " is not defined for kind " ++ kind.name
  | .mismatched operation left right =>
    "mismatched kinds: " ++ operation.name ++ " applied to " ++ left.name ++ " and " ++ right.name
  | .noDistribution kind =>
    "unsupported random generation: no random values are defined for kind " ++ kind.name

end SolverValues
