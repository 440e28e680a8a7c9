import SolverValues.Kind.Basic

/-! The three names of a kind: the displayed one, its base, and the sort in a solver query. -/
namespace SolverValues.Kind

/-- The displayed name without the leading `S` of built-in kinds. -/
def baseName : Kind → String
  | .bool => "Bool"
  | .bitVector false width => "Word" ++ width.toNat.repr
  | .bitVector true width => "Int" ++ width.toNat.repr
  | .integer => "Integer"
  | .real => "Real"
  | .float => "Float"
  | .double => "Double"
  | .char => "Char"
  | .string => "String"
  | .list element => "[" ++ element.baseName ++ "]"
  | .user sort => sort.name

/-- The displayed name. -/
def name : Kind → String
  | .list element => "[" ++ element.name ++ "]"
  | .user sort => sort.name
  | kind => "S" ++ kind.baseName

instance : ToString Kind := ⟨name⟩

/-- The sort as written in a solver query. Signs are not part of it, and characters are bytes. -/
def wireName : Kind → String
  | .bool => "Bool"
  | .bitVector _ width => "(_ BitVec " ++ width.toNat.repr ++ ")"
  | .integer => "Int"
  | .real => "Real"
  | .float => "(_ FloatingPoint 8 24)"
  | .double => "(_ FloatingPoint 11 53)"
  | .char => "(_ BitVec 8)"
  | .string => "String"
  | .list element => "(Seq " ++ element.wireName ++ ")"
  | .user sort => sort.name

end SolverValues.Kind
