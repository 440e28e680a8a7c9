/-!
Kinds: the logical sorts of values. A user sort is known by its name, which never starts like the
name of a built-in kind, so no text can name both.
-/
namespace SolverValues

/-- The starts of names that built-in kinds keep for themselves, in the order they are tried. -/
def reservedStarts : List String :=
  ["SBool", "SWord", "SInt", "SInteger", "SReal", "SFloat", "SDouble", "SString", "SChar", "["]

/-- The first reserved start of a name. -/
def reservedStart? (name : String) : Option String :=
  reservedStarts.find? fun start => start.toList.isPrefixOf name.toList

/-- What is known about a user sort. -/
inductive Shape where
  /-- Nothing but its values' names; the text says why it is no enumeration. -/
  | uninterpreted (reason : String)
  /-- Its constructors, in declaration order. -/
  | enumerated (constructors : List String)
deriving DecidableEq, Hashable

/-- Uninterpreted shapes come first, by reason; enumerations by their constructors in turn. -/
protected def Shape.compare : Shape → Shape → Ordering
  | .uninterpreted a, .uninterpreted b => compare a b
  | .uninterpreted _, .enumerated _ => .lt
  | .enumerated _, .uninterpreted _ => .gt
  | .enumerated a, .enumerated b => compare a b

instance : Ord Shape := ⟨Shape.compare⟩

/-- A sort defined by the user. -/
structure UserSort where
  name : String
  shape : Shape
  unreserved : reservedStart? name = none
deriving DecidableEq

instance : Hashable UserSort where
  hash s := mixHash (hash s.name) (hash s.shape)

/-- By name, then by shape. -/
instance : Ord UserSort where
  compare a b := (compare a.name b.name).then (compare a.shape b.shape)

/-- The logical sort of a value. -/
inductive Kind where
  | bool
  | bitVector (signed : Bool) (width : UInt64)
  /-- Unbounded integers. -/
  | integer
  | real
  /-- Single-precision floating point. -/
  | float
  /-- Double-precision floating point. -/
  | double
  | char
  | string
  | list (element : Kind)
  | user (sort : UserSort)
deriving DecidableEq, Hashable

/-- What the kinds of one constructor have in common. -/
inductive Family where
  | boolean | bitVector | integer | real | float | double | char | string | list | userSort
deriving DecidableEq

namespace Kind

/-- Unsigned bit-vectors. -/
abbrev word (width : UInt64) : Kind := .bitVector false width

/-- Signed bit-vectors. -/
abbrev int (width : UInt64) : Kind := .bitVector true width

def family : Kind → Family
  | .bool => .boolean
  | .bitVector .. => .bitVector
  | .integer => .integer
  | .real => .real
  | .float => .float
  | .double => .double
  | .char => .char
  | .string => .string
  | .list _ => .list
  | .user _ => .userSort

/-- The position of a kind among those of other families. -/
def rank : Kind → Nat
  | .bool => 0
  | .bitVector .. => 1
  | .integer => 2
  | .real => 3
  | .float => 4
  | .double => 5
  | .char => 6
  | .string => 7
  | .list _ => 8
  | .user _ => 9

/-- By family first; bit-vectors by sign and width, lists by element, user sorts as such. -/
protected def compare : Kind → Kind → Ordering
  | .bitVector s w, .bitVector s' w' => (compare s s').then (compare w w')
  | .list a, .list b => a.compare b
  | .user a, .user b => compare a b
  | a, b => compare a.rank b.rank

instance : Ord Kind := ⟨Kind.compare⟩

/-- The kind of the elements of a list's innermost lists; any other kind is its own. -/
def innermost : Kind → Kind
  | .list element => element.innermost
  | kind => kind

end Kind
end SolverValues
