import SolverValues.Fault
import SolverValues.Text.Decimal

/-!
Reading the displayed name of a built-in kind. Brackets are taken off in pairs from the outside in;
what is left must be a name without brackets, and a failure quotes it.
-/
namespace SolverValues.Kind

/-- A width is a numeral below `2 ^ 64`. -/
def readWidth? (digits : List Char) : Option UInt64 := do
  let n ← Text.numeral? digits
  if h : n < UInt64.size then some (.ofNatLT n h) else none

/-- The built-in kind other than a list with the given name. -/
def readPlain? (name : List Char) : Option Kind :=
  match String.ofList name with
  | "SBool" => some .bool
  | "SInteger" => some .integer
  | "SReal" => some .real
  | "SFloat" => some .float
  | "SDouble" => some .double
  | "SString" => some .string
  | "SChar" => some .char
  | _ =>
    match "SWord".toList.isPrefixOf? name with
    | some digits => (readWidth? digits).map word
    | none => do
      let digits ← "SInt".toList.isPrefixOf? name
      (readWidth? digits).map int

/-- The text between a bracket and its match at the end. -/
def unbracket? : List Char → Option (List Char)
  | '[' :: rest => if rest.getLast? = some ']' then some rest.dropLast else none
  | _ => none

theorem length_lt_of_unbracket? {name inner : List Char} (h : unbracket? name = some inner) :
    inner.length < name.length := by
  unfold unbracket? at h
  split at h
  · split at h
    · cases h
      simp only [List.length_dropLast, List.length_cons]
      omega
    · cases h
  · cases h

/-- Reads a name; on failure gives what is left without the matching outer brackets. -/
def readChars (name : List Char) : Except (List Char) Kind :=
  match _h : unbracket? name with
  | some inner => (readChars inner).map .list
  | none => (readPlain? name).elim (.error name) .ok
termination_by name.length
decreasing_by exact length_lt_of_unbracket? (by assumption)

/-- Reads the displayed name of a built-in kind. -/
def read (name : String) : Except Fault Kind :=
  (readChars name.toList).mapError fun rest => .unknownKind (String.ofList rest)

end SolverValues.Kind
