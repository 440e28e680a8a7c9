import SolverValues.Fault
import SolverValues.Log.Event

/-!
User sorts from the description of a type. A type is an enumeration if it has constructors, none of
them has fields, and its own reader and printer give back every constructor's name unchanged.
-/
namespace SolverValues

structure Constructor where
  /-- The printed form of its value, if it has no fields. -/
  name : String
  fieldCount : Nat
deriving DecidableEq

/-- A user type: its name and its constructors in declaration order. -/
structure Description where
  name : String
  constructors : List Constructor
deriving DecidableEq

/-- The first name that `reprint` does not give back as it is. No later name is tried. -/
def firstChanged? [Monad m] (reprint : String → m (Option String)) :
    List String → m (Option String)
  | [] => pure none
  | name :: rest => do
    let answer ← reprint name
    if answer = some name then firstChanged? reprint rest else return some name

namespace Description

/-- The shape of the type; `reprint` reads a text as one of its values and prints that value. -/
def shape [Monad m] (d : Description) (reprint : String → m (Option String)) : m Shape :=
  if d.constructors = [] ∨ d.constructors.any (·.fieldCount ≠ 0) then
    return .uninterpreted (d.name ++ " is not a finite non-empty enumeration")
  else do
    let names := d.constructors.map (·.name)
    match ← firstChanged? reprint names with
    | some changed =>
      return .uninterpreted (d.name ++ ": constructor " ++ changed ++ " is not nullary")
    | none => return .enumerated names

/-- Says what a shape was found to be. -/
def finding (d : Description) : Shape → Log.Event
  | .uninterpreted reason => Log.note .debug ("user sort " ++ d.name ++ " is opaque: " ++ reason)
  | .enumerated names =>
    Log.note .debug ("user sort " ++ d.name ++ " is an enumeration of " ++ names.length.repr ++
      " constructors")

/-- The kind of the described type. A reserved name is refused before anything is reprinted. -/
def build [Monad m] (d : Description) (reprint : String → m (Option String)) :
    m (Log.Logged (Except Fault Kind)) :=
  match unreserved : reservedStart? d.name with
  | some start =>
    return ⟨.error (.reservedName d.name start),
      [Log.note .info ("rejected user sort name " ++ d.name ++ ": reserved prefix " ++ start)]⟩
  | none => do
    let shape ← d.shape reprint
    return ⟨.ok (.user ⟨d.name, shape, unreserved⟩), [d.finding shape]⟩

end Description

/-- Answers as `reprint` does and keeps a record of the texts asked about. -/
def recording (reprint : String → Option String) (text : String) :
    StateM (List String) (Option String) := do
  modify (· ++ [text])
  return reprint text

end SolverValues
