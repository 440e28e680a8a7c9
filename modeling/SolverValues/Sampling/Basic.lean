import SolverValues.Sampling.Draw

/-!
Random values of a kind. User sorts have none, and neither have lists of them, whatever their
length; this is found out before a word is drawn.
-/
namespace SolverValues

/-- Are there random values of the kind? -/
def Kind.hasDistribution : Kind → Bool
  | .user _ => false
  | .list element => element.hasDistribution
  | _ => true

namespace Sampling

structure Config where
  /-- The greatest length of strings and lists. -/
  maxLength : UInt64 := 100

abbrev Sampler := ExceptT Fault Draw

/-- A length up to the greatest, which decides how much of each word is read. -/
def drawLength (config : Config) : Draw Nat :=
  let greatest := config.maxLength.toNat
  drawUpTo (if greatest < UInt32.size then UInt32.size else UInt64.size) greatest

/-- The results of doing `act` `count` times. -/
def times [Monad m] (act : m α) : Nat → m (List α)
  | 0 => return []
  | count + 1 => do
    let first ← act
    let rest ← times act count
    return first :: rest

/-- The characters of a random string. -/
def drawString (config : Config) : Draw (List Char) := do
  let length ← drawLength config
  logEvent (Log.note .trace ("sampling a string of length " ++ length.repr))
  times drawChar length

/-- A length for a list of the given elements. -/
def drawListLength (config : Config) (element : Kind) : Draw Nat := do
  let length ← drawLength config
  logEvent (Log.note .trace
    ("sampling a list of " ++ length.repr ++ " elements of kind " ++ element.name))
  return length

/-- A random constant of a kind. -/
def sample (config : Config) : Kind → Sampler Constant
  | .bool => return .integer (Int.ofNat (← drawUpTo UInt32.size 1))
  | .bitVector signed width => return .integer (← drawBitVector signed width.toNat)
  | .integer => return .integer (← drawInt)
  | .real => return .real (.exact (← drawRational))
  | .float => return .float (← drawFloat)
  | .double => return .double (← drawDouble)
  | .char => return .char (← drawChar)
  | .string => return .string (String.ofList (← drawString config))
  | .list element => do
    if element.hasDistribution then
      let length ← drawListLength config element
      return .list (← times (sample config element) length)
    else throw (.noDistribution (.list element))
  | .user sort => throw (.noDistribution (.user sort))

/-- A random word of a kind. It needs no normalization. -/
def sampleWord (config : Config) (kind : Kind) : Sampler Word :=
  return ⟨kind, ← sample config kind⟩

end Sampling
end SolverValues
