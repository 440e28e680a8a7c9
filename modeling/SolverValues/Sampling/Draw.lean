import SolverValues.Ieee.Rounding
import SolverValues.Log.Event
import SolverValues.Word.Basic

/-!
Draws from a source of 64-bit words. Each draw takes the next words of the source, so what is drawn
depends on nothing but the source and the draws before it.
-/
namespace SolverValues.Sampling

/-- A source of words, how many of them are used, and the events logged so far. -/
structure Tape where
  word : Nat → UInt64
  used : Nat
  events : Array Log.Event

/-- A tape nothing was drawn from. -/
def Tape.start (word : Nat → UInt64) : Tape := ⟨word, 0, #[]⟩

abbrev Draw := StateM Tape

/-- The next word. -/
def drawWord : Draw Nat :=
  modifyGet fun t => ((t.word t.used).toNat, { t with used := t.used + 1 })

/-- The low half of the next word. -/
def drawHalf : Draw Nat := return (← drawWord) % UInt32.size

def logEvent (e : Log.Event) : Draw Unit :=
  modify fun t => { t with events := t.events.push e }

/-- The next `count` words as one number, the first of them lowest. -/
def drawWords : Nat → Draw Nat
  | 0 => return 0
  | count + 1 => do
    let low ← drawWord
    let high ← drawWords count
    return low + UInt64.size * high

/-- A number up to `greatest`, from words read below `base`: the high part of a word times the
number of outcomes. Where the low part could hide a carry, a second word decides. -/
def drawUpTo (base greatest : Nat) : Draw Nat := do
  let count := (greatest + 1) % base
  let x := (← drawWord) % base
  if count = 0 then return x
  else if x * count % base ≤ base - count then return x * count / base
  else do
    let y := (← drawWord) % base
    let carry := if base ≤ x * count % base + y * count / base then 1 else 0
    return x * count / base + carry

/-- Every value of a bit-vector, each equally often. -/
def drawBitVector (signed : Bool) (width : Nat) : Draw Int := do
  if width = 0 then return 0
  else do
    let bits := (← drawWords ((width + 63) / 64)) % Nat.pow 2 width
    return if signed then Int.ofNat bits - Int.ofNat (Nat.pow 2 (width - 1)) else Int.ofNat bits

/-- A word read as a signed number. -/
def drawInt : Draw Int := return wrap true 64 (Int.ofNat (← drawWord))

/-- A signed 64-bit numerator over a denominator from 1 to `2 ^ 32`. -/
def drawRational : Draw Rat := do
  let numerator ← drawInt
  let denominator ← drawHalf
  return mkRat numerator (denominator + 1)

/-- A multiple of `2 ^ -24` below one. -/
def drawFloat : Draw Ieee.Binary32 :=
  return .round _ false ((← drawHalf) / 256) (-24)

/-- A multiple of `2 ^ -53` below one. -/
def drawDouble : Draw Ieee.Binary64 :=
  return .round _ false ((← drawWord) / 2048) (-53)

/-- A character of one byte. -/
def drawChar : Draw Char := return Char.ofNat ((← drawHalf) % 256)

end SolverValues.Sampling
