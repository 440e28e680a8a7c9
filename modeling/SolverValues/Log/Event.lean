import SolverValues.Text.Quoted

/-!
Log events. An event has a level, which says what kind of message it is, and fields; the field named
`threshold` says how verbose the log must be to show it.
-/
namespace SolverValues.Log

inductive Level where
  | error | warn | info | debug | trace
deriving DecidableEq

/-- The value of a field. -/
inductive Value where
  /-- An integer of 64 bits, signed or unsigned. A wider one is only known by its text. -/
  | number (value : Int)
  | flag (value : Bool)
  | text (value : String)
  /-- A value that is only known by its text. -/
  | shown (text : String)
deriving DecidableEq

/-- An event; its fields are in the order they were recorded. -/
structure Event where
  level : Level
  fields : List (String × Value)
deriving DecidableEq

/-- A threshold that is no number from 0 to 255, as it was supplied. -/
structure InvalidThreshold where
  supplied : String
deriving DecidableEq

def InvalidThreshold.message (t : InvalidThreshold) : String :=
  "invalid threshold value supplied to the logger: " ++ t.supplied

/-- A field value as a threshold. -/
def Value.threshold : Value → Except InvalidThreshold UInt8
  | .number n => if 0 ≤ n ∧ n < 256 then .ok (.ofNat n.toNat) else .error ⟨n.repr⟩
  | .flag b => .error ⟨if b then "true" else "false"⟩
  | .text s => .error ⟨Text.quoted s⟩
  | .shown s => .error ⟨s⟩

/-- The last threshold among fields, if there is one; the first invalid one is an error. -/
def threshold? : List (String × Value) → Except InvalidThreshold (Option UInt8)
  | [] => .ok none
  | (name, value) :: rest => do
    if name = "threshold" then
      let mine ← value.threshold
      let later ← threshold? rest
      return later.orElse fun _ => some mine
    else threshold? rest

/-- The threshold of an event, if it has one. -/
def Event.threshold? (e : Event) : Except InvalidThreshold (Option UInt8) :=
  Log.threshold? e.fields

/-- Is the event written at the given verbosity? One without a threshold always is, one with an
invalid threshold never. -/
def Event.isWritten (verbosity : UInt8) (e : Event) : Bool :=
  match e.threshold? with
  | .ok threshold => threshold.all (· ≤ verbosity)
  | .error _ => false

/-- The verbosity of a log until it is set. -/
def defaultVerbosity : UInt8 := 3

/-- How a message is logged: critical messages are errors with a mark. -/
inductive Severity where
  | critical
  | ordinary (level : Level)
deriving DecidableEq

/-- The event of a message logged at a threshold. -/
def Severity.event (severity : Severity) (threshold : Value) (message : String) : Event :=
  let fields := [("threshold", threshold), ("message", .shown message)]
  match severity with
  | .critical => ⟨.error, ("critical", .flag true) :: fields⟩
  | .ordinary level => ⟨level, fields⟩

/-- The event of a message without a threshold of its own, which is logged at threshold 0. -/
def Severity.plainEvent (severity : Severity) (message : String) : Event :=
  severity.event (.number 0) message

/-- The event of one of this library's own messages, which only a raised verbosity shows. -/
def note (level : Level) (message : String) : Event :=
  (Severity.ordinary level).event (.number 4) message

/-- A result with the events logged on the way, oldest first. -/
structure Logged (α : Type u) where
  result : α
  events : List Event

end SolverValues.Log
