import SolverValues.Kind.Description
import SolverValues.Kind.Reader
import SolverValues.Extended.Basic

/-!
Terms for kinds, words and optimization results, as the steps of a session write them. Evaluating a
term can fail and can log; events logged before a failure stay logged.
-/
namespace SolverValues.Session

/-- Why a step has no answer. -/
inductive Failure where
  | fault (fault : Fault)
  | invalidThreshold (threshold : Log.InvalidThreshold)
  /-- The step named made no word. -/
  | noWord (step : Nat)
deriving DecidableEq

/-- A computation that collects events, oldest first, and can fail. -/
abbrev Eval := ExceptT Failure (StateM (List Log.Event))

/-- Fails with a fault. -/
def orFault : Except Fault α → Eval α
  | .ok result => return result
  | .error fault => throw (.fault fault)

/-- Logs events. -/
def logAll (events : List Log.Event) : Eval Unit := modify (· ++ events)

/-- Logs what was logged on the way to a result and takes the result. -/
def take (logged : Log.Logged α) : Eval α := do
  logAll logged.events
  return logged.result

/-- A kind: one at hand, a list, the meaning of a name, or the kind of a described type. -/
inductive KindTerm where
  | known (kind : Kind)
  | list (element : KindTerm)
  | named (name : String)
  | described (type : Description) (reprint : String → Option String)

def KindTerm.eval : KindTerm → Eval Kind
  | .known kind => return kind
  | .list element => return .list (← element.eval)
  | .named name => orFault (Kind.read name)
  | .described type reprint => do orFault (← take (type.build (m := Id) reprint))

/-- A word: a truth value, a constant of a kind as it is or normalized, the word of an integral
literal, another word normalized, or the word that an earlier step made. -/
inductive WordTerm where
  | truth (value : Bool)
  | raw (kind : KindTerm) (value : Constant)
  | make (kind : KindTerm) (value : Constant)
  | literal (kind : KindTerm) (n : Int)
  | normalized (word : WordTerm)
  | kept (step : Nat)

/-- The kind of a word is evaluated before anything else of it; `kept` are the words made so far, by
step. -/
def WordTerm.eval (kept : List (Option Word)) : WordTerm → Eval Word
  | .truth value => return .ofBool value
  | .raw kind value => return ⟨← kind.eval, value⟩
  | .make kind value => return .make (← kind.eval) value
  | .literal kind n => do orFault (Word.ofInt (← kind.eval) n)
  | .normalized word => return (← word.eval kept).normalize
  | .kept step =>
    match kept[step]? with
    | some (some word) => return word
    | _ => throw (.noWord step)

/-- An expression over words, infinity and epsilon. -/
inductive ExtendedTerm where
  | infinity (kind : KindTerm)
  | epsilon (kind : KindTerm)
  | word (word : WordTerm)
  | interval (lower upper : ExtendedTerm)
  | sum (left right : ExtendedTerm)
  | product (left right : ExtendedTerm)

/-- Operands are evaluated from left to right. -/
def ExtendedTerm.eval (kept : List (Option Word)) : ExtendedTerm → Eval Extended
  | .infinity kind => return .infinity (← kind.eval)
  | .epsilon kind => return .epsilon (← kind.eval)
  | .word leaf => return .word (← leaf.eval kept)
  | .interval lower upper => return .interval (← lower.eval kept) (← upper.eval kept)
  | .sum left right => return .sum (← left.eval kept) (← right.eval kept)
  | .product left right => return .product (← left.eval kept) (← right.eval kept)

end SolverValues.Session
