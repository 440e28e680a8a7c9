import SolverValues.Log.Line
import SolverValues.Sampling.Basic
import SolverValues.Session.Term
import SolverValues.Word.Lift

/-!
Sessions: steps that share a log's verbosity and the words made so far. A step answers, and writes
those of its events that the verbosity of the moment lets through. The log is in place before the
first step; that the first message logged may have to install it is left out. The events of one step
are let through together, since no step both logs and sets the verbosity.
-/
namespace SolverValues.Session

/-- One step; `β` is what lifts produce. -/
inductive Command (β : Type) where
  | kind (term : KindTerm)
  | kinds (terms : List KindTerm)
  | build (type : Description) (reprint : String → Option String)
  | word (term : WordTerm)
  | words (terms : List WordTerm)
  | lift (handler : Cases β) (term : WordTerm)
  | lift₂ (handler : PairCases β) (left right : WordTerm)
  | map (handler : Transform) (term : WordTerm)
  | map₂ (handler : Combine) (left right : WordTerm)
  | extended (term : ExtendedTerm)
  | extendeds (terms : List ExtendedTerm)
  /-- Samples a word of a kind; `keep` says whether later steps may use it. -/
  | sample (config : Sampling.Config) (source : Nat → UInt64) (term : KindTerm) (keep : Bool)
  | log (event : Log.Event)
  | setVerbosity (verbosity : UInt8)
  | getVerbosity
  /-- A step that is answered without the session. -/
  | outside

/-- What a step answers. -/
inductive Answer (β : Type) where
  | kind (kind : Kind)
  | kinds (kinds : List Kind)
  /-- The outcome of building a user sort, and the texts that were reprinted for it. -/
  | built (outcome : Except Fault Kind) (asked : List String)
  | word (word : Word)
  | words (words : List Word)
  | lifted (result : β)
  | extended (value : Extended)
  | extendeds (values : List Extended)
  /-- The outcome of sampling a word of a kind, and the number of words drawn. -/
  | sampled (kind : Kind) (outcome : Except Fault Word) (used : Nat) (keep : Bool)
  | verbosity (verbosity : UInt8)
  | done

/-- The word that a step keeps for later ones: a single word, made or sampled. -/
def Answer.word? : Answer β → Option Word
  | .word made => some made
  | .sampled _ (.ok made) _ true => some made
  | _ => none

/-- The state between steps. -/
structure State where
  verbosity : UInt8 := Log.defaultVerbosity
  /-- The word of each step, if it made one. -/
  kept : List (Option Word) := []

/-- An event with an invalid threshold is a failure, whatever the verbosity. -/
def logChecked (event : Log.Event) : Eval Unit :=
  match event.threshold? with
  | .ok _ => logAll [event]
  | .error threshold => throw (.invalidThreshold threshold)

/-- The answer to a command. -/
def Command.eval (state : State) : Command β → Eval (Answer β)
  | .kind term => return .kind (← term.eval)
  | .kinds terms => return .kinds (← terms.mapM (·.eval))
  | .build type reprint => do
    let (logged, asked) := (type.build (recording reprint)).run []
    return .built (← take logged) asked
  | .word term => return .word (← term.eval state.kept)
  | .words terms => return .words (← terms.mapM (·.eval state.kept))
  | .lift handler term => return .lifted ((← term.eval state.kept).lift handler)
  | .lift₂ handler left right => do
    let a ← left.eval state.kept
    let b ← right.eval state.kept
    return .lifted (← orFault (← take (a.lift₂ handler b)))
  | .map handler term => do
    let a ← term.eval state.kept
    return .word (← orFault (a.map handler))
  | .map₂ handler left right => do
    let a ← left.eval state.kept
    let b ← right.eval state.kept
    return .word (← orFault (← take (a.map₂ handler b)))
  | .extended term => return .extended (← term.eval state.kept)
  | .extendeds terms => return .extendeds (← terms.mapM (·.eval state.kept))
  | .sample config source term keep => do
    let kind ← term.eval
    let (outcome, tape) := (Sampling.sampleWord config kind).run (.start source)
    logAll tape.events.toList
    return .sampled kind outcome tape.used keep
  | .log event => do
    logChecked event
    return .done
  | .setVerbosity _ => return .done
  | .getVerbosity => return .verbosity state.verbosity
  | .outside => return .done

/-- The verbosity after a command. -/
def Command.verbosityAfter (verbosity : UInt8) : Command β → UInt8
  | .setVerbosity new => new
  | _ => verbosity

/-- What comes out of a step. -/
structure Report (β : Type) where
  answer : Except Failure (Answer β)
  lines : List String

/-- The word that a report's answer holds. -/
def Report.word? (report : Report β) : Option Word :=
  match report.answer with
  | .ok answer => answer.word?
  | .error _ => none

/-- The lines of those events that the verbosity lets through. -/
def written (verbosity : UInt8) (events : List Log.Event) : List String :=
  (events.filter (·.isWritten verbosity)).flatMap (·.lines)

/-- One step. -/
def step (state : State) (command : Command β) : Report β × State :=
  let (answer, events) := (command.eval state).run []
  let report := ⟨answer, written state.verbosity events⟩
  (report, ⟨command.verbosityAfter state.verbosity, state.kept ++ [report.word?]⟩)

/-- All steps of a session. -/
def run (state : State) : List (Command β) → List (Report β)
  | [] => []
  | command :: rest =>
    let (report, next) := step state command
    report :: run next rest

end SolverValues.Session
