import SolverValues.Session.Run

/-!
Sessions taken apart. A session is one of its starts followed by the rest from the state in between,
and that state holds the last verbosity set and one entry for each step.
-/
namespace SolverValues.Session

variable {β : Type}

/-- The state after all steps of a session. -/
def final (s : State) (commands : List (Command β)) : State :=
  commands.foldl (fun s command => (step s command).2) s

/-- The verbosity that a command sets. -/
def Command.setting? : Command β → Option UInt8
  | .setVerbosity verbosity => some verbosity
  | _ => none

/-- The verbosity that commands set last, or `verbosity` if they set none. -/
def lastSetting (verbosity : UInt8) (commands : List (Command β)) : UInt8 :=
  (commands.filterMap Command.setting?).getLast?.getD verbosity

theorem run_cons (s : State) (command : Command β) (rest : List (Command β)) :
    run s (command :: rest) = (step s command).1 :: run (step s command).2 rest := rfl

theorem final_cons (s : State) (command : Command β) (rest : List (Command β)) :
    final s (command :: rest) = final (step s command).2 rest := rfl

theorem run_append (s : State) (before after : List (Command β)) :
    run s (before ++ after) = run s before ++ run (final s before) after := by
  induction before generalizing s with
  | nil => rfl
  | cons command before ih =>
    rw [List.cons_append, run_cons, run_cons, final_cons, ih, List.cons_append]

theorem Command.verbosityAfter_eq (verbosity : UInt8) (command : Command β) :
    command.verbosityAfter verbosity = command.setting?.getD verbosity := by
  cases command <;> rfl

theorem verbosity_final (s : State) (commands : List (Command β)) :
    (final s commands).verbosity = lastSetting s.verbosity commands := by
  induction commands generalizing s with
  | nil => rfl
  | cons command rest ih =>
    have hstep : (step s command).2.verbosity = command.setting?.getD s.verbosity :=
      command.verbosityAfter_eq s.verbosity
    rw [final_cons, ih, hstep]
    cases h : command.setting? <;> simp [lastSetting, h, List.getLast?_cons]

/-- A state keeps one entry for each step, and it is the word of that step's report, if any. -/
theorem kept_final (s : State) (commands : List (Command β)) :
    (final s commands).kept = s.kept ++ (run s commands).map Report.word? := by
  induction commands generalizing s with
  | nil => simp [final, run]
  | cons command rest ih =>
    have hstep : (step s command).2.kept = s.kept ++ [(step s command).1.word?] := rfl
    rw [final_cons, ih, hstep, run_cons, List.map_cons, List.append_assoc, List.singleton_append]

end SolverValues.Session
