import Mathlib.Data.List.Flatten
import Mathlib.Data.List.Forall2
import SolverValues.Proofs.Session.Log
import SolverValues.Proofs.Word.Expression

/-!
Sessions that differ in how verbose they are. Their steps answer alike, but for the question how
verbose the session is, and they keep the same words and log the same events. A session that is at
least as verbose at every event writes all lines of the other one in their order.
-/
namespace SolverValues

theorem Log.Event.isWritten_mono {e : Log.Event} {v v' : UInt8} (hv : v ≤ v')
    (h : e.isWritten v) : e.isWritten v' := by
  unfold isWritten at h ⊢
  cases hthreshold : e.threshold? with
  | error invalid => simp [hthreshold] at h
  | ok threshold =>
    cases threshold with
    | none => rfl
    | some t =>
      simp only [hthreshold, Option.all_some, decide_eq_true_eq] at h ⊢
      exact UInt8.le_trans h hv

namespace Session

variable {β : Type} {s s' : State} {command command' : Command β}
  {commands commands' : List (Command β)}

/-- The commands are the same, or both set the verbosity. -/
inductive Command.SameButSetting : Command β → Command β → Prop where
  | same (command : Command β) : SameButSetting command command
  | setting (v v' : UInt8) : SameButSetting (.setVerbosity v) (.setVerbosity v')

/-- The events of a session, written or not, each with the verbosity that it meets. -/
def trace (s : State) : List (Command β) → List (UInt8 × Log.Event)
  | [] => []
  | command :: rest =>
    (command.events s).map (s.verbosity, ·) ++ trace (step s command).2 rest

/-- No command but the question for the verbosity looks at it. -/
theorem Command.SameButSetting.eval_eq (h : SameButSetting command command')
    (hkept : s.kept = s'.kept) (hne : command ≠ .getVerbosity) :
    command.eval s = command'.eval s' := by
  obtain ⟨v, kept⟩ := s
  obtain ⟨v', kept'⟩ := s'
  subst hkept
  cases h with
  | setting u u' => rfl
  | same =>
    cases command with
    | getVerbosity => exact (hne rfl).elim
    | _ => rfl

theorem Command.SameButSetting.events_eq (h : SameButSetting command command')
    (hkept : s.kept = s'.kept) : command.events s = command'.events s' := by
  by_cases hne : command = .getVerbosity
  · subst hne
    cases h
    rfl
  · rw [events, events, h.eval_eq hkept hne]

theorem Command.SameButSetting.answer_eq (h : SameButSetting command command')
    (hkept : s.kept = s'.kept) (hne : command ≠ .getVerbosity) :
    (step s command).1.answer = (step s' command').1.answer := by
  change ((command.eval s).run []).1 = ((command'.eval s').run []).1
  rw [h.eval_eq hkept hne]

/-- The verbosity is no word, so the question for it keeps none whatever the answer. -/
theorem Command.SameButSetting.kept_eq (h : SameButSetting command command')
    (hkept : s.kept = s'.kept) : (step s command).2.kept = (step s' command').2.kept := by
  have hword : (step s command).1.word? = (step s' command').1.word? := by
    by_cases hne : command = .getVerbosity
    · subst hne
      cases h
      rfl
    · rw [Report.word?, Report.word?, h.answer_eq hkept hne]
  change s.kept ++ [(step s command).1.word?] = s'.kept ++ [(step s' command').1.word?]
  rw [hkept, hword]

theorem kept_final_eq (h : List.Forall₂ Command.SameButSetting commands commands')
    (hkept : s.kept = s'.kept) : (final s commands).kept = (final s' commands').kept := by
  induction h generalizing s s' with
  | nil => exact hkept
  | cons hcommand _ ih => exact ih (hcommand.kept_eq hkept)

theorem events_trace_eq (h : List.Forall₂ Command.SameButSetting commands commands')
    (hkept : s.kept = s'.kept) :
    (trace s commands).map (·.2) = (trace s' commands').map (·.2) := by
  induction h generalizing s s' with
  | nil => rfl
  | cons hcommand _ ih =>
    have hrest := ih (hcommand.kept_eq hkept)
    simp [trace, hcommand.events_eq hkept, hrest]

theorem run_getElem? (s : State) (commands : List (Command β)) (i : Nat) :
    (run s commands)[i]? =
      commands[i]?.map fun command => (step (final s (commands.take i)) command).1 := by
  induction commands generalizing s i with
  | nil => rfl
  | cons command rest ih =>
    cases i with
    | zero => rfl
    | succ i =>
      rw [run_cons, List.getElem?_cons_succ, List.getElem?_cons_succ, List.take_succ_cons,
        final_cons]
      exact ih (step s command).2 i

theorem run_getVerbosity {i : Nat} (h : commands[i]? = some .getVerbosity) :
    (run s commands)[i]?.map Report.answer =
      some (.ok (.verbosity (lastSetting s.verbosity (commands.take i)))) := by
  rw [run_getElem?, h, ← verbosity_final]
  rfl

theorem sameButSetting_getElem? {i : Nat}
    (h : List.Forall₂ Command.SameButSetting commands commands')
    (hcommand : commands[i]? = some command) :
    ∃ command', commands'[i]? = some command' ∧ command.SameButSetting command' := by
  obtain ⟨hlength, hget⟩ := List.forall₂_iff_get.mp h
  obtain ⟨hi, rfl⟩ := List.getElem?_eq_some_iff.mp hcommand
  have hi' : i < commands'.length := hlength ▸ hi
  exact ⟨commands'[i], List.getElem?_eq_getElem hi', hget i hi hi'⟩

/-- A step without events writes nothing at any verbosity. -/
theorem written_sublist {v v' : UInt8} {events : List Log.Event} (h : ∀ e ∈ events, v ≤ v') :
    (written v events).Sublist (written v' events) := by
  cases events with
  | nil => exact .slnil
  | cons e events =>
    have hv : v ≤ v' := h e List.mem_cons_self
    apply List.Sublist.flatMap
    apply List.monotone_filter_right
    intro e he
    exact e.isWritten_mono hv he

theorem lines_sublist (h : List.Forall₂ Command.SameButSetting commands commands')
    (hkept : s.kept = s'.kept)
    (hle : ∀ x ∈ (trace s commands).zip (trace s' commands'), x.1.1 ≤ x.2.1) :
    List.Forall₂ (fun report report' => report.lines.Sublist report'.lines)
      (run s commands) (run s' commands') := by
  induction h generalizing s s' with
  | nil => exact .nil
  | @cons command command' rest rest' hcommand _ ih =>
    have hevents := hcommand.events_eq hkept
    rw [trace, trace, hevents, List.zip_append (by simp), List.zip_map'] at hle
    have hfirst : ∀ e ∈ command'.events s', s.verbosity ≤ s'.verbosity := fun e he =>
      hle _ (List.mem_append_left _ (List.mem_map_of_mem he))
    refine .cons ?_ (ih (hcommand.kept_eq hkept) fun x hx => hle x (List.mem_append_right _ hx))
    change (written s.verbosity (command.events s)).Sublist
      (written s'.verbosity (command'.events s'))
    rw [hevents]
    exact written_sublist hfirst

theorem flatMap_lines_sublist {reports reports' : List (Report β)}
    (h : List.Forall₂ (fun report report' => report.lines.Sublist report'.lines)
      reports reports') :
    (reports.flatMap Report.lines).Sublist (reports'.flatMap Report.lines) := by
  induction h with
  | nil => exact .slnil
  | cons hreport _ ih => exact hreport.append ih

/-- Two sessions that differ in the verbosities set answer every step alike, failures and the number
of words drawn included, except for the question for the verbosity, which is answered by the last
setting. Before every step they keep the same words, and they log the same events. Where one is at
most as verbose as the other at each event, the lines of its steps are among the other's. -/
theorem verbosity_decides_lines_only (hkept : s.kept = s'.kept)
    (h : List.Forall₂ Command.SameButSetting commands commands') :
    (∀ (i : Nat) (command : Command β), commands[i]? = some command → command ≠ .getVerbosity →
      ∃ answer, (run s commands)[i]?.map Report.answer = some answer ∧
        (run s' commands')[i]?.map Report.answer = some answer) ∧
    (∀ i : Nat, commands[i]? = some Command.getVerbosity →
      (run s commands)[i]?.map Report.answer =
        some (.ok (.verbosity (lastSetting s.verbosity (commands.take i)))) ∧
      (run s' commands')[i]?.map Report.answer =
        some (.ok (.verbosity (lastSetting s'.verbosity (commands'.take i))))) ∧
    (∀ i, (final s (commands.take i)).kept = (final s' (commands'.take i)).kept) ∧
    (trace s commands).map (·.2) = (trace s' commands').map (·.2) ∧
    ((∀ x ∈ (trace s commands).zip (trace s' commands'), x.1.1 ≤ x.2.1) →
      List.Forall₂ (fun report report' => report.lines.Sublist report'.lines)
        (run s commands) (run s' commands') ∧
      ((run s commands).flatMap Report.lines).Sublist
        ((run s' commands').flatMap Report.lines)) := by
  have hstart (i : Nat) : (final s (commands.take i)).kept = (final s' (commands'.take i)).kept :=
    kept_final_eq (List.forall₂_take i h) hkept
  refine ⟨?_, ?_, hstart, events_trace_eq h hkept, ?_⟩
  · intro i command hcommand hne
    obtain ⟨command', hcommand', hsame⟩ := sameButSetting_getElem? h hcommand
    refine ⟨(step (final s (commands.take i)) command).1.answer, ?_, ?_⟩
    · rw [run_getElem?, hcommand]
      rfl
    · rw [run_getElem?, hcommand', hsame.answer_eq (hstart i) hne]
      rfl
  · intro i hcommand
    obtain ⟨command', hcommand', hsame⟩ := sameButSetting_getElem? h hcommand
    cases hsame
    exact ⟨run_getVerbosity hcommand, run_getVerbosity hcommand'⟩
  · intro hle
    have hlines := lines_sublist h hkept hle
    exact ⟨hlines, flatMap_lines_sublist hlines⟩

/-- A session that builds a sort, fails to add words of two kinds, samples a list of lists and is
refused a threshold, once in silence and once with its notes written. -/
theorem verbosity_decides_lines_only_notes :
    let steps (verbosity : UInt8) : List (Command Unit) :=
      [.build ⟨"Color", [⟨"Red", 0⟩]⟩ some,
        .setVerbosity verbosity,
        .map₂ (default : Operator.add.Handler).combine (.truth true)
          (.make (.known (.int 8)) (.integer 300)),
        .sample ⟨1⟩ (fun n => if n = 0 then 0xffffffff else 0) (.known (.list (.list .bool))) true,
        .log ⟨.info, [("threshold", .number 256)]⟩,
        .getVerbosity]
    (run {} (steps 3)).flatMap Report.lines = [] ∧
    (run {} (steps 5)).flatMap Report.lines =
      ["TRACE binary map rejected integer value against integer value",
        "TRACE sampling a list of 1 elements of kind [SBool]",
        "TRACE sampling a list of 0 elements of kind SBool"] ∧
    ((run {} (steps 3)).flatMap Report.lines).Sublist ((run {} (steps 5)).flatMap Report.lines) ∧
    ∃ answer, (run {} (steps 3))[3]?.map Report.answer = some answer ∧
      (run {} (steps 5))[3]?.map Report.answer = some answer := by
  intro steps
  have hsame : List.Forall₂ Command.SameButSetting (steps 3) (steps 5) :=
    .cons (.same _) (.cons (.setting 3 5) (.cons (.same _) (.cons (.same _) (.cons (.same _)
      (.cons (.same _) .nil)))))
  have hkept : ({} : State).kept = ({} : State).kept := rfl
  obtain ⟨hanswer, -, -, -, hlines⟩ := verbosity_decides_lines_only hkept hsame
  refine ⟨by decide +kernel, by decide +kernel, (hlines (by decide +kernel)).2, ?_⟩
  exact hanswer 3 _ rfl (by simp)

end Session
end SolverValues
