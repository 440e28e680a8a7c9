import SolverValues.Proofs.Log.Threshold
import SolverValues.Proofs.Session.Run

/-!
The log of a session. A step writes those of its events that the verbosity set last lets through, in
their order, and an event that is refused for its threshold leaves no trace but the failure.
-/
namespace SolverValues.Session

variable {β : Type} {s : State} {e : Log.Event}

/-- The events of a step, written or not, oldest first. -/
def Command.events (s : State) (command : Command β) : List Log.Event :=
  ((command.eval s).run []).2

theorem eval_log_of_ok {threshold : Option UInt8} (h : e.threshold? = .ok threshold) :
    ((Command.log e : Command β).eval s).run [] = (.ok .done, [e]) := by
  simp only [Command.eval, logChecked, h]
  rfl

theorem eval_log_of_error {threshold : Log.InvalidThreshold} (h : e.threshold? = .error threshold) :
    ((Command.log e : Command β).eval s).run [] = (.error (.invalidThreshold threshold), []) := by
  simp only [Command.eval, logChecked, h]
  rfl

theorem events_log_of_ok {threshold : Option UInt8} (h : e.threshold? = .ok threshold) :
    (Command.log e : Command β).events s = [e] := by
  rw [Command.events, eval_log_of_ok h]

/-- An event with an invalid threshold changes as much as a step outside of the session. -/
theorem step_log_of_error {threshold : Log.InvalidThreshold} (h : e.threshold? = .error threshold) :
    step s (.log e : Command β) =
      (⟨.error (.invalidThreshold threshold), []⟩, (step s (.outside : Command β)).2) := by
  rw [step, eval_log_of_error h]
  rfl

/-- After any steps from the start, a step writes those of its events, in order, that the verbosity
set last lets through: those with a threshold of at most the verbosity, and those without one. The
text is the same whatever the threshold. An event with an invalid threshold is refused, and all goes
on as if a step outside of the session stood in its place. -/
theorem run_writes_by_threshold (before : List (Command β)) :
    let s := final {} before
    let verbosity := lastSetting Log.defaultVerbosity before
    (∀ command after,
      run {} (before ++ command :: after) =
        run {} before ++ (step s command).1 :: run (step s command).2 after ∧
      (step s command).1.lines =
        ((command.events s).filter (·.isWritten verbosity)).flatMap (·.lines)) ∧
    (∀ (e : Log.Event) (t : Int), e.thresholds = [.number t] → 0 ≤ t ∧ t < 256 →
      (Command.log e : Command β).events s = [e] ∧
      (e.isWritten verbosity = true ↔ t ≤ verbosity.toNat)) ∧
    (∀ e : Log.Event, e.thresholds = [] →
      (Command.log e : Command β).events s = [e] ∧ e.isWritten verbosity = true) ∧
    (∀ (severity : Log.Severity) (v : Log.Value) (message : String),
      (severity.event v message).thresholds = [v] ∧
      (severity.plainEvent message).thresholds = [.number 0]) ∧
    (∀ e : Log.Event, e.lines ≠ [] ∧
      ∀ e' : Log.Event, e.level = e'.level → e.content = e'.content → e.lines = e'.lines) ∧
    ∀ (e : Log.Event) (v : Log.Value), e.thresholds = [v] → ¬ v.InRange → ∀ after, ∃ later,
      run {} (before ++ .log e :: after) =
        run {} before ++ ⟨.error (.invalidThreshold ⟨v.show⟩), []⟩ :: later ∧
      run {} (before ++ .outside :: after) = run {} before ++ ⟨.ok .done, []⟩ :: later ∧
      (final {} (before ++ [.log e])).verbosity = verbosity := by
  intro s verbosity
  have hverbosity : s.verbosity = verbosity := verbosity_final {} before
  refine ⟨?_, ?_, ?_, ?_, ?_, ?_⟩
  · intro command after
    refine ⟨run_append {} before (command :: after), ?_⟩
    rw [← hverbosity]
    rfl
  · intro e t he ht
    exact ⟨events_log_of_ok (Log.Event.threshold?_of_number he ht), Log.Event.isWritten_iff he ht⟩
  · intro e he
    exact ⟨events_log_of_ok (Log.Event.threshold?_of_nil he), Log.Event.isWritten_of_nil he⟩
  · intro severity v message
    exact ⟨severity.thresholds_event v message, severity.thresholds_event _ message⟩
  · intro e
    exact ⟨e.lines_ne_nil, fun e' hlevel hcontent => Log.Event.lines_congr hlevel hcontent⟩
  · intro e v he hv after
    have hstep := step_log_of_error (β := β) (s := s) (Log.Event.threshold?_of_not_inRange he hv)
    refine ⟨run (step s .outside).2 after, ?_, run_append {} before (.outside :: after), ?_⟩
    · rw [run_append, run_cons, hstep]
    · rw [verbosity_final]
      simp [lastSetting, Command.setting?, verbosity]

/-- The verbosity is raised to 5 and a threshold of 256 is refused before messages at 5, at 6 and at
none. -/
theorem run_writes_by_threshold_refused :
    let message (threshold : Log.Value) : Log.Event :=
      (Log.Severity.ordinary .info).event threshold "built"
    let before : List (Command Unit) := [.setVerbosity 5, .log (message (.number 256))]
    (run {} (before ++ [.log (message (.number 5)), .log (message (.number 6)),
      .log ⟨.warn, [("size", .number 6)]⟩])).map Report.lines =
        [[], [], [" INFO built"], [], [" WARN size=6 "]] ∧
    ((message (.number 5)).isWritten (lastSetting Log.defaultVerbosity before) = true ↔
      (5 : Int) ≤ 5) ∧
    (Log.Event.isWritten (lastSetting Log.defaultVerbosity before)
      ⟨.warn, [("size", .number 6)]⟩) = true ∧
    ∃ later, run {} (before ++ [.log (message (.text "6"))]) =
      run {} before ++ ⟨.error (.invalidThreshold ⟨"\"6\""⟩), []⟩ :: later := by
  intro message before
  obtain ⟨_, hwritten, hnone, _, _, hrefused⟩ := run_writes_by_threshold before
  refine ⟨by decide +kernel, (hwritten _ 5 rfl (by decide)).2, (hnone _ rfl).2, ?_⟩
  have hshow : (Log.Value.text "6").show = "\"6\"" := by decide +kernel
  obtain ⟨later, hrun, _⟩ := hrefused (message (.text "6")) (.text "6") rfl (by decide) []
  exact ⟨later, hshow ▸ hrun⟩

end SolverValues.Session
