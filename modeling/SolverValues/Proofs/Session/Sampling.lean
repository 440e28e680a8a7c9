import SolverValues.Proofs.Log.Note
import SolverValues.Proofs.Sampling.Outcome
import SolverValues.Session.Run

/-!
The log of sampling. It has a line for every string and list of the sampled value, each before what
it holds, and is silent below the verbosity of these lines; the value is the same either way.
-/
namespace SolverValues

variable {k : Kind} {c : Constant} {sequence : Sequence} {sequences : List Sequence}

/-- The line of a sequence in the log. -/
def Sequence.line (sequence : Sequence) : String := "TRACE " ++ sequence.message

theorem newline_notMem_toDigits (n : Nat) : '\n' ∉ Nat.toDigits 10 n := by
  intro hmem
  exact absurd (Nat.isDigit_of_mem_toDigits (by decide) (by decide) hmem) (by decide)

/-- Names of user sorts are any texts, so they are left out. -/
theorem Kind.newline_notMem_name (h : k.hasDistribution) : '\n' ∉ k.name.toList := by
  induction k with
  | list element ih =>
    have helement := ih h
    simp [name, helement]
  | bitVector signed width =>
    have hwidth := newline_notMem_toDigits width.toNat
    cases signed <;> simp [name, baseName, hwidth]
  | user sort => cases h
  | _ => decide

theorem Sequence.lines_event (h : '\n' ∉ sequence.message.toList) :
    sequence.event.lines = [sequence.line] := Log.lines_note h

theorem newline_notMem_message_string (length : Nat) :
    '\n' ∉ (Sequence.string length).message.toList := by
  have htext : '\n' ∉ "sampling a string of length ".toList := by simp
  unfold Sequence.message
  rw [String.toList_append, Nat.toList_repr, List.mem_append, not_or]
  exact ⟨htext, newline_notMem_toDigits length⟩

theorem newline_notMem_message_list (length : Nat) (h : k.hasDistribution) :
    '\n' ∉ (Sequence.list length k).message.toList := by
  have hstart : '\n' ∉ "sampling a list of ".toList := by simp
  have hmiddle : '\n' ∉ " elements of kind ".toList := by simp
  unfold Sequence.message
  rw [String.toList_append, String.toList_append, String.toList_append, Nat.toList_repr]
  simp only [List.mem_append, not_or]
  exact ⟨⟨⟨hstart, newline_notMem_toDigits length⟩, hmiddle⟩, Kind.newline_notMem_name h⟩

theorem newline_notMem_message (h : k.hasDistribution) :
    ∀ sequence ∈ c.sequences k, '\n' ∉ sequence.message.toList := by
  induction k generalizing c with
  | string =>
    cases c with
    | string s =>
      intro sequence hmem
      rw [List.mem_singleton.mp hmem]
      exact newline_notMem_message_string s.length
    | _ => exact fun _ hmem => nomatch hmem
  | list element ih =>
    cases c with
    | list elements =>
      intro sequence hmem
      obtain rfl | hmem := List.mem_cons.mp hmem
      · exact newline_notMem_message_list elements.length h
      · obtain ⟨part, -, hpart⟩ := List.mem_flatMap.mp hmem
        exact ih h sequence hpart
    | _ => exact fun _ hmem => nomatch hmem
  | _ => exact fun _ hmem => nomatch hmem

namespace Session

variable {β : Type}

theorem written_events (h : ∀ sequence ∈ sequences, '\n' ∉ sequence.message.toList)
    (verbosity : UInt8) :
    written verbosity (sequences.map Sequence.event) =
      if 4 ≤ verbosity then sequences.map Sequence.line else [] := by
  have hwritten (sequence : Sequence) : sequence.event.isWritten verbosity = true ↔ 4 ≤ verbosity :=
    Log.isWritten_note
  induction sequences with
  | nil => simp [written]
  | cons sequence rest ih =>
    have hrest := ih fun other hmem => h other (List.mem_cons_of_mem sequence hmem)
    have hlines := Sequence.lines_event (h sequence List.mem_cons_self)
    unfold written at hrest ⊢
    by_cases hverbosity : 4 ≤ verbosity
    · simpa [hwritten, hverbosity, hlines] using hrest
    · simp [hwritten, hverbosity]

theorem step_sample (config : Sampling.Config) (source : Nat → UInt64) (k : Kind) (s : State)
    (keep : Bool) :
    let result := (Sampling.sampleWord config k).run.run (.start source)
    (step s (.sample config source (.known k) keep : Command β)).1 =
      ⟨.ok (.sampled k result.1 result.2.used keep),
        written s.verbosity result.2.events.toList⟩ := rfl

/-- Where a word is sampled, the session answers with it whatever its verbosity, and from 4 on it
writes a line for each string and list in the word's value, each before what it holds, with its
length and the kind of its elements. Below that it writes nothing. -/
theorem step_sample_writes_sequences (config : Sampling.Config) (source : Nat → UInt64) (k : Kind)
    {w : Word} {tape : Sampling.Tape}
    (h : (Sampling.sampleWord config k).run.run (.start source) = (.ok w, tape)) (s : State)
    (keep : Bool) :
    (step s (.sample config source (.known k) keep : Command β)).1 =
      ⟨.ok (.sampled k (.ok w) tape.used keep),
        if 4 ≤ s.verbosity then (w.value.sequences k).map Sequence.line else []⟩ := by
  obtain ⟨hk, -, haccount⟩ := Sampling.account_of_run_sampleWord h
  have hevents : tape.events.toList = (w.value.sequences k).map Sequence.event := haccount.events
  rw [step_sample, h, hevents, written_events (newline_notMem_message hk)]

/-- A list of two strings of two letters, with its lines written and in silence. -/
theorem step_sample_writes_sequences_strings :
    let source : Nat → UInt64 := fun _ => 0xffffff41
    let k := Kind.list .string
    let command : Command Unit := .sample ⟨2⟩ source (.known k) true
    ∃ value tape,
      (Sampling.sampleWord ⟨2⟩ k).run.run (.start source) = (.ok ⟨k, value⟩, tape) ∧
      (step ⟨4, []⟩ command).1 = ⟨.ok (.sampled k (.ok ⟨k, value⟩) tape.used true),
        ["TRACE sampling a list of 2 elements of kind SString",
          "TRACE sampling a string of length 2", "TRACE sampling a string of length 2"]⟩ ∧
      (step ⟨3, []⟩ command).1 = ⟨.ok (.sampled k (.ok ⟨k, value⟩) tape.used true), []⟩ := by
  intro source k command
  have hlines : ((Sampling.sampleWord ⟨2⟩ k).run.run (.start source)).1.toOption.map
      (fun w => (w.value.sequences k).map Sequence.line) =
      some ["TRACE sampling a list of 2 elements of kind SString",
        "TRACE sampling a string of length 2", "TRACE sampling a string of length 2"] := by
    decide +kernel
  obtain ⟨value, tape, hrun⟩ :=
    (Sampling.exists_run_sampleWord_iff (k := k)).mpr fun _ => Kind.noConfusion
  rw [hrun] at hlines
  have hstep := step_sample_writes_sequences (β := Unit) ⟨2⟩ source k hrun
  exact ⟨value, tape, hrun, Option.some.inj hlines ▸ hstep ⟨4, []⟩ true, hstep ⟨3, []⟩ true⟩

end Session
end SolverValues
