import SolverValues.Proofs.Log.Threshold

/-!
The library's own messages. One without a newline in it is one line, which shows the level and the
message as it is, from a verbosity of 4 on.
-/
namespace SolverValues.Log

variable {level : Level} {message : String} {verbosity : UInt8}

theorem splitLines_eq_singleton {cs : List Char} (h : '\n' ∉ cs) : splitLines cs = [cs] := by
  fun_induction splitLines cs with
  | case1 => rfl
  | case2 rest => exact (h List.mem_cons_self).elim
  | case3 c rest hc hnil ih => exact (splitLines_ne_nil rest hnil).elim
  | case4 c rest line lines hc hlines ih =>
    rw [ih fun hmem => h (List.mem_cons_of_mem c hmem)] at hlines
    cases hlines
    rfl

theorem text_note (level : Level) (message : String) :
    (note level message).text = level.label ++ " " ++ message := by
  have hfields : (note level message).fields.map fieldText = ["", message] := rfl
  have hjoin : String.join ["", message] = message := by simp [String.join]
  rw [Event.text, hfields, hjoin]
  rfl

theorem lines_note (h : '\n' ∉ message.toList) :
    (note level message).lines = [level.label ++ " " ++ message] := by
  have hlabel : '\n' ∉ level.label.toList := by cases level <;> decide
  rw [Event.lines, text_note, splitLines_eq_singleton]
  · rw [List.map_singleton, String.ofList_toList]
  · simp [hlabel, h]

theorem isWritten_note : (note level message).isWritten verbosity = true ↔ 4 ≤ verbosity := by
  have hthresholds := (Severity.ordinary level).thresholds_event (.number 4) message
  rw [note, Event.isWritten_iff hthresholds (by decide), UInt8.le_iff_toNat_le]
  exact Int.ofNat_le

end SolverValues.Log
