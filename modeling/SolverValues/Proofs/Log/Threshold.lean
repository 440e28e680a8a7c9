import SolverValues.Log.Line

/-!
Thresholds of events. Which events a log writes depends on the values recorded as thresholds and on
nothing else, and the text of an event depends on everything else.
-/
namespace SolverValues.Log

/-- Is the value a number that can be a threshold? -/
def Value.InRange : Value → Prop
  | .number n => 0 ≤ n ∧ n < 256
  | _ => False

instance : DecidablePred Value.InRange
  | .number n => inferInstanceAs (Decidable (0 ≤ n ∧ n < 256))
  | .flag _ | .text _ | .shown _ => .isFalse id

/-- The values recorded as thresholds. -/
def thresholds (fields : List (String × Value)) : List Value :=
  (fields.filter (·.1 = "threshold")).map (·.2)

def Event.thresholds (e : Event) : List Value := Log.thresholds e.fields

/-- The fields that say more than how verbose the log must be. -/
def Event.content (e : Event) : List (String × Value) := e.fields.filter (·.1 ≠ "threshold")

variable {e e' : Event} {v : Value} {t : Int} {verbosity : UInt8}

theorem Value.threshold_number (h : (number t).InRange) :
    (number t).threshold = .ok (.ofNat t.toNat) := if_pos h

theorem Value.threshold_of_not_inRange (h : ¬ v.InRange) : v.threshold = .error ⟨v.show⟩ := by
  cases v with
  | number n => exact if_neg h
  | _ => rfl

/-- All recorded thresholds have to be valid, and the last one counts. -/
theorem threshold?_eq (fields : List (String × Value)) :
    threshold? fields = List.getLast? <$> (thresholds fields).mapM Value.threshold := by
  induction fields with
  | nil => rfl
  | cons field fields ih =>
    obtain ⟨name, value⟩ := field
    by_cases h : name = "threshold"
    · subst h
      have hrest : thresholds (("threshold", value) :: fields) = value :: thresholds fields := rfl
      rw [threshold?, if_pos rfl, ih, hrest, List.mapM_cons]
      cases value.threshold with
      | error invalid => rfl
      | ok mine =>
        cases (thresholds fields).mapM Value.threshold with
        | error invalid => rfl
        | ok later =>
          cases later.getLast? <;> simp [List.getLast?_cons]
    · simpa [threshold?, thresholds, h] using ih

theorem Event.threshold?_of_nil (h : e.thresholds = []) : e.threshold? = .ok none := by
  rw [threshold?, threshold?_eq, ← thresholds, h]
  rfl

theorem Event.threshold?_of_singleton (h : e.thresholds = [v]) :
    e.threshold? = some <$> v.threshold := by
  rw [threshold?, threshold?_eq, ← thresholds, h]
  cases h : v.threshold <;> simp [h]

theorem Event.threshold?_of_number (h : e.thresholds = [.number t])
    (ht : (Value.number t).InRange) : e.threshold? = .ok (some (.ofNat t.toNat)) := by
  rw [threshold?_of_singleton h, Value.threshold_number ht]
  rfl

theorem Event.threshold?_of_not_inRange (h : e.thresholds = [v]) (hv : ¬ v.InRange) :
    e.threshold? = .error ⟨v.show⟩ := by
  rw [threshold?_of_singleton h, Value.threshold_of_not_inRange hv]
  rfl

theorem Event.isWritten_of_nil (h : e.thresholds = []) : e.isWritten verbosity = true := by
  rw [isWritten, threshold?_of_nil h]
  rfl

theorem Event.isWritten_iff (h : e.thresholds = [.number t]) (ht : (Value.number t).InRange) :
    e.isWritten verbosity = true ↔ t ≤ verbosity.toNat := by
  rw [isWritten, threshold?_of_number h ht]
  obtain ⟨hnonneg, hlt⟩ := ht
  change decide (UInt8.ofNat t.toNat ≤ verbosity) = true ↔ _
  have hmod : t.toNat % 2 ^ 8 = t.toNat := Nat.mod_eq_of_lt (by omega)
  rw [decide_eq_true_iff, UInt8.le_iff_toNat_le, UInt8.toNat_ofNat', hmod]
  omega

theorem fieldText_threshold (v : Value) : fieldText ("threshold", v) = "" := rfl

theorem join_fieldText (fields : List (String × Value)) :
    String.join (fields.map fieldText) =
      String.join ((fields.filter (·.1 ≠ "threshold")).map fieldText) := by
  induction fields with
  | nil => rfl
  | cons field fields ih =>
    obtain ⟨name, value⟩ := field
    by_cases h : name = "threshold"
    · subst h
      simpa [fieldText_threshold] using ih
    · simpa [h] using ih

theorem splitLines_ne_nil (cs : List Char) : splitLines cs ≠ [] := by
  fun_cases splitLines cs <;> exact List.cons_ne_nil _ _

theorem Event.lines_ne_nil (e : Event) : e.lines ≠ [] := by
  simpa [lines] using splitLines_ne_nil e.text.toList

theorem Event.lines_congr (hlevel : e.level = e'.level) (hcontent : e.content = e'.content) :
    e.lines = e'.lines := by
  have htext : e.text = e'.text := by
    rw [text, text, join_fieldText, join_fieldText e'.fields, hlevel, ← content, ← content, hcontent]
  rw [lines, lines, htext]

theorem Severity.thresholds_event (severity : Severity) (v : Value) (message : String) :
    (severity.event v message).thresholds = [v] := by
  cases severity <;> rfl

end SolverValues.Log
