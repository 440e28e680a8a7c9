import SolverValues.Kind.Reprint
import SolverValues.Proofs.Kind.Building
import SolverValues.Proofs.Kind.Grammar

/-!
Types checked against the reader and printer of kinds. Their constructors are given back just when
they are names of built-in kinds as these are displayed, without superfluous zeros in a width.
-/
namespace SolverValues

variable {text : String}

/-- The displayed name of a kind without user sorts. -/
def Kind.IsDisplayed (text : String) : Prop :=
  ∃ k : Kind, (∀ sort, k.innermost ≠ .user sort) ∧ k.name = text

theorem Kind.isDisplayed_iff_read : IsDisplayed text ↔ ∃ k, read text = .ok k ∧ k.name = text := by
  constructor
  · rintro ⟨k, hk, rfl⟩
    exact ⟨k, read_eq_ok_iff.mpr (readChars_name hk), rfl⟩
  · rintro ⟨k, hread, hname⟩
    obtain ⟨n, head, digits, plain, hspelling, -, rfl⟩ :=
      readChars_eq_ok_iff.mp (read_eq_ok_iff.mp hread)
    refine ⟨_, fun sort => ?_, hname⟩
    rw [innermost_iterate_list]
    exact hspelling.not_user sort

/-- A text that is not a displayed name cannot be read, or is read as a kind with another name. -/
theorem Kind.not_isDisplayed_iff : ¬ IsDisplayed text ↔
    (∃ fault, read text = .error fault) ∨ ∃ k, read text = .ok k ∧ k.name ≠ text := by
  rw [isDisplayed_iff_read]
  cases read text <;> simp

theorem Kind.isDisplayed_iff_spelled : IsDisplayed text ↔ ∃ n head digits plain,
    Spelling head digits plain ∧ Text.significant digits = digits ∧
      text.toList = bracketed n (head ++ digits) := by
  rw [isDisplayed_iff_read]
  constructor
  · rintro ⟨k, hread, hname⟩
    obtain ⟨n, head, digits, plain, hspelling, htext, rfl⟩ :=
      readChars_eq_ok_iff.mp (read_eq_ok_iff.mp hread)
    refine ⟨n, head, digits, plain, hspelling, ?_, htext⟩
    rw [← hname, name_iterate_list, hspelling.name] at htext
    simpa [bracketed] using htext
  · rintro ⟨n, head, digits, plain, hspelling, hdigits, htext⟩
    have hread := readChars_eq_ok_iff.mpr ⟨n, head, digits, plain, hspelling, htext, rfl⟩
    refine ⟨_, read_eq_ok_iff.mpr hread, String.toList_inj.mp ?_⟩
    rw [name_iterate_list, hspelling.name, hdigits, htext]

theorem reprint_kind_eq_self_iff : reprint Kind text = some text ↔ Kind.IsDisplayed text := by
  have hreprint : reprint Kind text = (Kind.read text).toOption.map Kind.name := rfl
  rw [Kind.isDisplayed_iff_read, hreprint]
  cases Kind.read text <;> simp [Except.toOption]

/-- A type with a free name, checked against kinds, is an enumeration just if it has constructors,
none of them has fields, and all are displayed names of kinds without user sorts, which have any
number of brackets in pairs and no superfluous zeros. Any other type is uninterpreted. If fields are
not the reason, the reason names the first constructor that is no such name, whether this cannot be
read or is displayed in another way. -/
theorem Description.build_enumerates_displayed (d : Description)
    (hfree : ∀ start ∈ reservedStarts, ¬ start.toList <+: d.name.toList) :
    ∃ sort, (d.build (m := Id) (reprint Kind)).result = .ok (.user sort) ∧ sort.name = d.name ∧
      ((∃ names, sort.shape = .enumerated names) ↔
        d.IsNullary ∧ ∀ name ∈ d.constructorNames, Kind.IsDisplayed name) ∧
      ((∃ reason, sort.shape = .uninterpreted reason) ↔
        ¬ (d.IsNullary ∧ ∀ name ∈ d.constructorNames, Kind.IsDisplayed name)) ∧
      (∀ before changed after, d.IsNullary → d.constructorNames = before ++ changed :: after →
        (∀ name ∈ before, Kind.IsDisplayed name) → ¬ Kind.IsDisplayed changed →
        sort.shape = .uninterpreted (d.name ++ ": constructor " ++ changed ++ " is not nullary") ∧
        ((∃ fault, Kind.read changed = .error fault) ∨
          ∃ k, Kind.read changed = .ok k ∧ k.name ≠ changed)) ∧
      ∀ name ∈ d.constructorNames, Kind.IsDisplayed name ↔ ∃ n head digits plain,
        Kind.Spelling head digits plain ∧ Text.significant digits = digits ∧
          name.toList = Kind.bracketed n (head ++ digits) := by
  have hnone := reservedStart?_eq_none.mpr hfree
  obtain ⟨sort, hsort, hname, hshape⟩ := exists_sort (reprint Kind) hnone
  have henumerated : (∃ names, sort.shape = .enumerated names) ↔
      d.IsNullary ∧ ∀ name ∈ d.constructorNames, Kind.IsDisplayed name := by
    simp [hshape, reprint_kind_eq_self_iff]
  refine ⟨sort, (d.outcome_eq_build _).symm.trans hsort, hname, henumerated, ?_, ?_, ?_⟩
  · rw [← henumerated]
    cases sort.shape <;> simp
  · intro before changed after hnullary hnames hkept hchanged
    have hbefore : ∀ name ∈ before, reprint Kind name = some name :=
      fun name hmem => reprint_kind_eq_self_iff.mpr (hkept name hmem)
    have hout := outcome_of_changed hnone hnullary hnames hbefore
      (mt reprint_kind_eq_self_iff.mp hchanged)
    cases hsort.symm.trans hout.1
    exact ⟨rfl, Kind.not_isDisplayed_iff.mp hchanged⟩
  · exact fun name _ => Kind.isDisplayed_iff_spelled

/-- Lists of lists are among the names. A width with a zero in front is read, but it is found before
the text that is not read. -/
theorem Description.build_enumerates_displayed_zeros :
    (∃ sort, ((⟨"Sorts", [⟨"[[SInt8]]", 0⟩, ⟨"SBool", 0⟩]⟩ : Description).build
        (m := Id) (reprint Kind)).result = .ok (.user sort) ∧
      ∃ names, sort.shape = .enumerated names) ∧
    ∃ sort, ((⟨"Sorts", [⟨"SBool", 0⟩, ⟨"[SWord08]", 0⟩, ⟨"Other", 0⟩]⟩ : Description).build
        (m := Id) (reprint Kind)).result = .ok (.user sort) ∧
      sort.shape = .uninterpreted "Sorts: constructor [SWord08] is not nullary" := by
  have hfree : ∀ start ∈ reservedStarts, ¬ start.toList <+: "Sorts".toList := by decide
  have hbool : Kind.IsDisplayed "SBool" := ⟨.bool, by simp [Kind.innermost], rfl⟩
  have hlists : Kind.IsDisplayed "[[SInt8]]" :=
    ⟨.list (.list (.int 8)), by simp [Kind.innermost], rfl⟩
  have hzeros : ¬ Kind.IsDisplayed "[SWord08]" := by
    have hdigits : ∀ c ∈ "08".toList, c.isDigit := List.all_eq_true.mp rfl
    have hspelling : Kind.Spelling "SWord".toList "08".toList (.word 8) :=
      .word (by decide) hdigits rfl
    refine Kind.not_isDisplayed_iff.mpr (.inr ⟨.list (.word 8), ?_, by decide⟩)
    exact Kind.read_eq_ok_iff.mpr (Kind.readChars_eq_ok_iff.mpr ⟨1, _, _, _, hspelling, rfl, rfl⟩)
  constructor
  · obtain ⟨sort, hsort, -, henumerated, -⟩ := build_enumerates_displayed
      ⟨"Sorts", [⟨"[[SInt8]]", 0⟩, ⟨"SBool", 0⟩]⟩ hfree
    exact ⟨sort, hsort, henumerated.mpr (by simp [IsNullary, constructorNames, hbool, hlists])⟩
  · obtain ⟨sort, hsort, -, -, -, hchanged, -⟩ := build_enumerates_displayed
      ⟨"Sorts", [⟨"SBool", 0⟩, ⟨"[SWord08]", 0⟩, ⟨"Other", 0⟩]⟩ hfree
    exact ⟨sort, hsort, (hchanged ["SBool"] _ ["Other"] (by simp [IsNullary]) rfl
      (by simpa using hbool) hzeros).1⟩

end SolverValues
