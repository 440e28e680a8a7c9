import SolverValues.Proofs.Sampling.Outcome

/-!
The words that sampling takes. A sampled value takes what its parts cost, and a second word for each
length whose first word leaves a carry open.
-/
namespace SolverValues.Sampling

variable {config : Config}

theorem takesSecond_eq_false (h : ∃ e, config.maxLength.toNat + 1 = 2 ^ e) (t : Tape) :
    takesSecond config t = false := by
  rw [takesSecond, takes_drawLength h]
  simp [Tape.skip]

/-- A sampled word takes the words that its parts cost and a second one for some of the lengths, of
which one is drawn for each string and list in it. Where the lengths are as many as a power of two,
and for truth values, a second word is never taken. -/
theorem sampleWord_words_used (config : Config) (k : Kind) (t : Tape) {w : Word} {t' : Tape}
    (h : (sampleWord config k).run.run t = (.ok w, t')) :
    let seconds := (lengthDraws config k t).countP (takesSecond config)
    t'.used = t.used + (w.value.wordCost k + seconds) ∧
    (lengthDraws config k t).length = (w.value.sequences k).length ∧
    seconds ≤ (w.value.sequences k).length ∧
    (∀ s, ((drawLength config).run s).2.used =
      s.used + if takesSecond config s then 2 else 1) ∧
    ((∃ e, config.maxLength.toNat + 1 = 2 ^ e) → seconds = 0) ∧
    ∀ s, ((sample config .bool).run.run s).2.used = s.used + 1 := by
  obtain ⟨-, -, haccount⟩ := account_of_run_sampleWord h
  refine ⟨haccount.used, haccount.length_eq, ?_, ?_, ?_, ?_⟩
  · rw [← haccount.length_eq]
    exact List.countP_le_length
  · intro s
    rw [run_drawLength_snd]
    rfl
  · intro hpower
    rw [List.countP_eq_zero]
    intro s _
    rw [takesSecond_eq_false hpower s]
    exact Bool.false_ne_true
  · intro s
    exact congrArg Tape.used (takes_drawBool s)

/-- One list in a list. The length of the outer list takes a second word, that of the inner does
not. -/
theorem sampleWord_words_used_corrected :
    let t := Tape.start fun i => if i = 0 then 0x55555555 else 0xffffffff
    let k := Kind.list (.list (.int 3))
    let seconds := (lengthDraws ⟨2⟩ k t).countP (takesSecond ⟨2⟩)
    ∃ value t', (sampleWord ⟨2⟩ k).run.run t = (.ok ⟨k, value⟩, t') ∧ t'.used = 5 ∧
      value.wordCost k = 4 ∧ (value.sequences k).length = 2 ∧
      t'.used = t.used + (value.wordCost k + seconds) ∧ seconds ≤ 2 := by
  intro t k seconds
  have hfive : ((sampleWord ⟨2⟩ k).run.run t).2.used = 5 := by decide +kernel
  have hparts : ((sampleWord ⟨2⟩ k).run.run t).1.toOption.map
      (fun w => (w.value.wordCost k, (w.value.sequences k).length)) = some (4, 2) := by
    decide +kernel
  obtain ⟨value, t', hrun⟩ := (exists_run_sampleWord_iff (k := k)).mpr fun _ => Kind.noConfusion
  rw [hrun] at hfive hparts
  obtain ⟨hcost, hlength⟩ := Prod.mk.inj (Option.some.inj hparts)
  obtain ⟨hused, -, hle, -⟩ := sampleWord_words_used ⟨2⟩ k t hrun
  exact ⟨value, t', hrun, hfive, hcost, hlength, hused, hlength ▸ hle⟩

end SolverValues.Sampling
