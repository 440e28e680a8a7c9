import SolverValues.Proofs.Sampling.Account

/-!
When sampling fails. What is innermost in a kind decides whether it has random values, before
anything is drawn; once a word is drawn, no element of any list can fail.
-/
namespace SolverValues

variable {k : Kind}

theorem Kind.hasDistribution_iff : k.hasDistribution = true ↔ ∀ sort, k.innermost ≠ .user sort := by
  induction k with
  | list element ih => exact ih
  | _ => simp [hasDistribution, innermost]

theorem Kind.hasDistribution_eq_false_iff :
    k.hasDistribution = false ↔ ∃ sort, k.innermost = .user sort := by
  rw [← Bool.not_eq_true, hasDistribution_iff]
  simp

namespace Sampling

variable {config : Config} {t t' : Tape} {c : Constant} {fault : Fault} {w : Word}

/-- The whole kind is to blame, not the part of it that has no random values. -/
theorem run_sample_of_not_hasDistribution (h : k.hasDistribution = false) (t : Tape) :
    (sample config k).run.run t = (.error (.noDistribution k), t) := by
  cases k with
  | list element =>
    have helement : ¬ element.hasDistribution = true := by simpa [Kind.hasDistribution] using h
    rw [sample, if_neg helement]
    rfl
  | user sort => rfl
  | _ => cases h

theorem run_sampleWord_of_ok (h : (sample config k).run.run t = (.ok c, t')) :
    (sampleWord config k).run.run t = (.ok ⟨k, c⟩, t') := by
  rw [sampleWord, run_bind_ok h]
  rfl

theorem run_sampleWord_of_error (h : (sample config k).run.run t = (.error fault, t')) :
    (sampleWord config k).run.run t = (.error fault, t') := by
  rw [sampleWord, ExceptT.run_bind, run_bind, h]
  rfl

/-- A word that is sampled has the kind asked for, and its value accounts for what is used. -/
theorem account_of_run_sampleWord (h : (sampleWord config k).run.run t = (.ok w, t')) :
    k.hasDistribution ∧ w.kind = k ∧ Account config (lengthDraws config k t)
      (w.value.wordCost k) (w.value.sequences k) t t' := by
  cases hk : k.hasDistribution with
  | false =>
    rw [run_sampleWord_of_error (run_sample_of_not_hasDistribution hk t)] at h
    cases h
  | true =>
    obtain ⟨c, next, hc, haccount⟩ := @exists_run_sample config k hk t
    rw [run_sampleWord_of_ok hc] at h
    cases h
    exact ⟨rfl, rfl, haccount⟩

theorem run_sampleWord_eq_error_iff : (sampleWord config k).run.run t = (.error fault, t') ↔
    (∃ sort, k.innermost = .user sort) ∧ fault = .noDistribution k ∧ t' = t := by
  constructor
  · intro h
    cases hk : k.hasDistribution with
    | false =>
      rw [run_sampleWord_of_error (run_sample_of_not_hasDistribution hk t)] at h
      cases h
      exact ⟨Kind.hasDistribution_eq_false_iff.mp hk, rfl, rfl⟩
    | true =>
      obtain ⟨c, next, hc, -⟩ := @exists_run_sample config k hk t
      rw [run_sampleWord_of_ok hc] at h
      cases h
  · rintro ⟨huser, rfl, rfl⟩
    have hk := Kind.hasDistribution_eq_false_iff.mpr huser
    exact run_sampleWord_of_error (run_sample_of_not_hasDistribution hk t')

theorem exists_run_sampleWord_iff : (∃ c t', (sampleWord config k).run.run t = (.ok ⟨k, c⟩, t')) ↔
    ∀ sort, k.innermost ≠ .user sort := by
  rw [← Kind.hasDistribution_iff]
  constructor
  · rintro ⟨c, t', h⟩
    exact (account_of_run_sampleWord h).1
  · intro hk
    obtain ⟨c, t', hc, -⟩ := @exists_run_sample config k hk t
    exact ⟨c, t', run_sampleWord_of_ok hc⟩

/-- Sampling fails for just those kinds that have a user sort innermost, whatever the length bound
and the source. It then names the kind asked for, and nothing is drawn or logged. Values of all
other kinds are sampled, and as many of them in turn as a list may need. -/
theorem sampleWord_fails_iff_user (config : Config) (k : Kind) (t : Tape) :
    (∀ fault t', (sampleWord config k).run.run t = (.error fault, t') ↔
      (∃ sort, k.innermost = .user sort) ∧ fault = .noDistribution k ∧ t' = t) ∧
    ((∃ c t', (sampleWord config k).run.run t = (.ok ⟨k, c⟩, t')) ↔
      ∀ sort, k.innermost ≠ .user sort) ∧
    ((∀ sort, k.innermost ≠ .user sort) → ∀ count, ∃ elements t',
      (times (sample config k) count).run.run t = (.ok elements, t') ∧
        elements.length = count) := by
  refine ⟨fun fault t' => run_sampleWord_eq_error_iff, exists_run_sampleWord_iff, ?_⟩
  intro h count
  have hk := Kind.hasDistribution_iff.mpr h
  obtain ⟨elements, t', hrun, hlength, -⟩ := exists_run_times (exists_run_sample hk) count t
  exact ⟨elements, t', hrun, hlength⟩

/-- Lists of lists of a user sort, though all of them would be empty, and of truth values. -/
theorem sampleWord_fails_iff_user_nested :
    let t := Tape.start fun _ => 0xffffffffffffffff
    let sort : UserSort := ⟨"Color", .enumerated ["Red"], by decide⟩
    (sampleWord ⟨0⟩ (.list (.list (.user sort)))).run.run t =
      (.error (.noDistribution (.list (.list (.user sort)))), t) ∧
    (∃ c t', (sampleWord ⟨0⟩ (.list (.list .bool))).run.run t =
      (.ok ⟨.list (.list .bool), c⟩, t')) ∧
    ∃ elements t', (times (sample ⟨0⟩ (.list .bool)) 3).run.run t = (.ok elements, t') ∧
      elements.length = 3 := by
  intro t sort
  refine ⟨?_, ?_, ?_⟩
  · exact ((sampleWord_fails_iff_user ⟨0⟩ _ t).1 _ t).mpr ⟨⟨sort, rfl⟩, rfl, rfl⟩
  · exact (sampleWord_fails_iff_user ⟨0⟩ _ t).2.1.mpr (by simp [Kind.innermost])
  · exact (sampleWord_fails_iff_user ⟨0⟩ _ t).2.2 (by simp [Kind.innermost]) 3

end Sampling
end SolverValues
