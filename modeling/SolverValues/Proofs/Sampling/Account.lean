import Mathlib.Algebra.BigOperators.Group.List.Basic
import SolverValues.Proofs.Sampling.Inhabitants
import SolverValues.Proofs.Sampling.Taken

/-!
What sampling takes and logs. Every part of a constant accounts for the words that it takes, for the
lengths drawn on the way and for the events logged with them, and the accounts of parts add up.
-/
namespace SolverValues

/-- A string or a list of a constant. -/
inductive Sequence where
  | string (length : Nat)
  | list (length : Nat) (element : Kind)

def Sequence.message : Sequence → String
  | .string length => "sampling a string of length " ++ length.repr
  | .list length element =>
    "sampling a list of " ++ length.repr ++ " elements of kind " ++ element.name

/-- The event that a sequence is sampled. -/
def Sequence.event (sequence : Sequence) : Log.Event := Log.note .trace sequence.message

namespace Constant

/-- The strings and lists of a constant, each before what it holds. -/
def sequences : Kind → Constant → List Sequence
  | .string, .string s => [.string s.length]
  | .list element, .list elements =>
    .list elements.length element :: elements.flatMap (sequences element)
  | _, _ => []

/-- The words that a constant is made from if one is enough for each length. -/
def wordCost : Kind → Constant → Nat
  | .bool, _ | .integer, _ | .float, _ | .double, _ | .char, _ => 1
  | .real, _ => 2
  | .bitVector _ width, _ => (width.toNat + 63) / 64
  | .string, .string s => 1 + s.length
  | .list element, .list elements => 1 + (elements.map (wordCost element)).sum
  | _, _ => 0

end Constant

namespace Sampling

variable {α β : Type} {config : Config} {k element : Kind} {m n : Nat} {t t' t'' : Tape}
  {lengths lengths' : List Tape} {sequences sequences' : List Sequence}

/-- Does a length drawn from the tape take a second word? -/
def takesSecond (config : Config) (t : Tape) : Bool :=
  ((drawLength config).run t).2.used = t.used + 2

/-- The states that a computation starts from when it is done `count` times. -/
def starts {σ : Type} (act : StateM σ α) : Nat → σ → List σ
  | 0, _ => []
  | count + 1, s => s :: starts act count (act.run s).2

/-- The tapes that lengths are drawn from while a constant of the kind is sampled. -/
def lengthDraws (config : Config) : Kind → Tape → List Tape
  | .string, t => [t]
  | .list element, t =>
    let (length, next) := (drawListLength config element).run t
    t :: (starts (sample config element).run length next).flatMap (lengthDraws config element)
  | _, _ => []

/-- Between two tapes `cost` words are taken, and a second one for some of the lengths. Each length
is drawn for one sequence, which is logged. -/
structure Account (config : Config) (lengths : List Tape) (cost : Nat) (sequences : List Sequence)
    (t t' : Tape) : Prop where
  used : t'.used = t.used + (cost + lengths.countP (takesSecond config))
  length_eq : lengths.length = sequences.length
  events : t'.events.toList = t.events.toList ++ sequences.map Sequence.event

theorem Account.refl (t : Tape) : Account config [] 0 [] t t := ⟨rfl, rfl, by simp⟩

theorem Account.trans (h : Account config lengths m sequences t t')
    (h' : Account config lengths' n sequences' t' t'') :
    Account config (lengths ++ lengths') (m + n) (sequences ++ sequences') t t'' where
  used := by
    rw [h'.used, h.used, List.countP_append]
    omega
  length_eq := by rw [List.length_append, List.length_append, h.length_eq, h'.length_eq]
  events := by rw [h'.events, h.events, List.map_append, List.append_assoc]

theorem Takes.account {act : Draw α} (h : Takes n act) (t : Tape) :
    Account config [] n [] t (act.run t).2 := by
  rw [h]
  exact ⟨rfl, rfl, by simp [Tape.skip]⟩

theorem run_drawLength_snd (config : Config) (t : Tape) :
    ((drawLength config).run t).2 = t.skip (if takesSecond config t then 2 else 1) := by
  obtain h | h := run_drawUpTo_snd (if config.maxLength.toNat < UInt32.size then UInt32.size
    else UInt64.size) config.maxLength.toNat t
  · have hrun : ((drawLength config).run t).2 = t.skip 1 := h
    rw [takesSecond, hrun]
    simp [Tape.skip]
  · have hrun : ((drawLength config).run t).2 = t.skip 2 := h
    rw [takesSecond, hrun]
    simp [Tape.skip]

/-- A length that is drawn for a sequence and logged. -/
theorem account_length (config : Config) (sequence : Sequence) (t : Tape) :
    Account config [t] 1 [sequence] t (((drawLength config).run t).2.log sequence.event) := by
  rw [run_drawLength_snd]
  refine ⟨?_, rfl, ?_⟩
  · cases h : takesSecond config t <;> simp [h, Tape.log, Tape.skip]
  · simp [Tape.log, Tape.skip]

theorem account_drawString (config : Config) (t : Tape) :
    Account config [t] (1 + ((drawString config).run t).1.length)
      [.string ((drawString config).run t).1.length] t ((drawString config).run t).2 := by
  let length := ((drawLength config).run t).1
  let next := ((drawLength config).run t).2.log (Sequence.event (.string length))
  have hrun : (drawString config).run t = (times drawChar length).run next := rfl
  have hlength : ((times drawChar length).run next).1.length = length :=
    (always_times drawChar_le length next).1
  rw [hrun, hlength]
  exact (account_length config (.string length) t).trans
    ((takes_times takes_drawChar length).account next)

theorem exists_run_drawListLength (config : Config) (element : Kind) (t : Tape) :
    ∃ length t', (drawListLength config element).run t = (length, t') ∧
      Account config [t] 1 [.list length element] t t' :=
  ⟨_, _, rfl, account_length config (.list ((drawLength config).run t).1 element) t⟩

theorem run_lift {act : Draw α} {a : α} (h : act.run t = (a, t')) :
    (liftM act : Sampler α).run.run t = (.ok a, t') := by
  change (Except.ok (act.run t).1, (act.run t).2) = _
  rw [h]

theorem run_bind_ok {act : Sampler α} {next : α → Sampler β} {a : α}
    (h : act.run.run t = (.ok a, t')) : (act >>= next).run.run t = (next a).run.run t' := by
  rw [ExceptT.run_bind, run_bind, h]

/-- If one run always yields a constant with an account, so do several in turn. -/
theorem exists_run_times {act : Sampler Constant} {draws : Tape → List Tape}
    {cost : Constant → Nat} {parts : Constant → List Sequence}
    (h : ∀ t, ∃ c t', act.run.run t = (.ok c, t') ∧
      Account config (draws t) (cost c) (parts c) t t') (count : Nat) (t : Tape) :
    ∃ cs t', (times act count).run.run t = (.ok cs, t') ∧ cs.length = count ∧
      Account config ((starts act.run count t).flatMap draws) (cs.map cost).sum
        (cs.flatMap parts) t t' := by
  induction count generalizing t with
  | zero => exact ⟨[], t, rfl, rfl, .refl t⟩
  | succ count ih =>
    obtain ⟨c, next, hc, hfirst⟩ := h t
    obtain ⟨cs, t', hcs, hlength, hrest⟩ := ih next
    refine ⟨c :: cs, t', ?_, by rw [List.length_cons, hlength], ?_⟩
    · rw [times, run_bind_ok hc, run_bind_ok hcs]
      rfl
    · rw [starts, hc]
      exact hfirst.trans hrest

/-- A kind with random values yields one from every tape, and the parts of that value account for
all that is taken and logged. -/
theorem exists_run_sample (h : k.hasDistribution) (t : Tape) :
    ∃ c t', (sample config k).run.run t = (.ok c, t') ∧
      Account config (lengthDraws config k t) (c.wordCost k) (c.sequences k) t t' := by
  induction k generalizing t with
  | bool => exact ⟨_, _, rfl, takes_drawBool.account t⟩
  | bitVector signed width => exact ⟨_, _, rfl, (takes_drawBitVector signed width.toNat).account t⟩
  | integer => exact ⟨_, _, rfl, takes_drawInt.account t⟩
  | real => exact ⟨_, _, rfl, takes_drawRational.account t⟩
  | float => exact ⟨_, _, rfl, takes_drawFloat.account t⟩
  | double => exact ⟨_, _, rfl, takes_drawDouble.account t⟩
  | char => exact ⟨_, _, rfl, takes_drawChar.account t⟩
  | string =>
    refine ⟨.string (String.ofList ((drawString config).run t).1), ((drawString config).run t).2,
      rfl, ?_⟩
    have hlength : (String.ofList ((drawString config).run t).1).length =
        ((drawString config).run t).1.length := String.length_ofList
    have haccount := account_drawString config t
    rw [← hlength] at haccount
    exact haccount
  | list element ih =>
    have hdistribution : element.hasDistribution := h
    obtain ⟨length, next, hdraw, hfirst⟩ := exists_run_drawListLength config element t
    obtain ⟨cs, t', hcs, rfl, hrest⟩ := exists_run_times (ih h) length next
    refine ⟨.list cs, t', ?_, ?_⟩
    · rw [sample, if_pos hdistribution, run_bind_ok (run_lift hdraw), run_bind_ok hcs]
      rfl
    · rw [lengthDraws, hdraw]
      exact hfirst.trans hrest
  | user sort => cases h

end Sampling
end SolverValues
