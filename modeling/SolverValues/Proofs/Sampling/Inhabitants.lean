import Mathlib.Tactic.NormNum
import Mathlib.Tactic.Positivity
import SolverValues.Proofs.Ieee.Nearest
import SolverValues.Proofs.Sampling.Range

/-!
Sampled values inhabit their kind: numbers lie in the range of what was drawn, sequences are no
longer than allowed, and so it is with the elements of lists at every depth.
-/
namespace SolverValues

/-- The pattern stands for a number from zero to below one, and zero has no sign. -/
def Ieee.Pattern.IsFraction {f : Ieee.Format} (x : Ieee.Pattern f) : Prop :=
  ¬ x.isNaN ∧ ¬ x.isInfinite ∧ ¬ x.negative ∧ x.value < 1

/-- The constant is one that may be sampled for the kind: sequences have up to `greatest` items. -/
def Constant.Inhabits (greatest : Nat) : Kind → Constant → Prop
  | .bool, .integer v => v = 0 ∨ v = 1
  | .bitVector signed width, .integer v =>
    lowest signed width.toNat ≤ v ∧ v < lowest signed width.toNat + 2 ^ width.toNat
  | .integer, .integer v => -2 ^ 63 ≤ v ∧ v < 2 ^ 63
  | .real, .real (.exact q) => q.num.natAbs.Coprime q.den ∧ 1 ≤ q.den ∧ q.den ≤ 2 ^ 32
  | .float, .float x => x.IsFraction
  | .double, .double x => x.IsFraction
  | .char, .char c => c.toNat ≤ 255
  | .string, .string s => s.length ≤ greatest ∧ ∀ c ∈ s.toList, c.toNat ≤ 255
  | .list element, .list elements =>
    elements.length ≤ greatest ∧ ∀ c ∈ elements, c.Inhabits greatest element
  | _, _ => False

namespace Sampling

theorem drawWord_lt : Always drawWord fun n => n < 2 ^ 64 := fun t => (t.word t.used).toNat_lt

theorem drawHalf_lt : Always drawHalf fun n => n < 2 ^ 32 :=
  (Always.trivial drawWord).bind fun word _ => .pure (Nat.mod_lt word (by decide))

theorem drawInt_mem : Always drawInt fun v => -2 ^ 63 ≤ v ∧ v < 2 ^ 63 := by
  refine (Always.trivial drawWord).bind fun word _ => .pure ?_
  obtain ⟨hlow, hhigh⟩ := wrap_mem true 64 (Int.ofNat word)
  have hlowest : lowest true 64 = -2 ^ 63 := rfl
  rw [hlowest] at hlow hhigh
  exact ⟨hlow, by omega⟩

theorem drawRational_den : Always drawRational fun q => q.den ≤ 2 ^ 32 := by
  refine (Always.trivial drawInt).bind fun numerator _ => ?_
  refine drawHalf_lt.bind fun denominator hdenominator => .pure ?_
  have hdvd : (mkRat numerator (denominator + 1)).den ∣ denominator + 1 := by
    rw [Rat.mkRat_eq_divInt]
    exact Int.natCast_dvd_natCast.mp (Rat.den_dvd _ _)
  have hle := Nat.le_of_dvd (Nat.succ_pos denominator) hdvd
  omega

/-- A number in units of the last place is below one if it has no bits above that place. -/
theorem isFraction_round {f : Ieee.Format} {m : Nat} (hp : 0 < f.precision)
    (hm : m < 2 ^ f.precision) (he : f.leastExponent ≤ -(f.precision : Int))
    (hroom : -(f.precision : Int) - f.leastExponent + 3 ≤ 2 ^ f.exponentWidth) :
    (Ieee.Pattern.round f false m (-(f.precision : Int))).IsFraction := by
  obtain ⟨hnan, hinfinite, hvalue⟩ := Ieee.Pattern.round_exact hp hm he hroom false
  refine ⟨by simp [hnan], by simp [hinfinite], by simp [Ieee.Pattern.round], ?_⟩
  have hbelow : (m : Rat) < 2 ^ f.precision := by exact_mod_cast hm
  rw [hvalue, zpow_neg, zpow_natCast]
  simp only [Bool.false_eq_true, ↓reduceIte, one_mul]
  rw [← div_eq_mul_inv, div_lt_one (by positivity)]
  exact hbelow

theorem drawFloat_isFraction : Always drawFloat fun x => x.IsFraction := by
  refine drawHalf_lt.bind fun half hhalf => .pure ?_
  have hm : half / 256 < 2 ^ 24 := by omega
  exact isFraction_round (f := .binary32) (by decide) hm (by decide) (by decide)

theorem drawDouble_isFraction : Always drawDouble fun x => x.IsFraction := by
  refine drawWord_lt.bind fun word hword => .pure ?_
  have hm : word / 2048 < 2 ^ 53 := by omega
  exact isFraction_round (f := .binary64) (by decide) hm (by decide) (by decide)

theorem drawChar_le : Always drawChar fun c => c.toNat ≤ 255 := by
  refine (Always.trivial drawHalf).bind fun half _ => .pure ?_
  have hbyte : half % 256 < 256 := Nat.mod_lt half (by decide)
  have hvalid : (half % 256).isValidChar := .inl (by omega)
  rw [Char.ofNat, dif_pos hvalid]
  exact Nat.le_of_lt_succ hbyte

theorem drawLength_le (config : Config) :
    Always (drawLength config) fun length => length ≤ config.maxLength.toNat := by
  have hmax := config.maxLength.toNat_lt_size
  unfold drawLength
  apply drawUpTo_le
  split <;> omega

theorem always_times {α : Type} {act : Draw α} {P : α → Prop} (h : Always act P) (count : Nat) :
    Always (times act count) fun results => results.length = count ∧ ∀ a ∈ results, P a := by
  induction count with
  | zero => exact .pure (by simp)
  | succ count ih =>
    refine h.bind fun first hfirst => ih.bind fun rest hrest => .pure ?_
    refine ⟨by simp [hrest.1], fun a ha => ?_⟩
    rcases List.mem_cons.mp ha with rfl | ha
    · exact hfirst
    · exact hrest.2 a ha

theorem yields_length_times {α : Type} (act : Sampler α) (count : Nat) :
    Yields (times act count) fun results => results.length = count := by
  induction count with
  | zero => exact .pure rfl
  | succ count ih =>
    exact (Yields.trivial act).bind fun _ _ => ih.bind fun _ hrest => .pure (by simp [hrest])

theorem drawString_inhabits (config : Config) : Always (drawString config) fun cs =>
    cs.length ≤ config.maxLength.toNat ∧ ∀ c ∈ cs, c.toNat ≤ 255 := by
  refine (drawLength_le config).bind fun length hlength => ?_
  refine (Always.trivial _).bind fun _ _ s => ?_
  obtain ⟨hcount, hchars⟩ := always_times drawChar_le length s
  exact ⟨hcount.trans_le hlength, hchars⟩

theorem drawListLength_le (config : Config) (element : Kind) :
    Always (drawListLength config element) fun length => length ≤ config.maxLength.toNat :=
  (drawLength_le config).bind fun _ hlength => (Always.trivial _).bind fun _ _ => .pure hlength

theorem yields_inhabitant (config : Config) (k : Kind) :
    Yields (sample config k) (Constant.Inhabits config.maxLength.toNat k) := by
  induction k with
  | bool =>
    refine (Yields.lift (drawUpTo_le (by decide))).bind fun n hn => .pure ?_
    simp only [Constant.Inhabits, Int.ofNat_eq_natCast]
    omega
  | bitVector signed width =>
    exact (Yields.lift (drawBitVector_mem signed width.toNat)).bind fun v hv => .pure hv
  | integer => exact (Yields.lift drawInt_mem).bind fun v hv => .pure hv
  | real =>
    refine (Yields.lift drawRational_den).bind fun q hq => .pure ?_
    exact ⟨q.reduced, q.den_pos, hq⟩
  | float => exact (Yields.lift drawFloat_isFraction).bind fun x hx => .pure hx
  | double => exact (Yields.lift drawDouble_isFraction).bind fun x hx => .pure hx
  | char => exact (Yields.lift drawChar_le).bind fun c hc => .pure hc
  | string =>
    refine (Yields.lift (drawString_inhabits config)).bind fun cs hcs => .pure ?_
    simpa [Constant.Inhabits] using hcs
  | list element ih =>
    unfold sample
    split
    · refine (Yields.lift (drawListLength_le config element)).bind fun length hlength => ?_
      have helements := (yields_length_times (sample config element) length).and
        (yields_times ih length)
      refine helements.bind fun elements helements => .pure ?_
      exact ⟨helements.1.trans_le hlength, helements.2⟩
    · exact .throw _
  | user sort => exact .throw _

/-- Whatever the source holds, a sampled word has the kind asked for and needs no normalization, and
its value inhabits that kind. -/
theorem sampleWord_inhabits (config : Config) (k : Kind) (tape : Tape) {w : Word}
    (h : ((sampleWord config k).run.run tape).1 = .ok w) :
    w.kind = k ∧ w.isNormal ∧ w.value.Inhabits config.maxLength.toNat k := by
  obtain ⟨hkind, hnormal, _⟩ := yields_sampleWord config k tape w h
  have hvalue : Yields (sampleWord config k) fun w =>
      w.value.Inhabits config.maxLength.toNat k :=
    (yields_inhabitant config k).bind fun _ hc => .pure hc
  exact ⟨hkind, hnormal, hvalue tape w h⟩

/-- Two lists of signed numbers of three bits, from a source of words with all bits set. -/
theorem sampleWord_inhabits_nested :
    ((sampleWord ⟨2⟩ (.list (.list (.int 3)))).run.run (.start fun _ => 0xffffffffffffffff)).1 =
      .ok ⟨.list (.list (.int 3)),
        .list [.list [.integer 3, .integer 3], .list [.integer 3, .integer 3]]⟩ ∧
    Constant.Inhabits 2 (.list (.list (.int 3)))
      (.list [.list [.integer 3, .integer 3], .list [.integer 3, .integer 3]]) :=
  ⟨rfl, (sampleWord_inhabits ⟨2⟩ (.list (.list (.int 3))) (.start fun _ => 0xffffffffffffffff)
    rfl).2.2⟩

end Sampling
end SolverValues
