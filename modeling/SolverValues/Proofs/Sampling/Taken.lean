import Mathlib.Algebra.BigOperators.Intervals
import Mathlib.Algebra.BigOperators.Ring.Finset
import SolverValues.Sampling.Basic

/-!
What draws take. A draw only moves on in the source, and most draws by a fixed number of words; a
number up to a bound takes a second word where the first one leaves it open.
-/
namespace SolverValues.Sampling

variable {α β : Type} {m n base greatest : Nat}

theorem run_bind (act : Draw α) (next : α → Draw β) (t : Tape) :
    (act >>= next).run t = (next (act.run t).1).run (act.run t).2 := rfl

/-- The tape with the next `count` words used up. -/
def Tape.skip (t : Tape) (count : Nat) : Tape := { t with used := t.used + count }

/-- The tape with one more event. -/
def Tape.log (t : Tape) (e : Log.Event) : Tape := { t with events := t.events.push e }

/-- The number of the next `count` words, the first of them lowest. -/
def Tape.number (t : Tape) (count : Nat) : Nat :=
  ∑ i ∈ Finset.range count, (t.word (t.used + i)).toNat * 2 ^ (64 * i)

theorem Tape.skip_skip (t : Tape) (m n : Nat) : (t.skip m).skip n = t.skip (m + n) := by
  rw [skip, skip, skip, Nat.add_assoc]

/-- The draw takes `count` words, whatever they are, and logs nothing. -/
def Takes (count : Nat) (act : Draw α) : Prop := ∀ t, (act.run t).2 = t.skip count

theorem Takes.pure (a : α) : Takes 0 (Pure.pure a : Draw α) := fun _ => rfl

theorem Takes.bind {act : Draw α} {next : α → Draw β} (h : Takes m act)
    (hnext : ∀ a, Takes n (next a)) : Takes (m + n) (act >>= next) := by
  intro t
  rw [run_bind, hnext, h, Tape.skip_skip]

theorem takes_times {act : Draw α} (h : Takes 1 act) (count : Nat) :
    Takes count (times act count) := by
  induction count with
  | zero => exact .pure []
  | succ count ih =>
    have hstep : Takes (1 + count) (times act (count + 1)) :=
      h.bind fun _ => ih.bind fun _ => .pure _
    rwa [Nat.add_comm 1 count] at hstep

theorem takes_drawWord : Takes 1 drawWord := fun _ => rfl

theorem takes_drawHalf : Takes 1 drawHalf := takes_drawWord.bind fun _ => .pure _

theorem takes_drawInt : Takes 1 drawInt := takes_drawWord.bind fun _ => .pure _

theorem takes_drawRational : Takes 2 drawRational :=
  takes_drawInt.bind fun _ => takes_drawHalf.bind fun _ => .pure _

theorem takes_drawFloat : Takes 1 drawFloat := takes_drawHalf.bind fun _ => .pure _

theorem takes_drawDouble : Takes 1 drawDouble := takes_drawWord.bind fun _ => .pure _

theorem takes_drawChar : Takes 1 drawChar := takes_drawHalf.bind fun _ => .pure _

theorem Tape.number_succ (t : Tape) (count : Nat) :
    t.number (count + 1) = (t.word t.used).toNat + UInt64.size * (t.skip 1).number count := by
  have hshift (i : Nat) : (t.word (t.used + (i + 1))).toNat * 2 ^ (64 * (i + 1)) =
      UInt64.size * (((t.skip 1).word (t.used + 1 + i)).toNat * 2 ^ (64 * i)) := by
    have hsize : UInt64.size = 2 ^ 64 := rfl
    have hword : (t.skip 1).word = t.word := rfl
    rw [hsize, hword, Nat.mul_succ, Nat.pow_add, ← Nat.mul_assoc, Nat.mul_comm,
      Nat.add_right_comm, Nat.add_assoc]
  rw [number, Finset.sum_range_succ', Finset.sum_congr rfl fun i _ => hshift i, ← Finset.mul_sum,
    Nat.add_comm]
  simp [number, skip]

theorem run_drawWords (count : Nat) (t : Tape) :
    (drawWords count).run t = (t.number count, t.skip count) := by
  induction count generalizing t with
  | zero => rfl
  | succ count ih =>
    have hrest := ih (t.skip 1)
    rw [Tape.skip_skip, Nat.add_comm 1] at hrest
    rw [t.number_succ]
    change ((t.word t.used).toNat + UInt64.size * ((drawWords count).run (t.skip 1)).1,
      ((drawWords count).run (t.skip 1)).2) = _
    rw [hrest]

theorem takes_drawWords (count : Nat) : Takes count (drawWords count) := by
  intro t
  rw [run_drawWords]

/-- Without bits nothing is drawn. -/
theorem takes_drawBitVector (signed : Bool) (width : Nat) :
    Takes ((width + 63) / 64) (drawBitVector signed width) := by
  by_cases hwidth : width = 0
  · subst hwidth
    exact .pure 0
  · rw [drawBitVector, if_neg hwidth]
    exact (takes_drawWords _).bind fun _ => .pure _

theorem run_drawUpTo_snd (base greatest : Nat) (t : Tape) :
    ((drawUpTo base greatest).run t).2 = t.skip 1 ∨
      ((drawUpTo base greatest).run t).2 = t.skip 2 := by
  have hword : drawWord.run t = ((t.word t.used).toNat, t.skip 1) := rfl
  unfold drawUpTo
  rw [run_bind, hword]
  dsimp only
  split
  · exact .inl rfl
  · split
    · exact .inl rfl
    · exact .inr rfl

/-- The low part of a product with a divisor of the base is far enough from a carry. -/
theorem low_le_of_dvd {x count : Nat} (h : count ∣ base) (hbase : 0 < base) :
    x * count % base ≤ base - count := by
  have hlow := Nat.mod_lt (x * count) hbase
  have hdvd : count ∣ base - x * count % base :=
    Nat.dvd_sub h ((Nat.dvd_mod_iff h).mpr (Nat.dvd_mul_left count x))
  have hle := Nat.le_of_dvd (by omega) hdvd
  omega

theorem takes_drawUpTo (h : greatest + 1 ∣ base) (hbase : 0 < base) :
    Takes 1 (drawUpTo base greatest) := by
  refine takes_drawWord.bind (n := 0) fun word => ?_
  dsimp only
  obtain hall | hlt := (Nat.le_of_dvd hbase h).eq_or_lt
  · rw [if_pos (by rw [hall, Nat.mod_self])]
    exact .pure _
  · rw [Nat.mod_eq_of_lt hlt, if_neg (Nat.succ_ne_zero greatest), if_pos (low_le_of_dvd h hbase)]
    exact .pure _

theorem takes_drawBool : Takes 1 (drawUpTo UInt32.size 1) :=
  takes_drawUpTo (by decide) (by decide)

theorem takes_drawLength {config : Config} (h : ∃ e, config.maxLength.toNat + 1 = 2 ^ e) :
    Takes 1 (drawLength config) := by
  obtain ⟨e, he⟩ := h
  have hmax := config.maxLength.toNat_lt
  have hdvd (bits : Nat) (hbits : config.maxLength.toNat < 2 ^ bits) :
      config.maxLength.toNat + 1 ∣ 2 ^ bits := by
    rw [he]
    rw [← Nat.succ_le_iff, Nat.succ_eq_add_one, he] at hbits
    exact Nat.pow_dvd_pow 2 ((Nat.pow_le_pow_iff_right (by decide)).mp hbits)
  unfold drawLength
  dsimp only
  split
  · rename_i hsmall
    exact takes_drawUpTo (hdvd 32 hsmall) (by decide)
  · exact takes_drawUpTo (hdvd 64 hmax) (by decide)

end SolverValues.Sampling
