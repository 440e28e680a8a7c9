import SolverValues.Proofs.Word.Suited
import SolverValues.Proofs.Yields
import SolverValues.Sampling.Basic

/-!
The range of what is sampled. A drawn integer lies in the range of its kind, so that sampled words
need no normalization, and at every depth of a list the constants have the variant of their kind.
-/
namespace SolverValues.Sampling

variable {α : Type} {x y count base greatest : Nat}

theorem quotient_lt (hx : x < base) (hcount : 0 < count) : x * count / base < count := by
  apply Nat.div_lt_of_lt_mul
  exact Nat.mul_lt_mul_of_pos_right hx hcount

/-- A carry out of the low part leaves room for it in the high part. -/
theorem quotient_succ_lt (hx : x < base) (hy : y < base) (hcount : 0 < count)
    (hcarry : base ≤ x * count % base + y * count / base) : x * count / base + 1 < count := by
  have hlow := quotient_lt hy hcount
  have hsplit := Nat.div_add_mod (x * count) base
  have hnext : (x + 1) * count ≤ base * count := Nat.mul_le_mul_right count hx
  have hbase : base * (x * count / base + 1) < base * count := by
    rw [Nat.add_mul, Nat.one_mul] at hnext
    rw [Nat.mul_add, Nat.mul_one]
    omega
  exact Nat.lt_of_mul_lt_mul_left hbase

theorem drawUpTo_le (h : greatest < base) :
    Always (drawUpTo base greatest) fun n => n ≤ greatest := by
  have hread (word : Nat) : word % base < base := Nat.mod_lt word (by omega)
  refine (Always.trivial drawWord).bind fun first _ => ?_
  have hx := hread first
  by_cases hall : greatest + 1 = base
  · simp only [hall, Nat.mod_self, if_true]
    exact .pure (by omega)
  · have hcount : (greatest + 1) % base = greatest + 1 := Nat.mod_eq_of_lt (by omega)
    have hpos : 0 < greatest + 1 := by omega
    have hquotient := quotient_lt hx hpos
    simp only [hcount, Nat.succ_ne_zero, if_false]
    split
    · exact .pure (by omega)
    · refine (Always.trivial drawWord).bind fun second _ => .pure ?_
      split
      · rename_i hcarry
        have := quotient_succ_lt hx (hread second) hpos hcarry
        omega
      · omega

theorem drawBitVector_mem (signed : Bool) (width : Nat) :
    Always (drawBitVector signed width) fun v =>
      lowest signed width ≤ v ∧ v < lowest signed width + 2 ^ width := by
  unfold drawBitVector
  split
  · rename_i hwidth
    exact .pure (by cases signed <;> simp [hwidth, lowest])
  · rename_i hwidth
    refine (Always.trivial _).bind fun bits _ => .pure ?_
    have hbits : bits % Nat.pow 2 width < Nat.pow 2 width := Nat.mod_lt _ (Nat.two_pow_pos width)
    have hcast (w : Nat) : Int.ofNat (Nat.pow 2 w) = 2 ^ w := by simp
    have hupper : Int.ofNat (bits % Nat.pow 2 width) < 2 ^ width := by
      rw [← hcast]
      exact Int.ofNat_lt.mpr hbits
    have hlower : 0 ≤ Int.ofNat (bits % Nat.pow 2 width) := Int.natCast_nonneg _
    obtain ⟨width, rfl⟩ := Nat.exists_eq_succ_of_ne_zero hwidth
    cases signed with
    | false =>
      rw [lowest_unsigned, if_neg (by decide)]
      omega
    | true =>
      rw [lowest_signed_succ, if_pos rfl, hcast, Nat.succ_sub_one]
      omega

theorem yields_times {act : Sampler α} {P : α → Prop} (h : Yields act P) (count : Nat) :
    Yields (times act count) fun results => ∀ a ∈ results, P a := by
  induction count with
  | zero => exact .pure (by simp)
  | succ count ih =>
    refine h.bind fun first hfirst => ih.bind fun rest hrest => .pure ?_
    intro a ha
    rcases List.mem_cons.mp ha with rfl | ha
    · exact hfirst
    · exact hrest a ha

/-- The constant suits the kind, and the word of both is normalized. -/
def Fits (k : Kind) (c : Constant) : Prop :=
  c.suits k ∧ (⟨k, c⟩ : Word).normalize = ⟨k, c⟩

theorem fits_integer {k : Kind} {v : Int} (hsuits : (Constant.integer v).suits k)
    (h : k.reduce v = v) : Fits k (.integer v) := by
  refine ⟨hsuits, ?_⟩
  rw [Word.normalize_eq_make, Word.make_integer, h]

theorem fits_bool {n : Nat} (h : n ≤ 1) : Fits .bool (.integer (Int.ofNat n)) := by
  refine fits_integer rfl ?_
  have hrange : n % 2 = n := Nat.mod_eq_of_lt (by omega)
  exact congrArg Int.ofNat hrange

theorem fits_list {element : Kind} {elements : List Constant}
    (h : ∀ c ∈ elements, Fits element c) : Fits (.list element) (.list elements) := by
  refine ⟨?_, rfl⟩
  simp only [Constant.suits, List.all_eq_true]
  intro c hc
  exact (h c hc).1

theorem yields_sample (config : Config) (k : Kind) : Yields (sample config k) (Fits k) := by
  induction k with
  | bool => exact (Yields.lift (drawUpTo_le (by decide))).bind fun n hn => .pure (fits_bool hn)
  | bitVector signed width =>
    refine (Yields.lift (drawBitVector_mem signed width.toNat)).bind fun v hv => .pure ?_
    exact fits_integer rfl (wrap_of_mem hv)
  | list element ih =>
    unfold sample
    split
    · refine (Yields.trivial _).bind fun length _ => ?_
      exact (yields_times ih length).bind fun elements helements => .pure (fits_list helements)
    · exact .throw _
  | user sort => exact .throw _
  | _ => exact (Yields.trivial _).bind fun a _ => .pure ⟨rfl, rfl⟩

/-- Sampled words need no normalization and are suited to their kind. -/
theorem yields_sampleWord (config : Config) (k : Kind) :
    Yields (sampleWord config k) fun w => w.kind = k ∧ w.isNormal ∧ w.Suited := by
  refine (yields_sample config k).bind fun c hc => .pure ⟨rfl, ?_, hc.1⟩
  exact Word.isNormal_of_normalize_eq hc.2

end SolverValues.Sampling
