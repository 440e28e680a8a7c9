import SolverValues.Ieee.Pattern

/-!
The order of floating-point patterns as objects. It is total, and patterns are level in it just when
they are the same or both stand for no number.
-/
namespace SolverValues.Ieee

/-- The format has patterns of no number besides those that mark infinity. -/
def Format.HasNaN (f : Format) : Prop := f.infinity < Nat.pow 2 f.magnitudeWidth - 1

theorem binary32_hasNaN : Format.binary32.HasNaN := by
  unfold Format.HasNaN
  decide

theorem binary64_hasNaN : Format.binary64.HasNaN := by
  unfold Format.HasNaN
  decide

namespace Pattern

variable {f : Format} {x y : Pattern f}

instance : Std.TransOrd (Pattern f) :=
  inferInstanceAs (Std.TransCmp (compareOn (place? (f := f))))

theorem compare_eq_iff_place? : compare x y = .eq ↔ x.place? = y.place? :=
  Std.LawfulEqOrd.compare_eq_iff_eq (a := x.place?)

theorem place?_eq_none : x.place? = none ↔ x.isNaN := by
  by_cases h : x.isNaN <;> by_cases hs : x.negative <;> simp [place?, h, hs]

/-- A number's place tells its sign and its magnitude. -/
theorem eq_of_place? (hx : ¬ x.isNaN) (h : x.place? = y.place?) : x = y := by
  have hy : ¬ y.isNaN := by rwa [← place?_eq_none, ← h, place?_eq_none]
  obtain ⟨sx, mx⟩ := x
  obtain ⟨sy, my⟩ := y
  -- Places of numbers with different signs are on different sides of zero.
  cases sx <;> cases sy <;>
    simp only [place?, hx, hy, Bool.false_eq_true, ↓reduceIte, Option.some.injEq, reduceCtorEq] at h
  case false.false =>
    have hmagnitude : mx = my := BitVec.eq_of_toNat_eq (Int.ofNat.inj h)
    rw [hmagnitude]
  case true.true =>
    have hmagnitude : mx = my := BitVec.eq_of_toNat_eq (Int.negSucc.inj h)
    rw [hmagnitude]

theorem compare_eq_iff : compare x y = .eq ↔ x.isNaN ∧ y.isNaN ∨ x = y := by
  rw [compare_eq_iff_place?]
  constructor
  · intro h
    by_cases hx : x.isNaN
    · exact .inl ⟨hx, by rwa [← place?_eq_none, ← h, place?_eq_none]⟩
    · exact .inr (eq_of_place? hx h)
  · rintro (⟨hx, hy⟩ | rfl)
    · rw [place?_eq_none.mpr hx, place?_eq_none.mpr hy]
    · rfl

theorem isNaN_canonical (hf : f.HasNaN) : x.canonical.isNaN = x.isNaN := by
  by_cases h : x.isNaN
  · have hones : (⟨true, .allOnes _⟩ : Pattern f).isNaN := by
      simpa [isNaN, Format.HasNaN] using hf
    simp [canonical, h, hones]
  · simp [canonical, h]

theorem canonical_eq_iff (hf : f.HasNaN) : x.canonical = y.canonical ↔ compare x y = .eq := by
  rw [compare_eq_iff]
  constructor
  · intro h
    have hn : x.isNaN = y.isNaN := by rw [← isNaN_canonical hf, h, isNaN_canonical hf]
    by_cases hx : x.isNaN
    · exact .inl ⟨hx, hn ▸ hx⟩
    · simp only [canonical, ← hn, hx, Bool.false_eq_true, ↓reduceIte] at h
      exact .inr h
  · rintro (⟨hx, hy⟩ | rfl)
    · simp [canonical, hx, hy]
    · rfl

theorem canonical_canonical (hf : f.HasNaN) : x.canonical.canonical = x.canonical := by
  rw [canonical, isNaN_canonical hf]
  by_cases h : x.isNaN <;> simp [canonical, h]

end Pattern
end SolverValues.Ieee
