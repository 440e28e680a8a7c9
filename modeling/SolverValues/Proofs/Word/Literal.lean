import SolverValues.Proofs.Ieee.Shortening
import SolverValues.Word.Basic

/-!
Integral literals of floating-point kinds. Every integer has a word, and the word holds the pattern
nearest to the integer as far as the conversion finds it. The conversion by shortening finds it for
single precision always, and for double precision up to 128 bits.
-/
namespace SolverValues.Word

open Ieee

variable {f : Format} {kind : Kind} {word : Pattern f → Word} {convert : Conversion}

/-- Integral literals of a kind, whose words hold patterns. Where the conversion rounds correctly
the patterns are the nearest ones, infinite from `bound` on, and literals keep the order of
integers. -/
structure RoundsLiterals (convert : Conversion) (kind : Kind) (word : Pattern f → Word)
    (bound : Int) : Prop where
  succeeds : ∀ n, ofIntBy convert kind n = .ok (word (convert.pattern f n))
  rounded : ∀ n, convert.RoundsAt f n → (convert.pattern f n).RoundedFrom n bound
  monotone : ∀ m n, convert.RoundsAt f m → convert.RoundsAt f n → m ≤ n →
    (word (convert.pattern f m)).compare (word (convert.pattern f n)) ≠ .gt

theorem RoundsLiterals.of_holdsIntegers (hf : f.HoldsIntegers)
    (hword : ∀ n, ofIntBy convert kind n = .ok (word (convert.pattern f n)))
    (hcompare : ∀ x y, (word x).compare (word y) = compare x y) :
    RoundsLiterals convert kind word f.overflow where
  succeeds := hword
  rounded := by
    intro n hn
    rw [Conversion.pattern_eq_nearestTo hn]
    exact Pattern.roundedFrom_nearestTo hf n
  monotone := by
    intro m n hm hn hle
    rw [hcompare, Conversion.pattern_eq_nearestTo hm, Conversion.pattern_eq_nearestTo hn]
    exact Pattern.compare_nearestTo_ne_gt hf hle

theorem compare_float (x y : Binary32) :
    Word.compare ⟨.float, .float x⟩ ⟨.float, .float y⟩ = compare x y :=
  Ordering.then_eq

theorem compare_double (x y : Binary64) :
    Word.compare ⟨.double, .double x⟩ ⟨.double, .double y⟩ = compare x y :=
  Ordering.then_eq

theorem binary32_overflow : (Format.binary32.overflow : Int) = 2 ^ 128 - 2 ^ 103 :=
  Format.binary32_holdsIntegers.overflow_eq

theorem binary64_overflow : (Format.binary64.overflow : Int) = 2 ^ 1024 - 2 ^ 970 :=
  Format.binary64_holdsIntegers.overflow_eq

/-- Literals of both precisions, by any conversion, with the integers from which on they are
infinite. The conversion that runs is correct in single precision, and in double precision up to
128 bits. -/
theorem ofIntBy_rounds_to_nearest (convert : Conversion) :
    RoundsLiterals convert .float (fun x : Binary32 => ⟨.float, .float x⟩) (2 ^ 128 - 2 ^ 103) ∧
    RoundsLiterals convert .double (fun x : Binary64 => ⟨.double, .double x⟩)
      (2 ^ 1024 - 2 ^ 970) ∧
    (∀ n, Conversion.shortening.RoundsAt .binary32 n) ∧
    ∀ n : Int, |n| < 2 ^ 128 → Conversion.shortening.RoundsAt .binary64 n := by
  refine ⟨?_, ?_, ?_, ?_⟩
  · rw [← binary32_overflow]
    exact .of_holdsIntegers Format.binary32_holdsIntegers (fun _ => rfl) compare_float
  · rw [← binary64_overflow]
    exact .of_holdsIntegers Format.binary64_holdsIntegers (fun _ => rfl) compare_double
  · intro n
    exact Conversion.shortening_roundsAt Format.binary32_holdsIntegers (by decide)
      (.inr (by decide))
  · intro n hn
    apply Conversion.shortening_roundsAt Format.binary64_holdsIntegers (by decide)
    refine .inl (seesLostBits_of_lt ?_)
    rw [Int.abs_eq_natAbs] at hn
    exact_mod_cast hn

/-- Integers halfway between two patterns: the even one lies below the first, above the second. -/
theorem ofIntBy_rounds_to_nearest_ties :
    ofInt .float 16777217 = .ok ⟨.float, .float (.ofBits _ 0x4b800000)⟩ ∧
    (Pattern.ofBits .binary32 0x4b800000).RoundedFrom 16777217 (2 ^ 128 - 2 ^ 103) ∧
    |(9007199254740995 : Int)| < 2 ^ 128 ∧
    ofInt .double 9007199254740995 = .ok ⟨.double, .double (.ofBits _ 0x4340000000000002)⟩ ∧
    (Pattern.ofBits .binary64 0x4340000000000002).RoundedFrom 9007199254740995
      (2 ^ 1024 - 2 ^ 970) ∧
    (-16777219 : Int) ≤ 16777217 ∧
    Word.compare ⟨.float, .float (.ofInt _ (-16777219))⟩
      ⟨.float, .float (.ofInt _ 16777217)⟩ ≠ .gt := by
  obtain ⟨float, double, always, short⟩ := ofIntBy_rounds_to_nearest .shortening
  have hshort : |(9007199254740995 : Int)| < 2 ^ 128 := by norm_num
  have hfloat : Pattern.ofInt .binary32 16777217 = .ofBits _ 0x4b800000 := by decide +kernel
  have hdouble : Pattern.ofInt .binary64 9007199254740995 = .ofBits _ 0x4340000000000002 := by
    decide +kernel
  refine ⟨?_, ?_, hshort, ?_, ?_, by decide, ?_⟩
  · rw [← hfloat]
    exact float.succeeds 16777217
  · rw [← hfloat]
    exact float.rounded _ (always _)
  · rw [← hdouble]
    exact double.succeeds 9007199254740995
  · rw [← hdouble]
    exact double.rounded _ (short _ hshort)
  · exact float.monotone _ _ (always _) (always _) (by decide)

end SolverValues.Word
