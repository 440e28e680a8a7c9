import SolverValues.Optimum
import SolverValues.Proofs.Collection
import SolverValues.Proofs.Word.Order

/-!
Hashes of constants and of all that holds constants. They are hashes of digests, and equal values
have the same digest: both equality and digests see a value with one pattern in place of all patterns
of no number. Hence a hash set counts classes of equal values.
-/
namespace SolverValues

/-- Values are hashed by digests that agree with equality, so hash sets count classes of equal
values. This does not depend on how digests are hashed. -/
structure CountedByClass {α : Type} [BEq α] [Hashable α] (digest : α → List Atom) : Prop where
  hash_eq : ∀ a, hash a = hash (digest a)
  digest_eq : ∀ a b, (a == b) = true → digest a = digest b
  count : ∀ items : List α, (classes items).encard = distinctCount items
  count_of_hasher : ∀ (hasher : List Atom → UInt64) (items : List α),
    (classes items).encard = @distinctCount α _ ⟨fun a => hasher (digest a)⟩ items

/-- It is enough that equality and digests are about one form of a value. -/
theorem CountedByClass.of_canonical {α : Type} [BEq α] [Hashable α] {digest : α → List Atom}
    (canonical : α → α) (hhash : ∀ a, hash a = hash (digest a))
    (hbeq : ∀ a b : α, (a == b) = true ↔ canonical a = canonical b)
    (hdigest : ∀ a, digest (canonical a) = digest a) : CountedByClass digest := by
  have hequiv : EquivBEq α := equivBEq_of_key canonical hbeq
  have heq (a b : α) (hab : (a == b) = true) : digest a = digest b := by
    rw [← hdigest a, (hbeq a b).mp hab, hdigest]
  refine ⟨hhash, heq, ?_, ?_⟩
  · have hlawful : LawfulHashable α := ⟨fun a b hab => by rw [hhash, hhash, heq a b hab]⟩
    exact encard_classes_eq_distinctCount
  · intro hasher items
    let byHasher : Hashable α := ⟨fun a => hasher (digest a)⟩
    have hlawful : LawfulHashable α := ⟨fun a b hab => congrArg hasher (heq a b hab)⟩
    exact encard_classes_eq_distinctCount items

namespace Constant

theorem beq_iff_canonical {a b : Constant} : (a == b) = true ↔ a.canonical = b.canonical := by
  rw [beq_eq_true_iff]
  exact compare_eq_iff a b

theorem digestAll_eq_flatMap (cs : List Constant) : digestAll cs = cs.flatMap digest := by
  induction cs with
  | nil => rfl
  | cons c cs ih => rw [digestAll, ih, List.flatMap_cons]

theorem digest_canonical (c : Constant) : c.canonical.digest = c.digest := by
  induction c using elements_induction with
  | step c ih =>
    cases c with
    | list cs =>
      have hcs : cs.flatMap (fun c => c.canonical.digest) = cs.flatMap digest :=
        List.flatMap_congr ih
      simp only [canonical, digest, canonicalAll_eq_map, digestAll_eq_flatMap, List.length_map,
        List.flatMap_map, hcs]
    | float x => simp only [canonical, digest, Ieee.Pattern.canonical_canonical Ieee.binary32_hasNaN]
    | double x => simp only [canonical, digest, Ieee.Pattern.canonical_canonical Ieee.binary64_hasNaN]
    | _ => rfl

theorem countedByClass : CountedByClass Constant.digest :=
  .of_canonical canonical (fun _ => rfl) (fun _ _ => beq_iff_canonical) digest_canonical

end Constant

namespace Word

/-- The word with one pattern for all patterns of no number. -/
def canonical (w : Word) : Word := ⟨w.kind, w.value.canonical⟩

theorem beq_iff_canonical {x y : Word} : (x == y) = true ↔ x.canonical = y.canonical := by
  rw [beq_eq_true_iff, Constant.beq_iff_canonical, canonical, canonical, mk.injEq]

theorem digest_canonical (w : Word) : w.canonical.digest = w.digest := by
  rw [digest, digest, canonical, Constant.digest_canonical]

theorem countedByClass : CountedByClass Word.digest :=
  .of_canonical canonical (fun _ => rfl) (fun _ _ => beq_iff_canonical) digest_canonical

end Word

namespace Extended

/-- The expression with one pattern for all patterns of no number. -/
def canonical : Extended → Extended
  | .infinity kind => .infinity kind
  | .epsilon kind => .epsilon kind
  | .word leaf => .word leaf.canonical
  | .interval a b => .interval a.canonical b.canonical
  | .sum a b => .sum a.canonical b.canonical
  | .product a b => .product a.canonical b.canonical

theorem beq_iff_canonical {x y : Extended} : (x == y) = true ↔ x.canonical = y.canonical := by
  change x.beq y = true ↔ _
  induction x generalizing y with
  | word leaf => cases y <;> simp [Extended.beq, canonical, Word.beq_iff_canonical]
  | infinity kind | epsilon kind => cases y <;> simp [Extended.beq, canonical]
  | interval a b iha ihb | sum a b iha ihb | product a b iha ihb =>
    cases y <;> simp [Extended.beq, canonical, iha, ihb]

theorem digest_canonical (x : Extended) : x.canonical.digest = x.digest := by
  induction x with
  | word leaf => rw [canonical, digest, digest, Word.digest_canonical]
  | infinity kind | epsilon kind => rfl
  | interval a b iha ihb | sum a b iha ihb | product a b iha ihb =>
    rw [canonical, digest, digest, iha, ihb]

theorem countedByClass : CountedByClass Extended.digest :=
  .of_canonical canonical (fun _ => rfl) (fun _ _ => beq_iff_canonical) digest_canonical

end Extended

namespace Optimum

/-- The result with one pattern for all patterns of no number. -/
def canonical : Optimum → Optimum
  | .word single => .word single.canonical
  | .extended value => .extended value.canonical

theorem beq_iff_canonical {x y : Optimum} : (x == y) = true ↔ x.canonical = y.canonical := by
  cases x <;> cases y <;>
    simp [BEq.beq, canonical, ← Word.beq_iff_canonical, ← Extended.beq_iff_canonical]

theorem digest_canonical (x : Optimum) : x.canonical.digest = x.digest := by
  cases x with
  | word single => rw [canonical, digest, digest, Word.digest_canonical]
  | extended value => rw [canonical, digest, digest, Extended.digest_canonical]

theorem countedByClass : CountedByClass Optimum.digest :=
  .of_canonical canonical (fun _ => rfl) (fun _ _ => beq_iff_canonical) digest_canonical

end Optimum

/-- Constants, words, extended values and results of optimization are counted by class. All patterns
of no number of one width are in one class, and every other pattern, zeros of both signs included,
is in a class of its own. -/
theorem distinctCount_eq_classes :
    CountedByClass Constant.digest ∧ CountedByClass Word.digest ∧
    CountedByClass Extended.digest ∧ CountedByClass Optimum.digest ∧
    (∀ x y : Ieee.Binary32, (Constant.float x == .float y) = true ↔ x.isNaN ∧ y.isNaN ∨ x = y) ∧
    ∀ x y : Ieee.Binary64, (Constant.double x == .double y) = true ↔ x.isNaN ∧ y.isNaN ∨ x = y := by
  refine ⟨Constant.countedByClass, Word.countedByClass, Extended.countedByClass,
    Optimum.countedByClass, ?_, ?_⟩
  · intro x y
    rw [Constant.beq_eq_true_iff]
    exact Ieee.Pattern.compare_eq_iff
  · intro x y
    rw [Constant.beq_eq_true_iff]
    exact Ieee.Pattern.compare_eq_iff

/-- Patterns of no number are one at any depth. -/
example : let sum (bits : Nat) : Optimum :=
      .extended (.sum (.epsilon .float) (.word ⟨.list .float, .list [.float (.ofBits _ bits)]⟩))
    (sum 0x7fc00001 == sum 0xffffffff) = true ∧ (sum 0 == sum 0x80000000) = false := by decide

end SolverValues
