import Mathlib.Data.List.Forall2
import SolverValues.Proofs.Constant.Literal
import SolverValues.Proofs.Digest
import SolverValues.Proofs.Extended.Leaves

/-!
Identity of extended values. Equal ones are the same trees with equal leaves, and can be told apart
neither by kind nor by text. Telling single words from other values keeps equality both ways, so
that as many different results of optimization come out as different extended values go in.
-/
namespace SolverValues

instance : EquivBEq Extended := equivBEq_of_key _ fun _ _ => Extended.beq_iff_canonical

instance : EquivBEq Optimum := equivBEq_of_key _ fun _ _ => Optimum.beq_iff_canonical

namespace Word

theorem map_canonical_eq_iff {vs ws : List Word} :
    vs.map canonical = ws.map canonical ↔ List.Forall₂ (fun v w => (v == w) = true) vs ws := by
  rw [← List.forall₂_eq_eq_eq, List.forall₂_map_left_iff, List.forall₂_map_right_iff]
  simp only [beq_iff_canonical]

theorem render_canonical (w : Word) (style : Style) : w.canonical.render style = w.render style := by
  simp only [render, canonical, Constant.text, Constant.literal_canonical]

end Word

namespace Extended

/-- Two expressions of one shape whose leaves, from left to right, have the same kinds and hold equal
words. -/
structure SameTree (a b : Extended) : Prop where
  skeleton_eq : a.skeleton = b.skeleton
  leafKinds_eq : a.leafKinds = b.leafKinds
  words_eq : List.Forall₂ (fun v w => (v == w) = true) a.words b.words

variable {a b : Extended}

theorem skeleton_canonical (e : Extended) : e.canonical.skeleton = e.skeleton := by
  induction e with
  | infinity kind | epsilon kind | word leaf => rfl
  | interval left right ih ih' | sum left right ih ih' | product left right ih ih' =>
    rw [canonical, skeleton, skeleton, ih, ih']

theorem leafKinds_canonical (e : Extended) : e.canonical.leafKinds = e.leafKinds := by
  induction e with
  | infinity kind | epsilon kind | word leaf => rfl
  | interval left right ih ih' | sum left right ih ih' | product left right ih ih' =>
    rw [canonical, leafKinds, leafKinds, ih, ih']

theorem words_canonical (e : Extended) : e.canonical.words = e.words.map Word.canonical := by
  induction e with
  | infinity kind | epsilon kind | word leaf => rfl
  | interval left right ih ih' | sum left right ih ih' | product left right ih ih' =>
    rw [canonical, words, words, ih, ih', List.map_append]

/-- Equality, which goes down both trees at once, is about the shapes and the leaves. -/
theorem beq_iff_sameTree : (a == b) = true ↔ a.SameTree b := by
  rw [beq_iff_canonical]
  constructor
  · intro h
    refine ⟨?_, ?_, Word.map_canonical_eq_iff.mp ?_⟩
    · rw [← skeleton_canonical, h, skeleton_canonical]
    · rw [← leafKinds_canonical, h, leafKinds_canonical]
    · rw [← words_canonical, h, words_canonical]
  · intro h
    apply eq_of_skeleton_eq
    · rw [skeleton_canonical, h.skeleton_eq, skeleton_canonical]
    · rw [leafKinds_canonical, h.leafKinds_eq, leafKinds_canonical]
    · rw [words_canonical, Word.map_canonical_eq_iff.mpr h.words_eq, words_canonical]

/-- The kind is that of the leftmost leaf, so it is kept as all kinds of leaves are. -/
theorem kind_canonical (e : Extended) : e.canonical.kind = e.kind := by
  apply Option.some_injective
  rw [← head?_leafKinds, leafKinds_canonical, head?_leafKinds]

theorem isMinusOne_canonical (e : Extended) : e.canonical.isMinusOne = e.isMinusOne := by
  cases e with
  | word leaf =>
    obtain ⟨kind, value⟩ := leaf
    cases value <;> cases kind <;> rfl
  | _ => rfl

theorem negation?_canonical (left right : Extended) :
    negation? left.canonical right.canonical = negation? left right := by
  cases right <;> simp only [canonical, negation?, isMinusOne_canonical]

theorem renderAs_canonical (e : Extended) (style : Style) (nested : Bool) :
    e.canonical.renderAs style nested = e.renderAs style nested := by
  induction e generalizing style nested with
  | infinity kind | epsilon kind => rfl
  | word leaf => exact leaf.render_canonical style
  | interval left right ih ih' | sum left right ih ih' =>
    simp only [canonical, renderAs, ih, ih', kind_canonical]
  | product left right ih ih' =>
    simp only [canonical, renderAs, ih, ih', kind_canonical, negation?_canonical]

theorem kind_congr (h : (a == b) = true) : a.kind = b.kind := by
  rw [← kind_canonical, beq_iff_canonical.mp h, kind_canonical]

theorem render_congr (h : (a == b) = true) (style : Style) : a.render style = b.render style := by
  rw [render, ← renderAs_canonical, beq_iff_canonical.mp h, renderAs_canonical, render]

theorem word_beq_iff {kind : Kind} {v w : Constant} :
    (word ⟨kind, v⟩ == word ⟨kind, w⟩) = true ↔ compare v w = .eq := by
  change (Word.mk kind v == Word.mk kind w) = true ↔ _
  rw [Word.beq_eq_true_iff, Constant.beq_eq_true_iff]
  exact and_iff_right rfl

end Extended

namespace Optimum

variable {a b : Extended}

/-- The expression that a result stands for. -/
def toExtended : Optimum → Extended
  | .word single => .word single
  | .extended value => value

theorem toExtended_ofExtended (e : Extended) : (ofExtended e).toExtended = e := by
  cases e <;> rfl

theorem ofExtended_injective : Function.Injective ofExtended :=
  Function.LeftInverse.injective toExtended_ofExtended

theorem canonical_ofExtended (e : Extended) :
    (ofExtended e).canonical = ofExtended e.canonical := by
  cases e <;> rfl

theorem ofExtended_beq_iff : (ofExtended a == ofExtended b) = true ↔ (a == b) = true := by
  rw [beq_iff_canonical, canonical_ofExtended, canonical_ofExtended, ofExtended_injective.eq_iff,
    Extended.beq_iff_canonical]

theorem isWord_ofExtended_iff : (ofExtended a).isWord = true ↔ ∃ leaf, a = .word leaf := by
  cases a <;> simp [ofExtended, isWord]

theorem ofExtended_ne_extended_word (leaf : Word) : ofExtended a ≠ .extended (.word leaf) := by
  cases a <;> simp [ofExtended]

theorem ofExtended_beq_extended_iff :
    (ofExtended a == .extended a) = true ↔ ¬ ∃ leaf, a = .word leaf := by
  cases a with
  | word leaf => exact iff_of_false Bool.false_ne_true (not_not_intro ⟨leaf, rfl⟩)
  | _ => exact iff_of_true (BEq.refl _) nofun

theorem encard_classes_map_ofExtended (items : List Extended) :
    (classes (items.map ofExtended)).encard = (classes items).encard :=
  encard_classes_map (fun _ _ => ofExtended_beq_iff) items

theorem distinctCount_map_ofExtended (items : List Extended) :
    distinctCount (items.map ofExtended) = distinctCount items := by
  have hclasses := encard_classes_map_ofExtended items
  rw [countedByClass.count, Extended.countedByClass.count] at hclasses
  exact ENat.natCast_inj.mp hclasses

/-- Equality of extended values is an equivalence. Values are equal just when their trees have one
shape and equal leaves, where all patterns of no number are equal, and then they have one kind and
the same texts. Results of optimization made of them are equal just when the values are, so there
are as many different ones. Such a result is a word if the value is a single word, and the value
itself if not. -/
theorem ofExtended_preserves_identity :
    (Equivalence fun a b : Extended => (a == b) = true) ∧
    (∀ a b : Extended, (a == b) = true ↔ a.SameTree b) ∧
    (∀ (kind : Kind) (x y : Ieee.Binary32),
      (Extended.word ⟨kind, .float x⟩ == .word ⟨kind, .float y⟩) = true ↔
        x.isNaN ∧ y.isNaN ∨ x = y) ∧
    (∀ (kind : Kind) (x y : Ieee.Binary64),
      (Extended.word ⟨kind, .double x⟩ == .word ⟨kind, .double y⟩) = true ↔
        x.isNaN ∧ y.isNaN ∨ x = y) ∧
    (∀ a b : Extended, (a == b) = true →
      a.kind = b.kind ∧ ∀ style, a.render style = b.render style) ∧
    (∀ a b : Extended, (ofExtended a == ofExtended b) = true ↔ (a == b) = true) ∧
    (∀ a : Extended, (∀ leaf, ofExtended a ≠ .extended (.word leaf)) ∧
      ((ofExtended a).isWord = true ↔ ∃ leaf, a = .word leaf) ∧
      ((ofExtended a == .extended a) = true ↔ ¬ ∃ leaf, a = .word leaf)) ∧
    ∀ items : List Extended,
      (classes (items.map ofExtended)).encard = (classes items).encard ∧
      distinctCount (items.map ofExtended) = distinctCount items := by
  refine ⟨⟨fun _ => BEq.refl _, BEq.symm, BEq.trans⟩, fun _ _ => Extended.beq_iff_sameTree, ?_, ?_,
    fun _ _ h => ⟨Extended.kind_congr h, Extended.render_congr h⟩, fun _ _ => ofExtended_beq_iff,
    ?_, ?_⟩
  · intro kind x y
    rw [Extended.word_beq_iff]
    exact Ieee.Pattern.compare_eq_iff
  · intro kind x y
    rw [Extended.word_beq_iff]
    exact Ieee.Pattern.compare_eq_iff
  · intro a
    exact ⟨ofExtended_ne_extended_word, isWord_ofExtended_iff, ofExtended_beq_extended_iff⟩
  · intro items
    exact ⟨encard_classes_map_ofExtended items, distinctCount_map_ofExtended items⟩

/-- Two patterns of no number inside a list, next to a negated infinity. -/
theorem ofExtended_preserves_identity_negated :
    let value (bits : Nat) : Extended :=
      .sum (.product (.word ⟨.integer, .integer (-1)⟩) (.infinity .integer))
        (.word ⟨.list .float, .list [.float (.ofBits _ bits)]⟩)
    (value 0x7fc00001 == value 0xffffffff) = true ∧
      (value 0xffffffff).kind = .integer ∧
      (value 0xffffffff).render .typed = "-oo + [NaN] :: Integer" := by
  intro value
  have hequal : (value 0x7fc00001 == value 0xffffffff) = true := by decide
  obtain ⟨-, -, -, -, hcongr, -⟩ := ofExtended_preserves_identity
  obtain ⟨hkind, hrender⟩ := hcongr _ _ hequal
  refine ⟨hequal, hkind.symm, ?_⟩
  rw [← hrender]
  rfl

end Optimum
end SolverValues
