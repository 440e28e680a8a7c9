import Mathlib.Data.Set.Card
import SolverValues.Collection
import Std.Data.HashSet.Lemmas

/-!
Counting different keys in a hash set. As long as equal keys hash equally, what is counted is the
classes of equal keys, whatever the hash and in whichever order the keys come.
-/
namespace SolverValues

/-- Having equal keys is an equivalence. -/
theorem equivBEq_of_key {α β : Type} [BEq α] (key : α → β)
    (h : ∀ a b : α, (a == b) = true ↔ key a = key b) : EquivBEq α where
  rfl {a} := (h a a).mpr rfl
  symm {a b} hab := (h b a).mpr ((h a b).mp hab).symm
  trans {a b c} hab hbc := (h a c).mpr (((h a b).mp hab).trans ((h b c).mp hbc))

/-- Functions that identify the same elements of a set have images of one size. -/
theorem encard_image_eq_of_iff {α β γ : Type} {f : α → β} {g : α → γ} {s : Set α}
    (h : ∀ a ∈ s, ∀ b ∈ s, f a = f b ↔ g a = g b) : (f '' s).encard = (g '' s).encard := by
  obtain ⟨t, hts, hf⟩ := Set.exists_subset_bijOn s f
  have hg : Set.BijOn g t (g '' s) := by
    refine ⟨fun a ha => Set.mem_image_of_mem g (hts ha), ?_, ?_⟩
    · intro a ha b hb hab
      exact hf.injOn ha hb ((h a (hts ha) b (hts hb)).mpr hab)
    · rintro _ ⟨a, ha, rfl⟩
      obtain ⟨b, hb, hab⟩ := hf.surjOn (Set.mem_image_of_mem f ha)
      exact ⟨b, hb, (h b (hts hb) a ha).mp hab⟩
  rw [← hf.image_eq, ← hg.image_eq, hf.injOn.encard_image, hg.injOn.encard_image]

section Classes

variable {α : Type} [BEq α]

/-- The items that are equal to `a`. -/
def classOf (items : List α) (a : α) : Set α := {b | b ∈ items ∧ (b == a) = true}

/-- The classes of equal items. -/
def classes (items : List α) : Set (Set α) := classOf items '' {a | a ∈ items}

variable [EquivBEq α] {items : List α} {a b : α}

theorem contains_of_mem (h : a ∈ items) : items.contains a = true :=
  List.contains_iff_exists_mem_beq.mpr ⟨a, h, BEq.refl a⟩

theorem classOf_congr (h : (a == b) = true) : classOf items a = classOf items b := by
  ext c
  exact and_congr_right fun _ => ⟨fun hca => BEq.trans hca h, fun hcb => BEq.trans hcb (BEq.symm h)⟩

theorem beq_of_classOf_eq (ha : items.contains a = true) (h : classOf items a = classOf items b) :
    (a == b) = true := by
  obtain ⟨c, hc, hac⟩ := List.contains_iff_exists_mem_beq.mp ha
  have hca : c ∈ classOf items a := ⟨hc, BEq.symm hac⟩
  rw [h] at hca
  exact BEq.trans hac hca.2

theorem classOf_eq_iff (ha : a ∈ items) :
    classOf items a = classOf items b ↔ (a == b) = true :=
  ⟨beq_of_classOf_eq (contains_of_mem ha), classOf_congr⟩

theorem image_classOf_subset {xs ys : List α} (h : ∀ a ∈ xs, ys.contains a = true) :
    classOf items '' {a | a ∈ xs} ⊆ classOf items '' {a | a ∈ ys} := by
  rintro _ ⟨a, ha, rfl⟩
  obtain ⟨b, hb, hab⟩ := List.contains_iff_exists_mem_beq.mp (h a ha)
  exact ⟨b, hb, (classOf_congr hab).symm⟩

/-- A list that holds one item of each class, up to equality, is as long as there are classes. -/
theorem encard_classes {chosen : List α}
    (hmem : ∀ a, chosen.contains a = items.contains a)
    (hdistinct : chosen.Pairwise fun a b => (a == b) = false) :
    (classes items).encard = chosen.length := by
  classical
  have hitems (a : α) (ha : a ∈ chosen) : items.contains a = true := hmem a ▸ contains_of_mem ha
  have hchosen (a : α) (ha : a ∈ items) : chosen.contains a = true :=
    (hmem a).symm ▸ contains_of_mem ha
  have hclasses : classes items = classOf items '' {a | a ∈ chosen} :=
    (image_classOf_subset hchosen).antisymm (image_classOf_subset hitems)
  have hnodup : chosen.Nodup := hdistinct.imp fun hab heq => by simp [heq] at hab
  have hinj : Set.InjOn (classOf items) {a | a ∈ chosen} := by
    intro a ha b hb hab
    have hsymm : Std.Symm fun a b : α => (a == b) = false := ⟨fun _ _ => BEq.symm_false⟩
    by_contra hne
    exact Bool.false_ne_true <|
      (hdistinct.forall ha hb hne).symm.trans (beq_of_classOf_eq (hitems a ha) hab)
  rw [hclasses, hinj.encard_image, ← List.coe_toFinset, Set.encard_coe_eq_coe_finsetCard,
    List.toFinset_card_of_nodup hnodup]

/-- A map that neither joins nor splits classes keeps their number. -/
theorem encard_classes_map {β : Type} [BEq β] [EquivBEq β] {f : α → β}
    (hf : ∀ a b, (f a == f b) = true ↔ (a == b) = true) (items : List α) :
    (classes (items.map f)).encard = (classes items).encard := by
  have hclasses : classes (items.map f) =
      (fun a => classOf (items.map f) (f a)) '' {a | a ∈ items} := by
    ext c
    simp [classes]
  rw [hclasses]
  apply encard_image_eq_of_iff
  intro a ha b _
  rw [classOf_eq_iff (List.mem_map_of_mem ha), classOf_eq_iff ha, hf]

variable [Hashable α] [LawfulHashable α]

/-- A hash set holds one item of each class. -/
theorem encard_classes_eq_distinctCount (items : List α) :
    (classes items).encard = distinctCount items := by
  have hmem (a : α) : (Std.HashSet.ofList items).toList.contains a = items.contains a := by
    rw [Std.HashSet.contains_toList, Std.HashSet.contains_ofList]
  rw [encard_classes hmem Std.HashSet.distinct_toList, Std.HashSet.length_toList]
  rfl

end Classes

end SolverValues
