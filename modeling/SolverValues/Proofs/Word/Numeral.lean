import SolverValues.Proofs.Formula.Factor
import SolverValues.Word.Basic

/-!
Numerals: words that are integers, or reals in digits. Their texts hold digits, signs and points only,
and two numerals of one kind with the same text are the same.
-/
namespace SolverValues

/-- Words that are integers, or reals that are exact or approximate. -/
inductive Word.IsNumeral : Word → Prop where
  | integer (n : Int) : IsNumeral ⟨.integer, .integer n⟩
  | bitVector (signed : Bool) (width : UInt64) (n : Int) :
    IsNumeral ⟨.bitVector signed width, .integer n⟩
  | exact (q : Rat) : IsNumeral ⟨.real, .real (.exact q)⟩
  | approximate (q : Rat) : IsNumeral ⟨.real, .real (.approximate q)⟩

/-- Numerals of kind `k`. -/
def Word.IsNumeralOf (k : Kind) (w : Word) : Prop := w.kind = k ∧ w.IsNumeral

theorem Word.render_approximate (q : Rat) :
    ((⟨.real, .real (.approximate q)⟩ : Word).render .bare).toList =
      (Text.rational q).toList ++ ['.', '.', '.'] := by
  have htext : (⟨.real, .real (.approximate q)⟩ : Word).render .bare = Text.rational q ++ "..." := rfl
  rw [htext, String.toList_append]
  rfl

theorem Word.IsNumeral.isRationalChar {w : Word} (h : w.IsNumeral) :
    ∀ c ∈ (w.render .bare).toList, Text.isRationalChar c := by
  cases h with
  | integer n => exact Text.isRationalChar_of_mem_repr n
  | bitVector signed width n => exact Text.isRationalChar_of_mem_repr n
  | exact q => exact Text.isRationalChar_of_mem_rational q
  | approximate q =>
    intro c hc
    rw [Word.render_approximate, List.mem_append] at hc
    rcases hc with hc | hc
    · exact Text.isRationalChar_of_mem_rational q c hc
    · have hpoint : c = '.' := by simpa using hc
      rw [hpoint]
      rfl

theorem Word.IsNumeral.render_ne_nil {w : Word} (h : w.IsNumeral) :
    (w.render .bare).toList ≠ [] := by
  cases h with
  | integer n => exact Text.repr_ne_nil n
  | bitVector signed width n => exact Text.repr_ne_nil n
  | exact q => exact Text.rational_ne_nil q
  | approximate q =>
    rw [Word.render_approximate]
    exact List.append_ne_nil_of_left_ne_nil (Text.rational_ne_nil q) _

/-- The text of an approximation has three points and that of an exact number one at most. -/
theorem Text.rational_ne_approximate (q r : Rat) : rational q ≠ rational r ++ "..." := by
  intro h
  have hcount := count_point_rational q
  rw [h, String.toList_append, List.count_append] at hcount
  have hpoints : "...".toList.count '.' = 3 := by decide
  omega

/-- Numerals of one kind differ in their texts. -/
theorem Word.IsNumeral.eq_of_text_eq {v w : Word} (hv : v.IsNumeral) (hw : w.IsNumeral)
    (hkind : v.kind = w.kind) (h : v.render .bare = w.render .bare) : v = w := by
  cases hv <;> cases hw <;> cases hkind
  case integer.integer.refl n m =>
    rw [Text.repr_injective (show n.repr = m.repr from h)]
  case bitVector.bitVector.refl signed width n m =>
    rw [Text.repr_injective (show n.repr = m.repr from h)]
  case exact.exact.refl q r =>
    rw [Text.rational_injective (show Text.rational q = Text.rational r from h)]
  case exact.approximate.refl q r => exact (Text.rational_ne_approximate q r h).elim
  case approximate.exact.refl q r => exact (Text.rational_ne_approximate r q h.symm).elim
  case approximate.approximate.refl q r =>
    have htext := (String.append_left_inj "...").mp h
    rw [Text.rational_injective htext]

end SolverValues
