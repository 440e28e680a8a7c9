import SolverValues.Proofs.Text.Quoted
import SolverValues.Proofs.Word.Numeral

/-!
Texts of reported reals. A report is known by its text but for the terms of coefficient zero: the
first character tells roots from numbers, the dots tell approximations from exact numbers, and a
root's index, terms and approximation end where a character stands that they do not have.
-/
namespace SolverValues

/-- What is written for a coefficient. One is left out before the unknown. -/
def Term.coefficientChars (t : Term) : List Char :=
  if t.exponent ≠ 0 ∧ t.coefficient = 1 then [] else t.coefficient.repr.toList

/-- What is written for a power of the unknown. -/
def Term.powerChars : Nat → List Char
  | 0 => []
  | 1 => ['x']
  | exponent => 'x' :: '^' :: Nat.toDigits 10 exponent

namespace Term

variable {t u : Term}

theorem toList_text (t : Term) : t.text.toList = t.coefficientChars ++ powerChars t.exponent := by
  obtain ⟨coefficient, exponent⟩ := t
  match exponent with
  | 0 => simp [text, coefficientChars, powerChars]
  | 1 => by_cases h : coefficient = 1 <;> simp [text, coefficientChars, powerChars, h]
  | exponent + 2 => by_cases h : coefficient = 1 <;> simp [text, coefficientChars, powerChars, h]

theorem isRationalChar_of_mem_coefficientChars {c : Char} (hc : c ∈ t.coefficientChars) :
    Text.isRationalChar c := by
  unfold coefficientChars at hc
  split at hc
  · cases hc
  · exact Text.isRationalChar_of_mem_repr _ c hc

theorem powerChars_injective : Function.Injective powerChars := by
  intro m n h
  match m, n with
  | 0, 0 | 1, 1 => rfl
  | 0, 1 | 1, 0 | 0, n + 2 | m + 2, 0 | 1, n + 2 | m + 2, 1 => simp [powerChars] at h
  | m + 2, n + 2 =>
    simp only [powerChars, List.cons.injEq, true_and] at h
    exact Text.toDigits_inj (by decide) (by decide) h

theorem coefficient_eq (hexponent : t.exponent = u.exponent)
    (h : t.coefficientChars = u.coefficientChars) : t.coefficient = u.coefficient := by
  unfold coefficientChars at h
  rw [hexponent] at h
  split at h
  · rename_i ht
    split at h
    · rename_i hu
      exact ht.2.trans hu.2.symm
    · exact (Text.repr_ne_nil _ h.symm).elim
  · split at h
    · exact (Text.repr_ne_nil _ h).elim
    · exact Text.repr_injective (String.toList_injective h)

/-- The coefficient ends where the unknown stands, or where the text does. -/
theorem text_injective : Function.Injective text := by
  intro t u h
  have htext : t.coefficientChars ++ powerChars t.exponent =
      u.coefficientChars ++ powerChars u.exponent := by
    rw [← toList_text, ← toList_text, h]
  have hfree (v : Term) : 'x' ∉ v.coefficientChars := fun hx =>
    absurd (isRationalChar_of_mem_coefficientChars hx) (by decide)
  have hstops (n : Nat) : Text.Stops (· == 'x') (powerChars n) := by
    match n with
    | 0 | 1 | n + 2 => rfl
  obtain ⟨hcoefficient, hpower⟩ := Text.append_inj_of_stops (Text.ne_of_notMem (hfree t))
    (Text.ne_of_notMem (hfree u)) (hstops _) (hstops _) htext
  have hexponent := powerChars_injective hpower
  have hvalue := coefficient_eq hexponent hcoefficient
  cases t
  cases u
  cases hexponent
  cases hvalue
  rfl

theorem text_ne_nil (t : Term) : t.text.toList ≠ [] := by
  rw [toList_text]
  intro h
  obtain ⟨hcoefficient, hpower⟩ := List.append_eq_nil_iff.mp h
  have hexponent : t.exponent = 0 := powerChars_injective hpower
  rw [coefficientChars, if_neg (by simp [hexponent])] at hcoefficient
  exact Text.repr_ne_nil _ hcoefficient

/-- The characters of terms. -/
def isTermChar (c : Char) : Bool := Text.isRationalChar c || ['x', '^'].contains c

theorem isTermChar_of_mem_text {c : Char} (hc : c ∈ t.text.toList) : isTermChar c := by
  have hrational {c : Char} (h : Text.isRationalChar c) : isTermChar c := by simp [isTermChar, h]
  rw [toList_text, List.mem_append] at hc
  rcases hc with hc | hc
  · exact hrational (isRationalChar_of_mem_coefficientChars hc)
  · match hexponent : t.exponent with
    | 0 => simp [hexponent, powerChars] at hc
    | 1 =>
      simp only [hexponent, powerChars, List.mem_singleton] at hc
      exact hc ▸ rfl
    | exponent + 2 =>
      simp only [hexponent, powerChars, List.mem_cons] at hc
      rcases hc with rfl | rfl | hc
      · rfl
      · rfl
      · exact hrational (Text.isRationalChar_of_decimal? (Text.decimal?_digits _) hc)

end Term

namespace ReportedReal

variable {p q : List Term}

/-- The terms of a polynomial that are not zero, or the constant zero where none is left. -/
def shownTerms (polynomial : List Term) : List Term :=
  match polynomial.filter (·.coefficient ≠ 0) with
  | [] => [⟨0, 0⟩]
  | terms => terms

theorem polynomialText_eq (p : List Term) :
    polynomialText p = Text.join " + " ((shownTerms p).map Term.text) := by
  rw [polynomialText, shownTerms]
  cases p.filter (·.coefficient ≠ 0) <;> rfl

theorem filter_eq_of_shownTerms_eq (h : shownTerms p = shownTerms q) :
    p.filter (·.coefficient ≠ 0) = q.filter (·.coefficient ≠ 0) := by
  have hzero (r : List Term) : r.filter (·.coefficient ≠ 0) ≠ [⟨0, 0⟩] := by
    intro hr
    have hmem : (⟨0, 0⟩ : Term) ∈ r.filter (·.coefficient ≠ 0) := hr ▸ List.mem_singleton_self _
    simp at hmem
  have hp := hzero p
  have hq := hzero q
  rw [shownTerms, shownTerms] at h
  cases hps : p.filter (·.coefficient ≠ 0) <;> cases hqs : q.filter (·.coefficient ≠ 0) <;>
    simp only [hps, hqs] at h hp hq ⊢
  case nil.cons => exact (hq h.symm).elim
  case cons.nil => exact (hp h).elim
  case cons.cons => exact h

theorem filter_eq_of_polynomialText_eq (h : polynomialText p = polynomialText q) :
    p.filter (·.coefficient ≠ 0) = q.filter (·.coefficient ≠ 0) := by
  have hitems (r : List Term) :
      ∀ x ∈ (shownTerms r).map Term.text, x.toList ≠ [] ∧ ' ' ∉ x.toList := by
    intro x hx
    obtain ⟨t, -, rfl⟩ := List.mem_map.mp hx
    exact ⟨t.text_ne_nil, fun hblank => absurd (Term.isTermChar_of_mem_text hblank) (by decide)⟩
  rw [polynomialText_eq, polynomialText_eq] at h
  apply filter_eq_of_shownTerms_eq
  apply List.map_injective_iff.mpr Term.text_injective
  exact Text.eq_of_join_eq rfl (hitems p) (hitems q) h

theorem equals_notMem_polynomialText (p : List Term) : '=' ∉ (polynomialText p).toList := by
  intro hequals
  rw [polynomialText_eq] at hequals
  rcases Text.mem_of_mem_join hequals with hseparator | ⟨x, hx, hchar⟩
  · exact absurd hseparator (by decide)
  · obtain ⟨t, -, rfl⟩ := List.mem_map.mp hx
    exact absurd (Term.isTermChar_of_mem_text hchar) (by decide)

/-- What is written after the equation of a root. -/
def approximationChars : Option String → List Char
  | none => []
  | some digits => " = ".toList ++ digits.toList ++ "...".toList

theorem approximationChars_injective : Function.Injective approximationChars := by
  intro a b h
  cases a with
  | none =>
    cases b with
    | none => rfl
    | some e => simp [approximationChars] at h
  | some d =>
    cases b with
    | none => simp [approximationChars] at h
    | some e =>
      have hdigits := List.append_cancel_left (List.append_cancel_right h)
      rw [String.toList_injective hdigits]

theorem toList_text_root (index : Int) (p : List Term) (a : Option String) :
    (root index p a).text.toList = "root(".toList ++ (index.repr.toList ++
      ',' :: ' ' :: ((polynomialText p).toList ++ [' '] ++
        '=' :: ' ' :: '0' :: ')' :: approximationChars a)) := by
  cases a <;> simp [text, approximationChars]

/-- A comma ends the index and an equals sign the polynomial, and neither holds one. -/
theorem root_text_eq {i j : Int} {a b : Option String} (h : (root i p a).text = (root j q b).text) :
    i = j ∧ p.filter (·.coefficient ≠ 0) = q.filter (·.coefficient ≠ 0) ∧ a = b := by
  have htext : (root i p a).text.toList = (root j q b).text.toList := by rw [h]
  have hindex (n : Int) : ',' ∉ n.repr.toList := fun hcomma =>
    absurd (Text.isRationalChar_of_mem_repr n ',' hcomma) (by decide)
  have hpolynomial (r : List Term) : '=' ∉ (polynomialText r).toList ++ [' '] := by
    simpa using equals_notMem_polynomialText r
  rw [toList_text_root, toList_text_root] at htext
  obtain ⟨hij, hrest⟩ :=
    Text.append_cons_inj (hindex i) (hindex j) (List.append_cancel_left htext)
  obtain ⟨hpq, hrest⟩ :=
    Text.append_cons_inj (hpolynomial p) (hpolynomial q) (List.cons.inj hrest).2
  have hterms := String.toList_injective (List.append_cancel_right hpq)
  simp only [List.cons.injEq, true_and] at hrest
  exact ⟨Text.repr_injective (String.toList_injective hij), filter_eq_of_polynomialText_eq hterms,
    approximationChars_injective hrest⟩

theorem isNumeral_or_root (r : ReportedReal) :
    (⟨.real, .real r⟩ : Word).IsNumeral ∨ ∃ i p a, r = root i p a := by
  cases r with
  | exact q => exact .inl (.exact q)
  | approximate q => exact .inl (.approximate q)
  | root i p a => exact .inr ⟨i, p, a, rfl⟩

/-- No number is written with a letter. -/
theorem root_text_ne {r : ReportedReal} (hr : (⟨.real, .real r⟩ : Word).IsNumeral) (i : Int)
    (p : List Term) (a : Option String) : (root i p a).text ≠ r.text := by
  intro h
  have hletter : 'r' ∈ r.text.toList := by
    rw [← h, toList_text_root]
    exact List.mem_cons_self
  exact absurd (hr.isRationalChar 'r' hletter) (by decide)

/-- The reports are the same but for terms of coefficient zero. -/
def Alike : ReportedReal → ReportedReal → Prop
  | .exact r, .exact s => r = s
  | .approximate r, .approximate s => r = s
  | .root i p a, .root j q b =>
    i = j ∧ p.filter (·.coefficient ≠ 0) = q.filter (·.coefficient ≠ 0) ∧ a = b
  | _, _ => False

theorem Alike.refl (r : ReportedReal) : r.Alike r := by
  cases r with
  | root => exact ⟨rfl, rfl, rfl⟩
  | _ => rfl

theorem Alike.text_eq {r s : ReportedReal} (h : r.Alike s) : r.text = s.text := by
  cases r <;> cases s <;> try exact h.elim
  case exact.exact | approximate.approximate =>
    cases h
    rfl
  case root.root i p a j q b =>
    obtain ⟨rfl, hpolynomial, rfl⟩ := h
    have htext : polynomialText p = polynomialText q := by
      rw [polynomialText, polynomialText, hpolynomial]
    simp only [text, htext]

/-- Reports have the same text just when they are the same but for terms of coefficient zero. -/
theorem text_eq_iff_alike (r s : ReportedReal) : r.text = s.text ↔ r.Alike s := by
  refine ⟨fun h => ?_, Alike.text_eq⟩
  rcases isNumeral_or_root r with hr | ⟨i, p, a, rfl⟩ <;>
    rcases isNumeral_or_root s with hs | ⟨j, q, b, rfl⟩
  · have hword := hr.eq_of_text_eq hs rfl h
    cases hword
    exact .refl r
  · exact (root_text_ne hr j q b h.symm).elim
  · exact (root_text_ne hs i p a h).elim
  · exact root_text_eq h

/-- An approximation may be any text, even one that looks like the end of the root. -/
example : (root 1 [⟨1, 2⟩, ⟨0, 1⟩, ⟨-2, 0⟩] (some "1.4) = ")).text =
    "root(1, x^2 + -2 = 0) = 1.4) = ..." := by decide +kernel

end ReportedReal
end SolverValues
