import SolverValues.Proofs.Constant.Order
import SolverValues.Proofs.Text.Quoted
import SolverValues.Proofs.Word.Numeral

/-!
Literals of a kind. Constants that fit a kind have the same literal just when they are equal, as long
as no part of them is a floating-point number. It does not matter which characters are hidden.
-/
namespace SolverValues

/-- All patterns of no number have one text. -/
theorem Ieee.Pattern.text_canonical {f : Format} (hf : f.HasNaN) (x : Pattern f) :
    x.canonical.text = x.text := by
  by_cases h : x.isNaN
  · rw [text, isNaN_canonical hf, text, if_pos h, if_pos h]
  · rw [canonical, if_neg h]

/-- A numeral holds no comma and no bracket. -/
theorem Word.separable_isNumeralOf (k : Kind) :
    Text.Separable (Word.IsNumeralOf k) fun w => w.render .bare := by
  refine .of_free (fun w hw => hw.2.render_ne_nil) ?_ ?_
  · intro w hw c hc hends
    have hrational := hw.2.isRationalChar c hc
    simp only [Text.endsItem, Bool.or_eq_true, beq_iff_eq] at hends
    rcases hends with rfl | rfl <;> exact absurd hrational (by decide)
  · intro v w hv hw heq
    exact hv.2.eq_of_text_eq hw.2 (hv.1.trans hw.1.symm) heq

namespace Constant

/-- Constants that fit a kind, in lists at every depth, and have a literal of their own there: truth
values are zero or one, reals are in digits, and there are no floating-point numbers. -/
inductive FitsLiteral : Kind → Constant → Prop where
  | false : FitsLiteral .bool (.integer 0)
  | true : FitsLiteral .bool (.integer 1)
  | bitVector (signed : Bool) (width : UInt64) (n : Int) :
    FitsLiteral (.bitVector signed width) (.integer n)
  | integer (n : Int) : FitsLiteral .integer (.integer n)
  | exact (q : Rat) : FitsLiteral .real (.real (.exact q))
  | approximate (q : Rat) : FitsLiteral .real (.real (.approximate q))
  | char (c : Char) : FitsLiteral .char (.char c)
  | string (s : String) : FitsLiteral .string (.string s)
  | list {element : Kind} {cs : List Constant} (h : ∀ c ∈ cs, FitsLiteral element c) :
    FitsLiteral (.list element) (.list cs)

variable {hidden : Char → Bool} {k : Kind} {c d : Constant}

/-- What a literal quotes. -/
def quotedChars : Constant → List Char
  | .char c => [c]
  | .string s => s.toList
  | _ => []

theorem literals_eq_map (hidden : Char → Bool) (k : Kind) (cs : List Constant) :
    literals hidden k cs = cs.map (literal hidden k) := by
  induction cs with
  | nil => rfl
  | cons c cs ih => rw [literals, ih, List.map_cons]

/-- A literal does not show which pattern of no number a constant holds. -/
theorem literal_canonical (hidden : Char → Bool) (k : Kind) (c : Constant) :
    c.canonical.literal hidden k = c.literal hidden k := by
  induction c using elements_induction generalizing k with
  | step c ih =>
    cases c with
    | list cs =>
      have hcs : (cs.map canonical).map (literal hidden k.elementKind) =
          cs.map (literal hidden k.elementKind) := by
        rw [List.map_map]
        exact List.map_congr_left fun c hc => ih c hc k.elementKind
      rw [canonical, literal, literal, canonicalAll_eq_map, literals_eq_map, literals_eq_map, hcs]
    | float x => rw [canonical, literal, literal, Ieee.Pattern.text_canonical Ieee.binary32_hasNaN]
    | double x => rw [canonical, literal, literal, Ieee.Pattern.text_canonical Ieee.binary64_hasNaN]
    | _ => rfl

theorem literal_list (hidden : Char → Bool) (k : Kind) (cs : List Constant) :
    literal hidden (.list k) (.list cs) = Text.listText (literal hidden k) cs := by
  rw [literal, literals_eq_map]
  rfl

theorem separable_truth (hidden : Char → Bool) :
    Text.Separable (FitsLiteral .bool) (literal hidden .bool) := by
  have hfalse : literal hidden .bool (.integer 0) = "False" := rfl
  have htrue : literal hidden .bool (.integer 1) = "True" := rfl
  refine .of_free ?_ ?_ ?_
  · intro c hc
    cases hc with
    | false => exact hfalse ▸ by decide
    | true => exact htrue ▸ by decide
  · intro c hc
    cases hc with
    | false => simp [hfalse, Text.endsItem]
    | true => simp [htrue, Text.endsItem]
  · intro c d hc hd heq
    cases hc <;> cases hd <;> simp_all

theorem separable_numeral (hidden : Char → Bool)
    (h : ∀ c, FitsLiteral k c → (⟨k, c⟩ : Word).IsNumeral) :
    Text.Separable (FitsLiteral k) (literal hidden k) := by
  have htext (c : Constant) (hc : FitsLiteral k c) :
      c.literal hidden k = (⟨k, c⟩ : Word).render .bare := by
    cases h c hc <;> rfl
  refine (Word.separable_isNumeralOf k).of_payload (fun c => ⟨k, c⟩) ?_ ?_
  · intro c hc
    exact ⟨⟨rfl, h c hc⟩, htext c hc⟩
  · intro c d _ _ heq
    exact (Word.mk.inj heq).2

/-- The literal of a constant tells the constant and where it ends. -/
theorem separable_literal (hidden : Char → Bool) (k : Kind) :
    Text.Separable (FitsLiteral k) (literal hidden k) := by
  induction k with
  | bool => exact separable_truth hidden
  | bitVector signed width =>
    refine separable_numeral hidden fun c hc => ?_
    cases hc with
    | bitVector _ _ n => exact .bitVector signed width n
  | integer =>
    refine separable_numeral hidden fun c hc => ?_
    cases hc with
    | integer n => exact .integer n
  | real =>
    refine separable_numeral hidden fun c hc => ?_
    cases hc with
    | exact q => exact .exact q
    | approximate q => exact .approximate q
  | char =>
    refine (Text.separable_enclose hidden (.inr rfl)).of_payload quotedChars ?_ ?_
    · rintro _ ⟨x⟩
      exact ⟨trivial, rfl⟩
    · rintro _ _ ⟨x⟩ ⟨y⟩ heq
      rw [(List.cons.inj heq).1]
  | string =>
    refine (Text.separable_enclose hidden (.inl rfl)).of_payload quotedChars ?_ ?_
    · rintro _ ⟨s⟩
      exact ⟨trivial, rfl⟩
    · rintro _ _ ⟨s⟩ ⟨t⟩ heq
      rw [String.toList_injective heq]
  | list element ih =>
    refine ih.list.of_payload elements ?_ ?_
    · intro c hc
      cases hc with
      | list h => exact ⟨h, literal_list hidden element _⟩
    · intro c d hc hd heq
      cases hc with
      | list h =>
        cases hd with
        | list h' => exact congrArg Constant.list heq
  | float | double | user => exact ⟨nofun, nofun⟩

theorem canonical_of_fitsLiteral (h : FitsLiteral k c) : c.canonical = c := by
  induction h with
  | @list element cs h ih =>
    have hself : cs.map canonical = cs :=
      (List.map_congr_left (g := id) ih).trans (List.map_id cs)
    rw [canonical, canonicalAll_eq_map, hself]
  | _ => rfl

/-- Constants that fit a kind have the same literal just when they are equal. -/
theorem literal_eq_iff (hidden : Char → Bool) (hc : FitsLiteral k c) (hd : FitsLiteral k d) :
    c.literal hidden k = d.literal hidden k ↔ (c == d) = true := by
  rw [beq_eq_true_iff]
  constructor
  · intro h
    rw [(separable_literal hidden k).eq_of_text_eq hc hd h]
    exact Std.ReflCmp.compare_self
  · intro h
    have hcanonical : c.canonical = d.canonical := (compare_eq_iff c d).mp h
    rw [canonical_of_fitsLiteral hc, canonical_of_fitsLiteral hd] at hcanonical
    rw [hcanonical]

/-- One string that quotes the end of a string and the start of another is not taken for two. -/
theorem literal_eq_iff_quotes :
    let one := list [list [string "a\", \"b"], list []]
    let two := list [list [string "a", string "b"], list []]
    FitsLiteral (.list (.list .string)) one ∧ FitsLiteral (.list (.list .string)) two ∧
      one.literal ('~' < ·) (.list (.list .string)) ≠ two.literal ('~' < ·) (.list (.list .string)) := by
  intro one two
  have hstrings (ss : List String) : FitsLiteral (.list .string) (list (ss.map string)) := by
    refine .list fun c hc => ?_
    obtain ⟨s, -, rfl⟩ := List.mem_map.mp hc
    exact .string s
  have hone : FitsLiteral (.list (.list .string)) one := .list <| by
    simpa using ⟨hstrings ["a\", \"b"], hstrings []⟩
  have htwo : FitsLiteral (.list (.list .string)) two := .list <| by
    simpa using ⟨hstrings ["a", "b"], hstrings []⟩
  refine ⟨hone, htwo, ?_⟩
  rw [Ne, literal_eq_iff _ hone htwo]
  decide

end Constant
end SolverValues
