import SolverValues.Proofs.Word.Expression
import SolverValues.Proofs.Word.Suited

/-!
Handlers applied to words. A handler is used by the one function that it has for the variant of the
payloads. Whether there is such a function, and what goes wrong otherwise, is up to the words alone.
-/
namespace SolverValues

open Constant (SameVariant)

universe u

variable {α β : Type u} {a b c : Constant}

/-- The handler's function for the variant of both constants gives the result, in their order. -/
inductive PairCases.Gives (h : PairCases β) : Constant → Constant → β → Prop where
  | real (a b : ReportedReal) : Gives h (.real a) (.real b) (h.real a b)
  | integer (a b : Int) : Gives h (.integer a) (.integer b) (h.integer a b)
  | float (a b : Ieee.Binary32) : Gives h (.float a) (.float b) (h.float a b)
  | double (a b : Ieee.Binary64) : Gives h (.double a) (.double b) (h.double a b)
  | char (a b : Char) : Gives h (.char a) (.char b) (h.char a b)
  | string (a b : String) : Gives h (.string a) (.string b) (h.string a b)
  | list (as bs : List Constant) : Gives h (.list as) (.list bs) (h.list as bs)
  | user (i j : Option Nat) (a b : String) :
    Gives h (.user i a) (.user j b) (h.user (i, a) (j, b))

/-- The handler's function for the constant's variant gives the result. -/
inductive Transform.Gives (h : Transform) : Constant → Constant → Prop where
  | real (a : ReportedReal) : Gives h (.real a) (.real (h.real a))
  | integer (a : Int) : Gives h (.integer a) (.integer (h.integer a))
  | float (a : Ieee.Binary32) : Gives h (.float a) (.float (h.float a))
  | double (a : Ieee.Binary64) : Gives h (.double a) (.double (h.double a))
  | char (a : Char) : Gives h (.char a) (.char (h.char a))
  | string (a : String) : Gives h (.string a) (.string (h.string a))
  | user (i : Option Nat) (a : String) :
    Gives h (.user i a) (.user (h.user (i, a)).1 (h.user (i, a)).2)

/-- The handler's function for the variant of both constants gives the result, in their order. -/
inductive Combine.Gives (h : Combine) : Constant → Constant → Constant → Prop where
  | real (a b : ReportedReal) : Gives h (.real a) (.real b) (.real (h.real a b))
  | integer (a b : Int) : Gives h (.integer a) (.integer b) (.integer (h.integer a b))
  | float (a b : Ieee.Binary32) : Gives h (.float a) (.float b) (.float (h.float a b))
  | double (a b : Ieee.Binary64) : Gives h (.double a) (.double b) (.double (h.double a b))
  | char (a b : Char) : Gives h (.char a) (.char b) (.char (h.char a b))
  | string (a b : String) : Gives h (.string a) (.string b) (.string (h.string a b))
  | user (i j : Option Nat) (a b : String) :
    Gives h (.user i a) (.user j b) (.user (h.user (i, a) (j, b)).1 (h.user (i, a) (j, b)).2)

/-- An outcome that succeeds just where it is admitted, with a result as `gives` says, and is the
same fault everywhere else. -/
structure Decided (outcome : Except Fault α) (admitted : Prop) (gives : α → Prop)
    (fault : Fault) : Prop where
  ok_iff : (∃ result, outcome = .ok result) ↔ admitted
  gives_of_ok : ∀ result, outcome = .ok result → gives result
  error_iff : ∀ other, outcome = .error other ↔ ¬ admitted ∧ other = fault

/-- A word made of `c` in the place of `w`: of the same kind and variant, and normal. -/
structure Word.Remade (w : Word) (c : Constant) (made : Word) : Prop where
  eq_make : made = make w.kind c
  kind_eq : made.kind = w.kind
  sameVariant : SameVariant w.value made.value
  normal : made.isNormal

theorem Decided.of_elim {result? : Option α} {admitted : Prop} {gives : α → Prop} {fault : Fault}
    (hsome : (∃ result, result? = some result) ↔ admitted)
    (hgives : ∀ result, result? = some result → gives result) :
    Decided (result?.elim (.error fault) .ok) admitted gives fault := by
  cases result? with
  | none =>
    have hnot : ¬ admitted := fun h => by simpa using hsome.mpr h
    exact ⟨by simpa using hnot, by simp, by simp [hnot, eq_comm]⟩
  | some result =>
    have hadmitted : admitted := hsome.mp ⟨result, rfl⟩
    refine ⟨by simpa using hadmitted, ?_, by simp [hadmitted]⟩
    rintro _ ⟨⟩
    exact hgives result rfl

theorem PairCases.onPair_eq_some_iff {h : PairCases β} {result : β} :
    h.onPair a b = some result ↔ h.Gives a b result := by
  constructor
  · intro hresult
    cases a <;> cases b <;> simp only [onPair, Option.some.injEq, reduceCtorEq] at hresult <;>
      subst hresult <;> constructor
  · intro hgives
    cases hgives <;> rfl

theorem PairCases.exists_gives_iff (h : PairCases β) :
    (∃ result, h.Gives a b result) ↔ SameVariant a b := by
  constructor
  · rintro ⟨result, hgives⟩
    cases hgives <;> constructor
  · intro hsame
    cases hsame <;> exact ⟨_, by constructor⟩

theorem Transform.onScalar_eq_some_iff {h : Transform} : h.onScalar a = some c ↔ h.Gives a c := by
  constructor
  · intro hresult
    cases a <;> simp only [onScalar, Option.some.injEq, reduceCtorEq] at hresult <;>
      subst hresult <;> constructor
  · intro hgives
    cases hgives <;> rfl

theorem Transform.exists_gives_iff (h : Transform) :
    (∃ c, h.Gives a c) ↔ ∀ elements, a ≠ .list elements := by
  constructor
  · rintro ⟨c, hgives⟩
    cases hgives <;> simp
  · intro hscalar
    cases a with
    | list elements => exact (hscalar elements rfl).elim
    | _ => exact ⟨_, by constructor⟩

theorem Transform.Gives.sameVariant {h : Transform} (hgives : h.Gives a c) : SameVariant a c := by
  cases hgives <;> constructor

theorem Combine.onPair_eq_some_iff {h : Combine} : h.onPair a b = some c ↔ h.Gives a b c := by
  constructor
  · intro hresult
    cases a <;> cases b <;> simp only [onPair, Option.some.injEq, reduceCtorEq] at hresult <;>
      subst hresult <;> constructor
  · intro hgives
    cases hgives <;> rfl

theorem Combine.exists_gives_iff (h : Combine) :
    (∃ c, h.Gives a b c) ↔ SameVariant a b ∧ ∀ elements, a ≠ .list elements := by
  constructor
  · rintro ⟨c, hgives⟩
    cases hgives <;> exact ⟨by constructor, by simp⟩
  · rintro ⟨hsame, hscalar⟩
    cases hsame with
    | list as bs => exact (hscalar as rfl).elim
    | _ => exact ⟨_, by constructor⟩

theorem Combine.Gives.sameVariant {h : Combine} (hgives : h.Gives a b c) : SameVariant a c := by
  cases hgives <;> constructor

namespace Word

variable {w l r : Word}

theorem kind_make (k : Kind) (c : Constant) : (make k c).kind = k := by
  cases c with
  | integer v => rw [make_integer]
  | _ => rw [make_of_not_integer (by simp)]

/-- Only integers are changed when a word is made, and into integers. -/
theorem sameVariant_make (h : SameVariant a c) (k : Kind) : SameVariant a (make k c).value := by
  cases h with
  | integer v v' =>
    rw [make_integer]
    exact .integer v _
  | _ =>
    rw [make_of_not_integer (by simp)]
    constructor

theorem remade_make (h : SameVariant w.value c) : w.Remade c (make w.kind c) where
  eq_make := rfl
  kind_eq := kind_make w.kind c
  sameVariant := sameVariant_make h w.kind
  normal := isNormal_make w.kind c

theorem result_orMismatch (operation : Operation) (l r : Word) (result? : Option β) :
    (orMismatch operation l r result?).result =
      result?.elim (.error (.mismatched operation l.kind r.kind)) .ok := by
  cases result? <;> rfl

theorem decided_lift₂ (h : PairCases β) (l r : Word) :
    Decided (l.lift₂ h r).result (SameVariant l.value r.value) (h.Gives l.value r.value)
      (.mismatched .binaryLift l.kind r.kind) := by
  rw [lift₂, result_orMismatch]
  apply Decided.of_elim
  · simp only [PairCases.onPair_eq_some_iff, PairCases.exists_gives_iff]
  · exact fun result hresult => PairCases.onPair_eq_some_iff.mp hresult

theorem decided_map₂ (h : Combine) (l r : Word) :
    Decided (l.map₂ h r).result
      (l.kind = r.kind ∧ SameVariant l.value r.value ∧ ∀ elements, l.value ≠ .list elements)
      (fun made => ∃ c, h.Gives l.value r.value c ∧ l.Remade c made)
      (.mismatched .binaryMap l.kind r.kind) := by
  have hkind : l.sameKind r = true ↔ l.kind = r.kind := beq_iff_eq
  rw [map₂, result_orMismatch]
  apply Decided.of_elim
  · by_cases heq : l.kind = r.kind <;>
      simp [hkind, heq, Combine.onPair_eq_some_iff, Combine.exists_gives_iff]
  · intro made hmade
    split at hmade
    · obtain ⟨c, hc, rfl⟩ := Option.map_eq_some_iff.mp hmade
      have hgives := Combine.onPair_eq_some_iff.mp hc
      exact ⟨c, hgives, remade_make hgives.sameVariant⟩
    · cases hmade

theorem decided_map (h : Transform) (w : Word) :
    Decided (w.map h) (∀ elements, w.value ≠ .list elements)
      (fun made => ∃ c, h.Gives w.value c ∧ w.Remade c made)
      (.unsupported .elementwiseMap w.kind) := by
  have hmap : w.map h = ((h.onScalar w.value).map (make w.kind)).elim
      (.error (.unsupported .elementwiseMap w.kind)) .ok := by
    unfold map
    cases h.onScalar w.value <;> rfl
  rw [hmap]
  apply Decided.of_elim
  · simp [Transform.onScalar_eq_some_iff, Transform.exists_gives_iff]
  · intro made hmade
    obtain ⟨c, hc, rfl⟩ := Option.map_eq_some_iff.mp hmade
    have hgives := Transform.onScalar_eq_some_iff.mp hc
    exact ⟨c, hgives, remade_make hgives.sameVariant⟩

/-- Lifting a handler of two succeeds just on words of one variant, whatever their kinds. Mapping
with one needs equal kinds too, and no lists; mapping one word needs that it is no list. The result
is what the handler's function for the variant gives, made into a word of the same kind and variant,
and normal, if it is a mapped one. Otherwise the fault says the operation and the kinds in order. -/
theorem handlers_decided (l r : Word) :
    (∀ (β : Type u) (h : PairCases β),
      Decided (l.lift₂ h r).result (SameVariant l.value r.value) (h.Gives l.value r.value)
        (.mismatched .binaryLift l.kind r.kind)) ∧
    (∀ h : Combine,
      Decided (l.map₂ h r).result
        (l.kind = r.kind ∧ SameVariant l.value r.value ∧ ∀ elements, l.value ≠ .list elements)
        (fun made => ∃ c, h.Gives l.value r.value c ∧ l.Remade c made)
        (.mismatched .binaryMap l.kind r.kind)) ∧
    (∀ h : Transform,
      Decided (l.map h) (∀ elements, l.value ≠ .list elements)
        (fun made => ∃ c, h.Gives l.value c ∧ l.Remade c made)
        (.unsupported .elementwiseMap l.kind)) ∧
    (Fault.mismatched .binaryLift l.kind r.kind).message =
      "mismatched kinds: binary lift applied to " ++ l.kind.name ++ " and " ++ r.kind.name ∧
    (Fault.mismatched .binaryMap l.kind r.kind).message =
      "mismatched kinds: binary map applied to " ++ l.kind.name ++ " and " ++ r.kind.name ∧
    (Fault.unsupported .elementwiseMap l.kind).message =
      "unsupported operation: element-wise map is not defined for kind " ++ l.kind.name :=
  ⟨fun _ h => decided_lift₂ h l r, fun h => decided_map₂ h l r, fun h => decided_map h l,
    rfl, rfl, rfl⟩

/-- Two strings at kinds that do not fit them, a difference that wraps, and a list with itself. -/
theorem handlers_decided_wraps :
    (∃ text, ((⟨.bool, .string "a"⟩ : Word).lift₂
      (⟨fun _ _ => "", fun _ _ => "", fun _ _ => "", fun _ _ => "", fun _ _ => "",
        fun a b => a ++ b, fun _ _ => "", fun _ _ => ""⟩ : PairCases String)
      ⟨.char, .string "b"⟩).result = .ok text ∧ text = "ab") ∧
    (∃ made, ((⟨.word 8, .integer 1⟩ : Word).map₂ (default : Operator.sub.Handler).combine
      ⟨.word 8, .integer 2⟩).result = .ok made ∧ made = ⟨.word 8, .integer 255⟩) ∧
    ((⟨.list .char, .list []⟩ : Word).map₂ (default : Operator.sub.Handler).combine
      ⟨.list .char, .list []⟩).result =
      .error (.mismatched .binaryMap (.list .char) (.list .char)) := by
  refine ⟨?_, ?_, ?_⟩
  · have hlift := (handlers_decided ⟨.bool, .string "a"⟩ ⟨.char, .string "b"⟩).1 String
      ⟨fun _ _ => "", fun _ _ => "", fun _ _ => "", fun _ _ => "", fun _ _ => "",
        fun a b => a ++ b, fun _ _ => "", fun _ _ => ""⟩
    obtain ⟨text, htext⟩ := hlift.ok_iff.mpr (.string "a" "b")
    refine ⟨text, htext, ?_⟩
    cases hlift.gives_of_ok text htext
    rfl
  · have hmap := (handlers_decided.{0} ⟨.word 8, .integer 1⟩ ⟨.word 8, .integer 2⟩).2.1
      (default : Operator.sub.Handler).combine
    obtain ⟨made, hmade⟩ := hmap.ok_iff.mpr ⟨rfl, .integer 1 2, by simp⟩
    refine ⟨made, hmade, ?_⟩
    obtain ⟨c, hc, hremade⟩ := hmap.gives_of_ok made hmade
    rw [hremade.eq_make]
    cases hc
    rfl
  · have hmap := (handlers_decided.{0} ⟨.list .char, .list []⟩ ⟨.list .char, .list []⟩).2.1
      (default : Operator.sub.Handler).combine
    exact (hmap.error_iff _).mpr ⟨fun h => h.2.2 [] rfl, rfl⟩

end Word
end SolverValues
