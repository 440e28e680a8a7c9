import SolverValues.Proofs.Word.Residue
import SolverValues.Word.Lift

/-!
Integer expressions over words. Maps reduce every intermediate result, and still an expression has
the value that unbounded integers give it, reduced once at the end.
-/
namespace SolverValues

inductive Operator where
  | add | sub | mul

def Operator.apply : Operator → Int → Int → Int
  | .add, a, b => a + b
  | .sub, a, b => a - b
  | .mul, a, b => a * b

/-- A handler that applies the operator to integers. It may do anything to other payloads. -/
structure Operator.Handler (op : Operator) where
  combine : Combine
  integer_eq : combine.integer = op.apply

instance (op : Operator) : Inhabited op.Handler where
  default :=
    { combine :=
        { real := fun a _ => a
          integer := op.apply
          float := fun a _ => a
          double := fun a _ => a
          char := fun a _ => a
          string := fun a _ => a
          user := fun a _ => a }
      integer_eq := rfl }

/-- A handler that negates integers. It may do anything to other payloads. -/
structure Negation where
  transform : Transform
  integer_eq : transform.integer = fun v => -v

instance : Inhabited Negation where
  default :=
    { transform :=
        { real := id
          integer := fun v => -v
          float := id
          double := id
          char := id
          string := id
          user := id }
      integer_eq := rfl }

/-- An expression over the payloads of words of one kind. Each node has a handler of its own. -/
inductive Expression where
  | leaf (payload : Int)
  | negate (handler : Negation) (operand : Expression)
  | binary (op : Operator) (handler : op.Handler) (left right : Expression)

namespace Expression

/-- The value among unbounded integers. -/
def value : Expression → Int
  | .leaf payload => payload
  | .negate _ operand => -operand.value
  | .binary op _ left right => op.apply left.value right.value

/-- The word found by mapping words node by node. Leaves are words as they come, reduced or not. -/
def eval (k : Kind) : Expression → Except Fault Word
  | .leaf payload => .ok ⟨k, .integer payload⟩
  | .negate handler operand => do (← operand.eval k).map handler.transform
  | .binary _ handler left right => do
    let a ← left.eval k
    let b ← right.eval k
    (a.map₂ handler.combine b).result

end Expression

theorem Operator.apply_modEq (op : Operator) {a a' b b' n : Int} (ha : a ≡ a' [ZMOD n])
    (hb : b ≡ b' [ZMOD n]) : op.apply a b ≡ op.apply a' b' [ZMOD n] := by
  cases op with
  | add => exact ha.add hb
  | sub => exact ha.sub hb
  | mul => exact ha.mul hb

namespace Word

theorem map_integer (h : Transform) (k : Kind) (v : Int) :
    map h ⟨k, .integer v⟩ = .ok (make k (.integer (h.integer v))) := rfl

theorem map₂_integer (h : Combine) (k : Kind) (a b : Int) :
    map₂ h ⟨k, .integer a⟩ ⟨k, .integer b⟩ = ⟨.ok (make k (.integer (h.integer a b))), []⟩ := by
  simp [map₂, sameKind, Combine.onPair, orMismatch]

end Word

namespace Expression

open Word

theorem eval_negate (handler : Negation) {k : Kind} {operand : Expression} {v : Int}
    (h : operand.eval k = .ok ⟨k, .integer v⟩) (hv : v ≡ operand.value [ZMOD k.modulus]) :
    (negate handler operand).eval k = .ok (make k (.integer (negate handler operand).value)) := by
  rw [eval, h]
  change Word.map handler.transform ⟨k, .integer v⟩ = _
  rw [map_integer, handler.integer_eq]
  exact congrArg Except.ok (make_eq_make_iff.mpr hv.neg)

theorem eval_binary {op : Operator} (handler : op.Handler) {k : Kind} {left right : Expression}
    {a b : Int} (hl : left.eval k = .ok ⟨k, .integer a⟩) (ha : a ≡ left.value [ZMOD k.modulus])
    (hr : right.eval k = .ok ⟨k, .integer b⟩) (hb : b ≡ right.value [ZMOD k.modulus]) :
    (binary op handler left right).eval k =
      .ok (make k (.integer (binary op handler left right).value)) := by
  rw [eval, hl, hr]
  change (Word.map₂ handler.combine ⟨k, .integer a⟩ ⟨k, .integer b⟩).result = _
  rw [map₂_integer, handler.integer_eq]
  exact congrArg Except.ok (make_eq_make_iff.mpr (op.apply_modEq ha hb))

/-- Every node's word holds an integer congruent to the value of the expression below it. -/
theorem exists_payload (k : Kind) (e : Expression) :
    ∃ v, e.eval k = .ok ⟨k, .integer v⟩ ∧ v ≡ e.value [ZMOD k.modulus] := by
  induction e with
  | leaf payload => exact ⟨payload, rfl, Int.ModEq.refl payload⟩
  | negate handler operand ih =>
    obtain ⟨v, h, hv⟩ := ih
    refine ⟨_, ?_, k.reduce_modEq _⟩
    rw [eval_negate handler h hv, make_integer]
  | binary op handler left right ihl ihr =>
    obtain ⟨a, hl, ha⟩ := ihl
    obtain ⟨b, hr, hb⟩ := ihr
    refine ⟨_, ?_, k.reduce_modEq _⟩
    rw [eval_binary handler hl ha hr hb, make_integer]

/-- Mapping node by node never fails and ends in the word of the expression's value. A single leaf
is that word once it is normalized. -/
theorem eval_eq_make (k : Kind) (e : Expression) :
    (∃ w, e.eval k = .ok w ∧ w.normalize = make k (.integer e.value)) ∧
    ((∀ payload, e ≠ .leaf payload) → e.eval k = .ok (make k (.integer e.value))) := by
  obtain ⟨v, h, hv⟩ := exists_payload k e
  refine ⟨⟨_, h, make_eq_make_iff.mpr hv⟩, ?_⟩
  intro hnode
  cases e with
  | leaf payload => exact (hnode payload rfl).elim
  | negate handler operand =>
    obtain ⟨v, h, hv⟩ := exists_payload k operand
    exact eval_negate handler h hv
  | binary op handler left right =>
    obtain ⟨a, hl, ha⟩ := exists_payload k left
    obtain ⟨b, hr, hb⟩ := exists_payload k right
    exact eval_binary handler hl ha hr hb

/-- Two leaves out of range and a product that wraps, in eight signed bits. -/
theorem eval_eq_make_wraps :
    (binary .mul default (binary .add default (leaf 300) (leaf 156))
      (negate default (leaf (-1000)))).eval (.int 8) = .ok ⟨.int 8, .integer 64⟩ := by
  rw [(eval_eq_make _ _).2 (by simp)]
  rfl

end Expression
end SolverValues
