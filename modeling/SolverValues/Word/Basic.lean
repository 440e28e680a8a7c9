import SolverValues.Constant.Digest
import SolverValues.Constant.Text
import SolverValues.Fault
import SolverValues.Ieee.Integral

/-!
Words: a constant with its kind. Fixed-width integers are kept as the canonical representative of
their residue class; a word whose constant does not fit its kind is allowed and left alone.
-/
namespace SolverValues

/-- How a value is shown: alone, or followed by its kind. -/
inductive Style where
  | bare | typed
deriving DecidableEq

instance : Inhabited Style := ⟨.bare⟩

/-- Bare unless the kind is to be shown. -/
def Style.ofShowKind (showKind : Bool) : Style := if showKind then .typed else .bare

/-- The representative of `v` in `width` bits. The quotient by half the modulus is odd just where
the signed reading is negative. -/
def wrap (signed : Bool) (width : Nat) (v : Int) : Int :=
  if width = 0 then 0
  else if signed then
    let half := Int.ofNat (Nat.pow 2 (width - 1))
    if v / half % 2 = 0 then v % half else v % half - half
  else v % Int.ofNat (Nat.pow 2 width)

/-- A constant of a kind. -/
structure Word where
  kind : Kind
  value : Constant

namespace Word

/-- Words are equal when their kinds and values are. -/
instance : BEq Word where
  beq a b := a.kind == b.kind && a.value == b.value

/-- By value first; the kind breaks ties. -/
protected def compare (a b : Word) : Ordering :=
  (compare a.value b.value).then (compare a.kind b.kind)

instance : Ord Word := ⟨Word.compare⟩

def digest (w : Word) : List Atom := .kind w.kind :: w.value.digest

instance : Hashable Word := ⟨fun w => hash w.digest⟩

/-- Reduces an integer payload into the range of its kind. -/
def normalize (w : Word) : Word :=
  match w.kind, w.value with
  | .bitVector signed width, .integer v => ⟨w.kind, .integer (wrap signed width.toNat v)⟩
  | .bool, .integer v => ⟨w.kind, .integer (v % 2)⟩
  | _, _ => w

/-- The normalized word of a kind and a constant. -/
def make (kind : Kind) (value : Constant) : Word := normalize ⟨kind, value⟩

/-- Is the payload in the range of its kind? -/
def isNormal (w : Word) : Bool := w.normalize == w

/-- One for true and zero for false. -/
def ofBool (b : Bool) : Word := ⟨.bool, .integer (Int.ofNat b.toNat)⟩

/-- The word of an integral literal by a conversion to patterns. Only numeric kinds have them. -/
def ofIntBy (convert : Ieee.Conversion) (kind : Kind) (n : Int) : Except Fault Word :=
  match kind with
  | .bool | .bitVector .. | .integer => .ok (make kind (.integer n))
  | .real => .ok (make kind (.real (.ofInt n)))
  | .float => .ok (make kind (.float (convert.pattern _ n)))
  | .double => .ok (make kind (.double (convert.pattern _ n)))
  | .char | .string | .list _ | .user _ => .error (.noIntegralLiteral kind)

/-- The word of an integral literal. -/
def ofInt (kind : Kind) (n : Int) : Except Fault Word := ofIntBy .shortening kind n

def sameKind (a b : Word) : Bool := a.kind == b.kind

/-- An integer payload as a truth value: everything but zero is true. -/
def toBool (w : Word) : Except Fault Bool :=
  match w.value with
  | .integer v => .ok (v ≠ 0)
  | _ => .error (.unsupported .truthValue w.kind)

/-- The text of a word. -/
def render (w : Word) (style : Style) : String :=
  let value := w.value.text w.kind
  match style with
  | .bare => value
  | .typed => value ++ " :: " ++ w.kind.baseName

instance : ToString Word := ⟨(render · .bare)⟩

end Word
end SolverValues
