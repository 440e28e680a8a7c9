import SolverValues.Kind.Reader

/-! Types with a textual form, whose reading and printing a user sort can be checked against. -/
namespace SolverValues

/-- A type that can be read from text and printed. -/
class TextForm (α : Type) where
  read? : String → Option α
  print : α → String

/-- Reads a text and prints the result. -/
def reprint (α : Type) [TextForm α] (text : String) : Option String :=
  (TextForm.read? text : Option α).map TextForm.print

/-- A plus sign may stand before the digits, a minus sign not. -/
instance : TextForm UInt8 where
  read? text := do
    let n ← Text.signedNumeral? false text.toList
    if n < 256 then some (.ofNat n.toNat) else none
  print n := n.toNat.repr

instance : TextForm Int32 where
  read? text := do
    let n ← Text.signedNumeral? true text.toList
    if -2147483648 ≤ n ∧ n ≤ 2147483647 then some (.ofInt n) else none
  print n := n.toInt.repr

instance : TextForm Bool where
  read?
    | "true" => some true
    | "false" => some false
    | _ => none
  print b := if b then "true" else "false"

/-- A character's text is the character alone. -/
instance : TextForm Char where
  read? text :=
    match text.toList with
    | [c] => some c
    | _ => none
  print c := c.toString

instance : TextForm String where
  read? := some
  print := id

instance : TextForm Kind where
  read? text := (Kind.read text).toOption
  print := Kind.name

end SolverValues
