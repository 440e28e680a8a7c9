import SolverValues.Text.Unprintable

/-!
Quoted texts and characters. A backslash stands before the quote in use and before itself, four
control characters have letters of their own, and a hidden character is written by its code.
-/
namespace SolverValues.Text

/-- The written form of one character between `quote`s; `hidden` says which characters are
written by their code. -/
def escape (hidden : Char → Bool) (quote c : Char) : List Char :=
  if c = '\x00' then ['\\', '0']
  else if c = '\t' then ['\\', 't']
  else if c = '\r' then ['\\', 'r']
  else if c = '\n' then ['\\', 'n']
  else if c = '\\' ∨ c = quote then ['\\', c]
  else if hidden c then ['\\', 'u', '\x7b'] ++ Nat.toDigits 16 c.toNat ++ ['\x7d']
  else [c]

/-- The text `cs` between two `quote`s. -/
def enclose (hidden : Char → Bool) (quote : Char) (cs : List Char) : String :=
  String.ofList (quote :: cs.flatMap (escape hidden quote) ++ [quote])

/-- A text between double quotes, its unprintable characters written by their codes. -/
def quoted (text : String) : String := enclose unprintable '"' text.toList

end SolverValues.Text
