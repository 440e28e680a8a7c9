import Std.Data.HashSet.Basic

/-!
Collections of items: how many are different, in which order they stand when sorted, and how they
are joined. Joining puts a separator before every item but the first, chosen from the item that
follows it.
-/
namespace SolverValues

/-- The number of different items, equal ones counted once. -/
def distinctCount [BEq α] [Hashable α] (items : List α) : Nat :=
  (Std.HashSet.ofList items).size

/-- The positions of the items in ascending order; equal items keep their order. -/
def sortedPositions [Ord α] (items : List α) : List Nat :=
  (items.zipIdx.mergeSort fun a b => (compare a.1 b.1).isLE).map (·.2)

namespace Text

/-- Puts `separator next` between an item and the `next` one. -/
def interleave (separator : α → α) : List α → List α
  | [] => []
  | first :: rest => first :: rest.flatMap fun next => [separator next, next]

@[simp] theorem interleave_nil (separator : α → α) : interleave separator [] = [] := rfl

@[simp] theorem interleave_singleton (separator : α → α) (x : α) :
    interleave separator [x] = [x] := rfl

theorem interleave_cons_cons (separator : α → α) (x y : α) (rest : List α) :
    interleave separator (x :: y :: rest) =
      x :: separator y :: interleave separator (y :: rest) := rfl

/-- The items in one text, with `separator` between neighbours. -/
def join (separator : String) (items : List String) : String :=
  String.join (interleave (fun _ => separator) items)

end Text
end SolverValues
