/-!
Postconditions of stateful computations. What every step of a computation yields is put together
from what its parts yield, whatever state they start from.
-/
namespace SolverValues

variable {σ ε α β : Type}

/-- Whatever state it starts from, the computation's result satisfies `P`. -/
def Always (act : StateM σ α) (P : α → Prop) : Prop := ∀ s, P (act.run s).1

/-- Whatever state it starts from, the computation fails or its result satisfies `P`. -/
def Yields (act : ExceptT ε (StateM σ) α) (P : α → Prop) : Prop :=
  Always act.run fun outcome => ∀ a, outcome = .ok a → P a

namespace Always

theorem trivial (act : StateM σ α) : Always act fun _ => True := fun _ => True.intro

theorem pure {a : α} {P : α → Prop} (h : P a) : Always (pure a : StateM σ α) P := fun _ => h

theorem bind {act : StateM σ α} {next : α → StateM σ β} {P : α → Prop} {Q : β → Prop}
    (h : Always act P) (hnext : ∀ a, P a → Always (next a) Q) : Always (act >>= next) Q := by
  intro s
  exact hnext _ (h s) _

end Always

namespace Yields

theorem pure {a : α} {P : α → Prop} (h : P a) : Yields (pure a : ExceptT ε (StateM σ) α) P := by
  intro s b hb
  cases hb
  exact h

theorem throw {P : α → Prop} (e : ε) : Yields (throw e : ExceptT ε (StateM σ) α) P := by
  intro s b hb
  cases hb

theorem lift {act : StateM σ α} {P : α → Prop} (h : Always act P) :
    Yields (liftM act : ExceptT ε (StateM σ) α) P := by
  intro s b hb
  cases hb
  exact h s

theorem trivial (act : ExceptT ε (StateM σ) α) : Yields act fun _ => True :=
  fun _ _ _ => True.intro

theorem mono {act : ExceptT ε (StateM σ) α} {P Q : α → Prop} (h : Yields act P)
    (hPQ : ∀ a, P a → Q a) : Yields act Q :=
  fun s a ha => hPQ a (h s a ha)

theorem and {act : ExceptT ε (StateM σ) α} {P Q : α → Prop} (hP : Yields act P)
    (hQ : Yields act Q) : Yields act fun a => P a ∧ Q a :=
  fun s a ha => ⟨hP s a ha, hQ s a ha⟩

theorem bind {act : ExceptT ε (StateM σ) α} {next : α → ExceptT ε (StateM σ) β} {P : α → Prop}
    {Q : β → Prop} (h : Yields act P) (hnext : ∀ a, P a → Yields (next a) Q) :
    Yields (act >>= next) Q := by
  have hrun : Always act.run fun outcome => ∀ a, outcome = .ok a → P a := h
  rw [Yields, ExceptT.run_bind]
  refine hrun.bind ?_
  intro outcome houtcome
  cases outcome with
  | ok a => exact hnext a (houtcome a rfl)
  | error e =>
    intro s b hb
    cases hb

/-- Doing something for each item of a list yields a list of what it yields for one. -/
theorem mapM {act : α → ExceptT ε (StateM σ) β} {P : β → Prop} {items : List α}
    (h : ∀ item ∈ items, Yields (act item) P) :
    Yields (items.mapM act) fun results => ∀ b ∈ results, P b := by
  induction items with
  | nil => exact .pure (by simp)
  | cons item items ih =>
    rw [List.mapM_cons]
    refine (h item List.mem_cons_self).bind fun b hb => ?_
    refine (ih fun x hx => h x (List.mem_cons_of_mem item hx)).bind fun bs hbs => ?_
    refine .pure ?_
    intro x hx
    rcases List.mem_cons.mp hx with rfl | hx
    · exact hb
    · exact hbs x hx

end Yields
end SolverValues
