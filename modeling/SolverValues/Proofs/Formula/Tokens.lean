/-!
Formulas as tokens. Blanks only separate, and letters, digits and points that stand side by side
belong together.
-/
namespace SolverValues.Formula

/-- A run of letters, digits and points, or one other character. -/
inductive Token where
  | run (chars : List Char)
  | mark (char : Char)
deriving DecidableEq

def isRunChar (c : Char) : Bool := c.isAlphanum || c == '.'

/-- Puts a character of a run before the tokens that follow; `joined` says that the first of them
starts right after it. -/
def attach (c : Char) (joined : Bool) : List Token → List Token
  | .run cs :: rest => if joined then .run (c :: cs) :: rest else .run [c] :: .run cs :: rest
  | rest => .run [c] :: rest

def tokens : List Char → List Token
  | [] => []
  | c :: cs =>
    if isRunChar c then attach c (cs.head?.any isRunChar) (tokens cs)
    else if c = ' ' then tokens cs
    else .mark c :: tokens cs

/-- No run goes on into the text. -/
def Breaks (cs : List Char) : Prop := cs.head?.any isRunChar = false

variable {c : Char} {cs ds : List Char}

theorem breaks_cons (h : isRunChar c = false) : Breaks (c :: cs) := h

@[simp] theorem tokens_nil : tokens [] = [] := rfl

@[simp] theorem tokens_blank (cs : List Char) : tokens (' ' :: cs) = tokens cs := rfl

theorem tokens_mark (hrun : isRunChar c = false) (hblank : c ≠ ' ') :
    tokens (c :: cs) = .mark c :: tokens cs := by
  simp [tokens, hrun, hblank]

theorem attach_false (c : Char) (ts : List Token) : attach c false ts = .run [c] :: ts := by
  cases ts with
  | nil => rfl
  | cons t ts => cases t <;> rfl

theorem attach_append (c : Char) (joined : Bool) (t : Token) (ts us : List Token) :
    attach c joined (t :: ts ++ us) = attach c joined (t :: ts) ++ us := by
  cases t <;> cases joined <;> rfl

theorem attach_ne_nil (c : Char) (joined : Bool) (ts : List Token) : attach c joined ts ≠ [] := by
  cases ts with
  | nil => simp [attach]
  | cons t ts => cases t <;> cases joined <;> simp [attach]

/-- Where no run goes on, the tokens before and after do not depend on each other. -/
theorem tokens_append (cs : List Char) (h : Breaks ds) :
    tokens (cs ++ ds) = tokens cs ++ tokens ds := by
  induction cs with
  | nil => rfl
  | cons c cs ih =>
    by_cases hrun : isRunChar c
    · simp only [List.cons_append, tokens, hrun, if_true, ih]
      cases cs with
      | nil =>
        rw [List.nil_append, h]
        simp [attach_false]
      | cons d cs =>
        by_cases hjoined : isRunChar d
        · obtain ⟨t, ts, hts⟩ : ∃ t ts, tokens (d :: cs) = t :: ts := by
            refine List.exists_cons_of_ne_nil ?_
            simpa only [tokens, hjoined, if_true] using attach_ne_nil _ _ _
          simp only [List.cons_append, List.head?_cons, Option.any_some, hts]
          exact attach_append c _ t ts (tokens ds)
        · simp [hjoined, attach_false]
    · by_cases hblank : c = ' '
      · subst hblank
        simpa using ih
      · simp [tokens, hrun, hblank, ih]

/-- A mark in blanks between two texts. -/
theorem tokens_spaced (cs ds : List Char) (hrun : isRunChar c = false) (hblank : c ≠ ' ') :
    tokens (cs ++ ' ' :: c :: ' ' :: ds) = tokens cs ++ .mark c :: tokens ds := by
  rw [tokens_append cs (breaks_cons rfl), tokens_blank, tokens_mark hrun hblank, tokens_blank]

theorem tokens_run (hne : cs ≠ []) (h : ∀ c ∈ cs, isRunChar c) : tokens cs = [.run cs] := by
  induction cs with
  | nil => exact (hne rfl).elim
  | cons c cs ih =>
    have hc := h c List.mem_cons_self
    cases cs with
    | nil => simp [tokens, hc, attach]
    | cons d cs =>
      have hd := h d (List.mem_cons_of_mem c List.mem_cons_self)
      rw [tokens, if_pos hc, ih (by simp) fun x hx => h x (List.mem_cons_of_mem c hx)]
      simp [attach, hd]

theorem isRunChar_of_isDigit (h : c.isDigit) : isRunChar c := by
  simp [isRunChar, Char.isAlphanum, h]

end SolverValues.Formula
