import SolverValues.Collection

/-!
Texts that can be taken apart again. A text without stops ends where the first stop stands, so items
without the start of the separator can be told from what they are joined to. A bracketed list tells
its items as soon as their texts tell where they end.
-/
namespace SolverValues.Text

/-- Nothing is left, or a stop comes next. -/
def Stops (stop : Char → Bool) (cs : List Char) : Prop := cs.head?.all stop = true

variable {stop : Char → Bool} {cs ds s t : List Char}

theorem append_inj_of_stops (hcs : ∀ c ∈ cs, ¬ stop c) (hds : ∀ c ∈ ds, ¬ stop c)
    (hs : Stops stop s) (ht : Stops stop t) (h : cs ++ s = ds ++ t) : cs = ds ∧ s = t := by
  induction cs generalizing ds with
  | nil =>
    cases ds with
    | nil => exact ⟨rfl, h⟩
    | cons d ds =>
      rw [List.nil_append] at h
      have hd := hds d List.mem_cons_self
      simp [h, Stops, hd] at hs
  | cons c cs ih =>
    cases ds with
    | nil =>
      rw [List.nil_append] at h
      have hc := hcs c List.mem_cons_self
      simp [← h, Stops, hc] at ht
    | cons d ds =>
      obtain ⟨rfl, hrest⟩ := List.cons.inj h
      obtain ⟨rfl, rfl⟩ := ih (fun x hx => hcs x (List.mem_cons_of_mem _ hx))
        (fun x hx => hds x (List.mem_cons_of_mem _ hx)) hrest
      exact ⟨rfl, rfl⟩

variable {separator : String} {c : Char} {xs ys : List String}

theorem ne_of_notMem (h : c ∉ cs) : ∀ d ∈ cs, ¬ (d == c) = true := by
  intro d hd heq
  exact h (beq_iff_eq.mp heq ▸ hd)

/-- A text ends where a character stands that it does not hold. -/
theorem append_cons_inj (hcs : c ∉ cs) (hds : c ∉ ds) (h : cs ++ c :: s = ds ++ c :: t) :
    cs = ds ∧ s = t := by
  have hstops (r : List Char) : Stops (· == c) (c :: r) := by simp [Stops]
  obtain ⟨hcd, hst⟩ :=
    append_inj_of_stops (ne_of_notMem hcs) (ne_of_notMem hds) (hstops s) (hstops t) h
  exact ⟨hcd, (List.cons.inj hst).2⟩

theorem toList_join_cons (separator first : String) (rest : List String) :
    (join separator (first :: rest)).toList =
      first.toList ++ rest.flatMap fun next => separator.toList ++ next.toList := by
  simp [join, interleave, List.flatMap_assoc]

theorem mem_of_mem_join (h : c ∈ (join separator xs).toList) :
    c ∈ separator.toList ∨ ∃ x ∈ xs, c ∈ x.toList := by
  cases xs with
  | nil => simp [join] at h
  | cons x xs =>
    simp only [toList_join_cons, List.mem_append, List.mem_flatMap] at h
    rcases h with hx | ⟨y, hy, hseparator | hchar⟩
    · exact .inr ⟨x, List.mem_cons_self, hx⟩
    · exact .inl hseparator
    · exact .inr ⟨y, List.mem_cons_of_mem x hy, hchar⟩

theorem eq_of_flatMap_separator_eq (hseparator : separator.toList.head? = some c)
    (hxs : ∀ x ∈ xs, c ∉ x.toList) (hys : ∀ y ∈ ys, c ∉ y.toList)
    (h : (xs.flatMap fun next => separator.toList ++ next.toList) =
      ys.flatMap fun next => separator.toList ++ next.toList) : xs = ys := by
  obtain ⟨cs, hcs⟩ := List.head?_eq_some_iff.mp hseparator
  have hstops (zs : List String) :
      Stops (· == c) (zs.flatMap fun next => separator.toList ++ next.toList) := by
    cases zs <;> simp [Stops, hcs]
  induction xs generalizing ys with
  | nil =>
    cases ys with
    | nil => rfl
    | cons y ys => simp [hcs] at h
  | cons x xs ih =>
    cases ys with
    | nil => simp [hcs] at h
    | cons y ys =>
      rw [List.flatMap_cons, List.flatMap_cons, List.append_assoc, List.append_assoc] at h
      have hitems := List.append_cancel_left h
      obtain ⟨hxy, hrest⟩ := append_inj_of_stops (ne_of_notMem (hxs x List.mem_cons_self))
        (ne_of_notMem (hys y List.mem_cons_self)) (hstops xs) (hstops ys) hitems
      rw [String.toList_injective hxy, ih (fun z hz => hxs z (List.mem_cons_of_mem x hz))
        (fun z hz => hys z (List.mem_cons_of_mem y hz)) hrest]

/-- Items can be told from a joined text if none is empty and none has the separator's first
character. -/
theorem eq_of_join_eq (hseparator : separator.toList.head? = some c)
    (hxs : ∀ x ∈ xs, x.toList ≠ [] ∧ c ∉ x.toList) (hys : ∀ y ∈ ys, y.toList ≠ [] ∧ c ∉ y.toList)
    (h : join separator xs = join separator ys) : xs = ys := by
  have htext : (join separator xs).toList = (join separator ys).toList := by rw [h]
  cases xs with
  | nil =>
    cases ys with
    | nil => rfl
    | cons y ys =>
      rw [toList_join_cons] at htext
      exact ((hys y List.mem_cons_self).1 (List.append_eq_nil_iff.mp htext.symm).1).elim
  | cons x xs =>
    cases ys with
    | nil =>
      rw [toList_join_cons] at htext
      exact ((hxs x List.mem_cons_self).1 (List.append_eq_nil_iff.mp htext).1).elim
    | cons y ys =>
      rw [toList_join_cons, toList_join_cons] at htext
      apply eq_of_flatMap_separator_eq hseparator (fun z hz => (hxs z hz).2)
        (fun z hz => (hys z hz).2)
      rw [List.flatMap_cons, List.flatMap_cons, List.append_assoc, List.append_assoc, htext]

/-- What may follow an item of a list. -/
def endsItem (c : Char) : Bool := c == ',' || c == ']'

variable {α : Type} {P : α → Prop} {text : α → String} {a b : α} {as bs : List α}

/-- The text of a value with `P` does not start with a closing bracket. In front of what may follow
an item it tells the value and where it ends. -/
structure Separable (P : α → Prop) (text : α → String) : Prop where
  opens : ∀ {a}, P a → ∃ c cs, (text a).toList = c :: cs ∧ c ≠ ']'
  inj : ∀ {a b s t}, P a → P b → Stops endsItem s → Stops endsItem t →
    (text a).toList ++ s = (text b).toList ++ t → a = b ∧ s = t

/-- The items of a list after the first one and the closing bracket. -/
def tailChars (text : α → String) (as : List α) : List Char :=
  (as.flatMap fun a => ',' :: ' ' :: (text a).toList) ++ [']']

theorem stops_tailChars (text : α → String) (as : List α) (s : List Char) :
    Stops endsItem (tailChars text as ++ s) := by
  cases as <;> rfl

theorem tailChars_cons (text : α → String) (a : α) (as : List α) :
    tailChars text (a :: as) = ',' :: ' ' :: ((text a).toList ++ tailChars text as) := by
  simp [tailChars]

/-- The text of a list between brackets. -/
def listText (text : α → String) (as : List α) : String := "[" ++ join ", " (as.map text) ++ "]"

theorem listText_nil_append (text : α → String) (s : List Char) :
    (listText text []).toList ++ s = '[' :: ']' :: s := by
  simp [listText, join]

theorem listText_cons_append (text : α → String) (a : α) (as : List α) (s : List Char) :
    (listText text (a :: as)).toList ++ s =
      '[' :: ((text a).toList ++ (tailChars text as ++ s)) := by
  simp [listText, tailChars, toList_join_cons, List.flatMap_map]

namespace Separable

theorem eq_of_text_eq (h : Separable P text) (ha : P a) (hb : P b) (heq : text a = text b) :
    a = b := by
  have happend : (text a).toList ++ [] = (text b).toList ++ [] := by rw [heq]
  exact (h.inj ha hb (s := []) (t := []) rfl rfl happend).1

/-- Values are separable if their texts are those of a separable payload that tells them apart. -/
theorem of_payload {β : Type} {Q : β → Prop} {code : β → String} (h : Separable Q code)
    (payload : α → β) (hQ : ∀ a, P a → Q (payload a) ∧ text a = code (payload a))
    (hinj : ∀ a b, P a → P b → payload a = payload b → a = b) : Separable P text where
  opens {a} ha := by
    rw [(hQ a ha).2]
    exact h.opens (hQ a ha).1
  inj {a b s t} ha hb hs ht heq := by
    rw [(hQ a ha).2, (hQ b hb).2] at heq
    obtain ⟨hpayload, hst⟩ := h.inj (hQ a ha).1 (hQ b hb).1 hs ht heq
    exact ⟨hinj a b ha hb hpayload, hst⟩

/-- Texts without commas and brackets end before them. -/
theorem of_free (hne : ∀ a, P a → (text a).toList ≠ [])
    (hfree : ∀ a, P a → ∀ c ∈ (text a).toList, ¬ endsItem c)
    (hinj : ∀ a b, P a → P b → text a = text b → a = b) : Separable P text where
  opens {a} ha := by
    obtain ⟨c, cs, hcs⟩ := List.exists_cons_of_ne_nil (hne a ha)
    refine ⟨c, cs, hcs, ?_⟩
    rintro rfl
    exact hfree a ha ']' (hcs ▸ List.mem_cons_self) rfl
  inj {a b s t} ha hb hs ht h := by
    obtain ⟨htext, hst⟩ := append_inj_of_stops (hfree a ha) (hfree b hb) hs ht h
    exact ⟨hinj a b ha hb (String.toList_injective htext), hst⟩

/-- An item is no closing bracket, so no list ends where another one goes on. -/
theorem bracket_ne (h : Separable P text) (ha : P a) :
    (text a).toList ++ s ≠ ']' :: t := by
  obtain ⟨c, cs, hcs, hc⟩ := h.opens ha
  rw [hcs]
  intro heq
  exact hc (List.cons.inj heq).1

/-- The items of a list that is not empty, each behind a comma but the first. -/
theorem items_inj (h : Separable P text) (has : ∀ x ∈ a :: as, P x) (hbs : ∀ x ∈ b :: bs, P x)
    (heq : (text a).toList ++ (tailChars text as ++ s) =
      (text b).toList ++ (tailChars text bs ++ t)) : a :: as = b :: bs ∧ s = t := by
  induction as generalizing a b bs with
  | nil =>
    obtain ⟨rfl, hrest⟩ := h.inj (has a List.mem_cons_self) (hbs b List.mem_cons_self)
      (stops_tailChars text [] s) (stops_tailChars text bs t) heq
    cases bs with
    | nil => exact ⟨rfl, (List.cons.inj hrest).2⟩
    | cons c bs => simp [tailChars] at hrest
  | cons c as ih =>
    obtain ⟨rfl, hrest⟩ := h.inj (has a List.mem_cons_self) (hbs b List.mem_cons_self)
      (stops_tailChars text (c :: as) s) (stops_tailChars text bs t) heq
    cases bs with
    | nil => simp [tailChars] at hrest
    | cons d bs =>
      simp only [tailChars_cons, List.cons_append, List.append_assoc, List.cons.injEq,
        true_and] at hrest
      obtain ⟨htail, hst⟩ := ih (fun x hx => has x (List.mem_cons_of_mem a hx))
        (fun x hx => hbs x (List.mem_cons_of_mem a hx)) hrest
      exact ⟨congrArg (a :: ·) htail, hst⟩

/-- Lists of separable values are separable themselves. -/
theorem list (h : Separable P text) :
    Separable (fun as : List α => ∀ a ∈ as, P a) (listText text) where
  opens {as} _ := ⟨'[', (join ", " (as.map text)).toList ++ [']'], by simp [listText], by decide⟩
  inj {as bs s t} has hbs _ _ heq := by
    cases as with
    | nil =>
      rw [listText_nil_append] at heq
      cases bs with
      | nil =>
        rw [listText_nil_append] at heq
        exact ⟨rfl, (List.cons.inj (List.cons.inj heq).2).2⟩
      | cons b bs =>
        rw [listText_cons_append] at heq
        exact (h.bracket_ne (hbs b List.mem_cons_self) (List.cons.inj heq).2.symm).elim
    | cons a as =>
      rw [listText_cons_append] at heq
      cases bs with
      | nil =>
        rw [listText_nil_append] at heq
        exact (h.bracket_ne (has a List.mem_cons_self) (List.cons.inj heq).2).elim
      | cons b bs =>
        rw [listText_cons_append] at heq
        exact h.items_inj has hbs (List.cons.inj heq).2

end Separable
end SolverValues.Text
