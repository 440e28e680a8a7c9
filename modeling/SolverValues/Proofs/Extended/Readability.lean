import SolverValues.Proofs.Extended.Layout
import SolverValues.Proofs.Text.Separated
import SolverValues.Proofs.Word.Numeral

/-!
Extended values can be told apart by their texts, as long as their leaves have one kind and their
words are integers or reals in digits. A text determines the layout it shows, and with the kind the
layout determines the extended value.
-/
namespace SolverValues

namespace Layout

variable {k : Kind} {l m : Leaf} {a b left right : Layout} {cs ds s t : List Char}

/-- The characters that stand around leaves. -/
def isDelimiter (c : Char) : Bool := [' ', '(', ')', '[', ']'].contains c

/-- A leaf ends before such a text. -/
def Delimited (cs : List Char) : Prop := cs.head?.all isDelimiter = true

/-- What follows a text that stands in no parentheses: nothing, the dots of an interval or its
closing bracket. -/
def Closes : List Char → Prop
  | [] | ']' :: _ | ' ' :: '.' :: _ => True
  | _ => False

theorem Closes.delimited (h : Closes s) : Delimited s := by
  unfold Closes at h
  split at h
  · rfl
  · rfl
  · rfl
  · cases h

theorem Connective.delimited_before (c : Connective) (cs ds : List Char) :
    Delimited (c.before cs ++ ds) := by
  unfold Connective.before
  split <;> rfl

/-- An operation goes on after its left operand. -/
theorem Connective.not_closes_before (c : Connective) (cs ds : List Char) :
    ¬ Closes (c.before cs ++ ds) := by
  unfold Connective.before
  split <;> exact id

theorem Connective.before_append (c : Connective) (hne : cs ≠ []) (ds : List Char) :
    c.before cs ++ ds = c.before (cs ++ ds) := by
  obtain ⟨first, rest, rfl⟩ := List.exists_cons_of_ne_nil hne
  cases c with
  | product => rfl
  | sum =>
    by_cases hsign : first = '-'
    · subst hsign
      rfl
    · simp [Connective.before, hsign]

/-- Folding a minus sign into the connective keeps both. -/
theorem Connective.before_injective {c d : Connective} (h : c.before cs = d.before ds) :
    c = d ∧ cs = ds := by
  unfold Connective.before at h
  split at h <;> split at h <;> simp_all

/-- Texts without delimiters end where the first delimiter stands. -/
theorem append_delimited (hcs : ∀ c ∈ cs, ¬ isDelimiter c)
    (hds : ∀ c ∈ ds, ¬ isDelimiter c) (hs : Delimited s) (ht : Delimited t)
    (h : cs ++ s = ds ++ t) : cs = ds ∧ s = t :=
  Text.append_inj_of_stops hcs hds hs ht h

theorem isRationalChar_of_isDelimiter {c : Char} (h : isDelimiter c) :
    Text.isRationalChar c = false := by
  simp only [isDelimiter, List.contains_iff_mem, List.mem_cons, List.not_mem_nil, or_false] at h
  rcases h with rfl | rfl | rfl | rfl | rfl <;> rfl

theorem Leaf.not_isDelimiter (h : (leaf l).Words (Word.IsNumeralOf k)) :
    ∀ c ∈ l.chars, ¬ isDelimiter c := by
  cases l with
  | symbol negated name =>
    cases negated <;> cases name <;> exact List.any_eq_false.mp rfl
  | word content =>
    intro c hc hdelimiter
    have hrational := h.2.isRationalChar c hc
    rw [isRationalChar_of_isDelimiter hdelimiter] at hrational
    cases hrational

/-- Every symbol has a letter in it, and no numeral has. -/
theorem Leaf.mem_chars_symbol (negated : Bool) (name : Symbol) :
    'o' ∈ (Leaf.symbol negated name).chars := by
  cases negated <;> cases name <;> decide

theorem Leaf.notMem_chars_word {content : Word} (h : content.IsNumeral) :
    'o' ∉ (Leaf.word content).chars := by
  intro hmem
  exact absurd (h.isRationalChar 'o' hmem) (by decide)

theorem Leaf.eq_of_chars_symbol {negated negated' : Bool} {name name' : Symbol} :
    (Leaf.symbol negated name).chars = (Leaf.symbol negated' name').chars →
      negated = negated' ∧ name = name' := by
  cases negated <;> cases name <;> cases negated' <;> cases name' <;> decide

theorem Leaf.chars_injective (hl : (leaf l).Words (Word.IsNumeralOf k))
    (hm : (leaf m).Words (Word.IsNumeralOf k)) (h : l.chars = m.chars) : l = m := by
  cases l with
  | symbol negated name =>
    have hletter := mem_chars_symbol negated name
    cases m with
    | symbol negated' name' =>
      obtain ⟨rfl, rfl⟩ := eq_of_chars_symbol h
      rfl
    | word content => exact (notMem_chars_word hm.2 (h ▸ hletter)).elim
  | word content =>
    cases m with
    | symbol negated name =>
      exact (notMem_chars_word hl.2 (h ▸ mem_chars_symbol negated name)).elim
    | word content' =>
      have hkind := hl.1.trans hm.1.symm
      rw [hl.2.eq_of_text_eq hm.2 hkind (String.toList_injective h)]

theorem Leaf.chars_ne_nil (h : (leaf l).Words (Word.IsNumeralOf k)) : l.chars ≠ [] := by
  cases l with
  | symbol negated name => exact List.ne_nil_of_mem (mem_chars_symbol negated name)
  | word content => exact h.2.render_ne_nil

/-- What starts with a delimiter is no leaf. -/
theorem Leaf.append_ne_cons (h : (leaf l).Words (Word.IsNumeralOf k)) {c : Char}
    (hc : isDelimiter c) : l.chars ++ s ≠ c :: t := by
  intro heq
  obtain ⟨first, rest, hchars⟩ := List.exists_cons_of_ne_nil (chars_ne_nil h)
  rw [hchars] at heq
  obtain ⟨rfl, -⟩ := List.cons.inj heq
  exact not_isDelimiter h first (hchars ▸ List.mem_cons_self) hc

theorem chars_ne_nil (h : a.Words (Word.IsNumeralOf k)) : a.chars true ≠ [] := by
  cases a with
  | leaf content => exact Leaf.chars_ne_nil h
  | interval lower upper => exact List.cons_ne_nil _ _
  | operation connective left right => exact List.cons_ne_nil _ _

/-- The text of an operand determines its layout and where it ends. -/
def Readable (k : Kind) (a : Layout) : Prop :=
  ∀ b s t, b.Words (Word.IsNumeralOf k) → a.chars true ++ s = b.chars true ++ t →
    Delimited s → Delimited t → a = b ∧ s = t

/-- The text of a layout that is no operand determines it and where it ends. -/
def BareReadable (k : Kind) (a : Layout) : Prop :=
  ∀ b s t, b.Words (Word.IsNumeralOf k) → a.chars false ++ s = b.chars false ++ t →
    Closes s → Closes t → a = b ∧ s = t

theorem Readable.leaf (hl : (leaf l).Words (Word.IsNumeralOf k)) : Readable k (leaf l) := by
  intro b s t hb h hs ht
  cases b with
  | leaf m =>
    obtain ⟨hchars, hst⟩ :=
      append_delimited (Leaf.not_isDelimiter hl) (Leaf.not_isDelimiter hb) hs ht h
    exact ⟨congrArg Layout.leaf (Leaf.chars_injective hl hb hchars), hst⟩
  | interval lower upper => exact (Leaf.append_ne_cons hl rfl h).elim
  | operation connective left right => exact (Leaf.append_ne_cons hl rfl h).elim

theorem BareReadable.interval (ha : BareReadable k a) (hb : BareReadable k b) :
    Readable k (interval a b) := by
  intro c s t hc h hs ht
  cases c with
  | leaf m => exact (Leaf.append_ne_cons hc rfl h.symm).elim
  | interval lower upper =>
    simp only [chars, List.cons_append, List.append_assoc, List.cons.injEq, true_and] at h
    obtain ⟨rfl, hupper⟩ := ha lower _ _ hc.1 h trivial trivial
    have htexts := List.append_cancel_left hupper
    obtain ⟨rfl, hst⟩ := hb upper _ _ hc.2 htexts trivial trivial
    exact ⟨rfl, (List.cons.inj hst).2⟩
  | operation connective left right => cases h

/-- The texts of two operands and the connective in between. -/
theorem Readable.operands {c d : Connective} {left' right' : Layout} (hleft : Readable k left)
    (hright : Readable k right) (hwords : right.Words (Word.IsNumeralOf k))
    (hleft' : left'.Words (Word.IsNumeralOf k)) (hright' : right'.Words (Word.IsNumeralOf k))
    (h : left.chars true ++ (c.before (right.chars true) ++ s) =
      left'.chars true ++ (d.before (right'.chars true) ++ t))
    (hs : Delimited s) (ht : Delimited t) :
    Layout.operation c left right = .operation d left' right' ∧ s = t := by
  obtain ⟨rfl, hbefore⟩ :=
    hleft left' _ _ hleft' h (c.delimited_before _ _) (d.delimited_before _ _)
  rw [c.before_append (chars_ne_nil hwords), d.before_append (chars_ne_nil hright')] at hbefore
  obtain ⟨rfl, hoperand⟩ := Connective.before_injective hbefore
  obtain ⟨rfl, hst⟩ := hright right' _ _ hright' hoperand hs ht
  exact ⟨rfl, hst⟩

theorem Readable.operation {c : Connective} (hleft : Readable k left) (hright : Readable k right)
    (hwords : right.Words (Word.IsNumeralOf k)) : Readable k (operation c left right) := by
  intro b s t hb h hs ht
  cases b with
  | leaf m => exact (Leaf.append_ne_cons hb rfl h.symm).elim
  | interval lower upper => cases h
  | operation d left' right' =>
    simp only [chars, if_true, List.cons_append, List.append_assoc, List.cons.injEq, true_and] at h
    obtain ⟨heq, hst⟩ := hleft.operands hright hwords hb.1 hb.2 h rfl rfl
    exact ⟨heq, (List.cons.inj hst).2⟩

theorem chars_operation (c : Connective) (left right : Layout) (s : List Char) :
    (operation c left right).chars false ++ s =
      left.chars true ++ (c.before (right.chars true) ++ s) := by
  simp [chars]

/-- A layout that has no parentheses as an operand either. -/
theorem Readable.bare (ha : Readable k a) (hchars : a.chars false = a.chars true) :
    BareReadable k a := by
  intro b s t hb h hs ht
  rw [hchars] at h
  cases b with
  | leaf m => exact ha _ _ _ hb h hs.delimited ht.delimited
  | interval lower upper => exact ha _ _ _ hb h hs.delimited ht.delimited
  | operation c left right =>
    rw [chars_operation] at h
    obtain ⟨-, rfl⟩ := ha _ _ _ hb.1 h hs.delimited (c.delimited_before _ _)
    exact (c.not_closes_before _ _ hs).elim

theorem BareReadable.operation {c : Connective} (hleft : Readable k left)
    (hright : Readable k right) (hwords : right.Words (Word.IsNumeralOf k)) :
    BareReadable k (operation c left right) := by
  intro b s t hb h hs ht
  rw [chars_operation] at h
  -- A left operand that is all there is on the other side would end where the connective stands.
  have hwhole (hchars : b.chars false = b.chars true) : False := by
    rw [hchars] at h
    obtain ⟨-, rfl⟩ := hleft _ _ _ hb h (c.delimited_before _ _) ht.delimited
    exact c.not_closes_before _ _ ht
  cases b with
  | leaf m => exact (hwhole rfl).elim
  | interval lower upper => exact (hwhole rfl).elim
  | operation d left' right' =>
    rw [chars_operation] at h
    exact hleft.operands hright hwords hb.1 hb.2 h hs.delimited ht.delimited

/-- Every layout can be read, as an operand and alone. -/
theorem readable (h : a.Words (Word.IsNumeralOf k)) : Readable k a ∧ BareReadable k a := by
  induction a with
  | leaf l =>
    have hleaf := Readable.leaf h
    exact ⟨hleaf, hleaf.bare rfl⟩
  | interval lower upper ih ih' =>
    have hinterval := (ih h.1).2.interval (ih' h.2).2
    exact ⟨hinterval, hinterval.bare rfl⟩
  | operation c left right ih ih' =>
    have hleft := (ih h.1).1
    have hright := (ih' h.2).1
    exact ⟨hleft.operation hright h.2, .operation hleft hright h.2⟩

/-- Layouts of one kind with the same text are the same. -/
theorem chars_injective (ha : a.Words (Word.IsNumeralOf k)) (hb : b.Words (Word.IsNumeralOf k))
    (h : a.chars false = b.chars false) : a = b := by
  have happend : a.chars false ++ [] = b.chars false ++ [] := by rw [h]
  exact ((readable ha).2 b [] [] hb happend trivial trivial).1

def Symbol.tree (k : Kind) : Symbol → Extended
  | .infinity => .infinity k
  | .epsilon => .epsilon k

/-- The extended value of kind `k` that has the layout. -/
def tree (k : Kind) : Layout → Extended
  | .leaf (.symbol false name) => name.tree k
  | .leaf (.symbol true name) => .product (.word (Extended.minusOne k)) (name.tree k)
  | .leaf (.word content) => .word content
  | .interval lower upper => .interval (lower.tree k) (upper.tree k)
  | .operation .sum left right => .sum (left.tree k) (right.tree k)
  | .operation .product left right => .product (left.tree k) (right.tree k)

end Layout

namespace Extended

variable {k : Kind} {P : Word → Prop} {a b e : Extended} {name : Layout.Symbol}

theorem tree_symbol? (h : e.LeavesIn k P) (hname : e.symbol? = some name) : name.tree k = e := by
  cases e with
  | infinity kind | epsilon kind =>
    cases h
    cases hname
    rfl
  | _ => cases hname

theorem tree_layout (h : e.LeavesIn k P) : e.layout.tree k = e := by
  induction e with
  | infinity kind | epsilon kind =>
    cases h
    rfl
  | word content => rfl
  | interval lower upper ih ih' => rw [layout, Layout.tree, ih h.1, ih' h.2]
  | sum left right ih ih' => rw [layout, Layout.tree, ih h.1, ih' h.2]
  | product left right ih ih' =>
    rw [layout]
    split
    · rename_i name hleft hright
      have hword := eq_word_of_isMinusOne hleft
      have hkind : left.kind = k := kind_eq h.1
      rw [Layout.tree, tree_symbol? h.2 hright, ← hkind, ← hword]
    · rw [Layout.tree, ih h.1, ih' h.2]

/-- Extended values of one kind with the same text are the same. -/
theorem eq_of_render_eq (ha : a.LeavesIn k Word.IsNumeral) (hb : b.LeavesIn k Word.IsNumeral)
    (h : a.render .bare = b.render .bare) : a = b := by
  have hchars : a.layout.chars false = b.layout.chars false := by
    rw [← toList_renderAs, ← toList_renderAs]
    exact congrArg String.toList h
  have hlayout := Layout.chars_injective (words_layout ha) (words_layout hb) hchars
  rw [← tree_layout ha, hlayout, tree_layout hb]

/-- An interval whose upper bound adds a negation, with its constants written in two ways. -/
theorem eq_of_render_eq_folded :
    interval (word ⟨.integer, .integer (2 + 3)⟩)
        (sum (.infinity .integer) (product (word ⟨.integer, .integer (2 - 3)⟩) (.epsilon .integer))) =
      interval (word ⟨.integer, .integer 5⟩)
        (sum (.infinity .integer) (product (word ⟨.integer, .integer (-1)⟩) (.epsilon .integer))) :=
  eq_of_render_eq (k := .integer) ⟨⟨rfl, .integer _⟩, rfl, ⟨rfl, .integer _⟩, rfl⟩
    ⟨⟨rfl, .integer _⟩, rfl, ⟨rfl, .integer _⟩, rfl⟩ rfl

end Extended
end SolverValues
