import Mathlib.Data.List.Basic
import SolverValues.Kind.Description
import SolverValues.Kind.Reader
import SolverValues.Proofs.Text.Numeral

/-!
Reading the displayed name of a kind. Names of built-in kinds read back as the kind, a user sort's
name is what a failure quotes, and no text is both read and taken for a user sort.
-/
namespace SolverValues

theorem reservedStart?_eq_none {name : String} :
    reservedStart? name = none ↔ ∀ start ∈ reservedStarts, ¬ start.toList <+: name.toList := by
  simp [reservedStart?, List.find?_eq_none]

theorem Description.build_of_reserved {m : Type → Type} [Monad m] {d : Description}
    {start : String} (reprint : String → m (Option String)) (h : reservedStart? d.name = some start) :
    d.build reprint = return ⟨.error (.reservedName d.name start),
      [Log.note .info ("rejected user sort name " ++ d.name ++ ": reserved prefix " ++ start)]⟩ := by
  unfold build
  split
  · rename_i first hfirst
    cases h.symm.trans hfirst
    rfl
  · rename_i hnone
    cases h.symm.trans hnone

/-- A text with a reserved start never names a described type. -/
theorem Description.build_reserved {m : Type → Type} [Monad m] (d : Description)
    (reprint : String → m (Option String)) {start : String} (hs : start ∈ reservedStarts)
    (hp : start.toList <+: d.name.toList) :
    ∃ first ∈ reservedStarts, first.toList <+: d.name.toList ∧
      d.build reprint = pure ⟨.error (.reservedName d.name first), [Log.note .info
        ("rejected user sort name " ++ d.name ++ ": reserved prefix " ++ first)]⟩ := by
  cases hfirst : reservedStart? d.name with
  | none => exact (reservedStart?_eq_none.mp hfirst start hs hp).elim
  | some first =>
    refine ⟨first, List.mem_of_find?_eq_some hfirst, ?_, build_of_reserved reprint hfirst⟩
    simpa using List.find?_some hfirst

namespace Kind

/-- The names of built-in kinds other than lists. A width may start with zeros. -/
inductive PlainName : List Char → Kind → Prop where
  | bool : PlainName "SBool".toList .bool
  | integer : PlainName "SInteger".toList .integer
  | real : PlainName "SReal".toList .real
  | float : PlainName "SFloat".toList .float
  | double : PlainName "SDouble".toList .double
  | string : PlainName "SString".toList .string
  | char : PlainName "SChar".toList .char
  | word {digits : List Char} {width : UInt64} (h : readWidth? digits = some width) :
    PlainName ("SWord".toList ++ digits) (.word width)
  | int {digits : List Char} {width : UInt64} (h : readWidth? digits = some width) :
    PlainName ("SInt".toList ++ digits) (.int width)

theorem readWidth?_toDigits (width : UInt64) :
    readWidth? (Nat.toDigits 10 width.toNat) = some width := by
  simp [readWidth?, Text.numeral?_toDigits, width.toNat_lt_size]

theorem isDigit_of_readWidth? {digits : List Char} {width : UInt64}
    (h : readWidth? digits = some width) {c : Char} (hc : c ∈ digits) : c.isDigit := by
  obtain ⟨n, hn, _⟩ := Option.bind_eq_some_iff.mp h
  exact Text.isDigit_of_numeral? hn hc

theorem PlainName.of_ofList {cs : List Char} {name : String} {k : Kind}
    (hcs : String.ofList cs = name) (h : PlainName name.toList k) : PlainName cs k := by
  subst hcs
  simpa using h

theorem plainName_of_readPlain? {cs : List Char} {k : Kind} (h : readPlain? cs = some k) :
    PlainName cs k := by
  unfold readPlain? at h
  split at h
  case h_1 hcs => cases h; exact .of_ofList hcs .bool
  case h_2 hcs => cases h; exact .of_ofList hcs .integer
  case h_3 hcs => cases h; exact .of_ofList hcs .real
  case h_4 hcs => cases h; exact .of_ofList hcs .float
  case h_5 hcs => cases h; exact .of_ofList hcs .double
  case h_6 hcs => cases h; exact .of_ofList hcs .string
  case h_7 hcs => cases h; exact .of_ofList hcs .char
  case h_8 =>
    split at h
    · rename_i digits hdigits
      obtain ⟨width, hw, rfl⟩ := Option.map_eq_some_iff.mp h
      rw [← List.isPrefixOf?_eq_some_iff_append_eq.mp hdigits]
      exact .word hw
    · obtain ⟨digits, hdigits, h⟩ := Option.bind_eq_some_iff.mp h
      obtain ⟨width, hw, rfl⟩ := Option.map_eq_some_iff.mp h
      rw [← List.isPrefixOf?_eq_some_iff_append_eq.mp hdigits]
      exact .int hw

theorem readPlain?_of_plainName {cs : List Char} {k : Kind} (h : PlainName cs k) :
    readPlain? cs = some k := by
  cases h with
  | @word digits width hw =>
    unfold readPlain?
    split
    case h_8 => simp [List.isPrefixOf?, hw]
    all_goals
      rename_i hcs
      simpa using congrArg String.toList hcs
  | @int digits width hw =>
    unfold readPlain?
    split
    case h_8 => simp [List.isPrefixOf?, hw]
    case h_2 hcs =>
      -- The start of signed bit-vectors is one of `SInteger` too, but no digit follows it there.
      have hdigits : digits = "eger".toList := by simpa using congrArg String.toList hcs
      have he := isDigit_of_readWidth? hw (c := 'e') (by simp [hdigits])
      exact absurd he (by decide)
    all_goals
      rename_i hcs
      simpa using congrArg String.toList hcs
  | _ => rfl

theorem PlainName.reserved {cs : List Char} {k : Kind} (h : PlainName cs k) :
    ∃ start ∈ reservedStarts, start.toList <+: cs := by
  cases h with
  | word _ => exact ⟨"SWord", by decide, List.prefix_append _ _⟩
  | int _ => exact ⟨"SInt", by decide, List.prefix_append _ _⟩
  | _ => exact ⟨_, by decide, List.prefix_rfl⟩

theorem PlainName.unbracket? {cs : List Char} {k : Kind} (h : PlainName cs k) :
    unbracket? cs = none := by
  cases h <;> rfl

theorem plainName_name (k : Kind) (hlist : k.family ≠ .list) (huser : k.family ≠ .userSort) :
    PlainName k.name.toList k := by
  cases k with
  | bool => exact .bool
  | bitVector signed width =>
    have hw := readWidth?_toDigits width
    cases signed with
    | false => simpa [name, baseName] using PlainName.word hw
    | true => simpa [name, baseName] using PlainName.int hw
  | integer => exact .integer
  | real => exact .real
  | float => exact .float
  | double => exact .double
  | char => exact .char
  | string => exact .string
  | list _ => exact (hlist rfl).elim
  | user _ => exact (huser rfl).elim

@[simp] theorem unbracket?_brackets (cs : List Char) :
    unbracket? ('[' :: (cs ++ [']'])) = some cs := by
  simp [unbracket?]

theorem unbracket?_eq_none {cs : List Char} (h : ¬ "[".toList <+: cs) : unbracket? cs = none := by
  unfold unbracket?
  split
  · rename_i rest
    exact (h ⟨rest, rfl⟩).elim
  · rfl

theorem readChars_brackets (cs : List Char) :
    readChars ('[' :: (cs ++ [']'])) = (readChars cs).map .list := by
  rw [readChars]
  split
  · rename_i inner h
    rw [unbracket?_brackets] at h
    cases h
    rfl
  · rename_i h
    simp at h

theorem readChars_of_unbracket?_eq_none {cs : List Char} (h : unbracket? cs = none) :
    readChars cs = (readPlain? cs).elim (.error cs) .ok := by
  rw [readChars]
  split
  · simp_all
  · rfl

theorem readChars_of_plainName {cs : List Char} {k : Kind} (h : PlainName cs k) :
    readChars cs = .ok k := by
  rw [readChars_of_unbracket?_eq_none h.unbracket?, readPlain?_of_plainName h]
  rfl

/-- A text that is read starts like a built-in name. -/
theorem reserved_of_readChars {cs : List Char} {k : Kind} (h : readChars cs = .ok k) :
    ∃ start ∈ reservedStarts, start.toList <+: cs := by
  by_cases hb : "[".toList <+: cs
  · exact ⟨"[", by decide, hb⟩
  · rw [readChars_of_unbracket?_eq_none (unbracket?_eq_none hb)] at h
    cases hp : readPlain? cs with
    | none => simp [hp] at h
    | some plain => exact (plainName_of_readPlain? hp).reserved

theorem readChars_userName (sort : UserSort) :
    readChars sort.name.toList = .error sort.name.toList := by
  have hfree := reservedStart?_eq_none.mp sort.unreserved
  have hb := unbracket?_eq_none (hfree "[" (by decide))
  rw [readChars_of_unbracket?_eq_none hb]
  cases hp : readPlain? sort.name.toList with
  | none => rfl
  | some k =>
    obtain ⟨start, hs, hstart⟩ := (plainName_of_readPlain? hp).reserved
    exact (hfree start hs hstart).elim

/-- Each level of lists adds one pair of brackets, which the reader takes off again. -/
theorem readChars_listName (element : Kind) :
    readChars (Kind.list element).name.toList = (readChars element.name.toList).map .list := by
  simpa [name] using readChars_brackets element.name.toList

theorem readChars_name {k : Kind} (h : ∀ sort, k.innermost ≠ .user sort) :
    readChars k.name.toList = .ok k := by
  induction k with
  | list element ih =>
    rw [readChars_listName, ih h]
    rfl
  | user sort => exact (h sort rfl).elim
  | _ => exact readChars_of_plainName (plainName_name _ (by simp [family]) (by simp [family]))

theorem readChars_name_of_user {k : Kind} {sort : UserSort} (h : k.innermost = .user sort) :
    readChars k.name.toList = .error sort.name.toList := by
  induction k with
  | list element ih =>
    rw [readChars_listName, ih h]
    rfl
  | user own =>
    cases h
    exact readChars_userName sort
  | _ => cases h

/-- Names of built-in kinds are read back exactly. A kind over a user sort is refused with that
sort's name alone, and no text that is read is left for a user sort. -/
theorem read_separates_sorts :
    (∀ k : Kind, (∀ sort, k.innermost ≠ .user sort) → read k.name = .ok k) ∧
    (∀ (k : Kind) (sort : UserSort), k.innermost = .user sort →
      read k.name = .error (.unknownKind sort.name) ∧
      (Fault.unknownKind sort.name).message = "construction error: " ++ Text.quoted sort.name ++
        " is not the name of a built-in kind") ∧
    (∀ (k : Kind) (text : String), read text = .ok k →
      ∀ (m : Type → Type) [Monad m] (d : Description) (reprint : String → m (Option String)),
      d.name = text → ∃ start ∈ reservedStarts, start.toList <+: text.toList ∧
        d.build reprint = pure ⟨.error (.reservedName text start), [Log.note .info
          ("rejected user sort name " ++ text ++ ": reserved prefix " ++ start)]⟩) := by
  refine ⟨?_, ?_, ?_⟩
  · intro k h
    rw [read, readChars_name h]
    rfl
  · intro k sort h
    refine ⟨?_, rfl⟩
    rw [read, readChars_name_of_user h]
    simp [Except.mapError]
  · rintro k text h m _ d reprint rfl
    have hchars : readChars d.name.toList = .ok k := by
      unfold read at h
      cases hc : readChars d.name.toList with
      | error rest => simp [hc, Except.mapError] at h
      | ok other => simpa [hc, Except.mapError] using h
    obtain ⟨start, hs, hp⟩ := reserved_of_readChars hchars
    exact d.build_reserved reprint hs hp

/-- Two levels of lists over a signed width, a user sort whose name ends in a bracket, and a width
with a zero in front. -/
theorem read_separates_sorts_nested :
    read (list (list (int 16))).name = .ok (list (list (int 16))) ∧
    (∃ sort : UserSort, sort.name = "A]" ∧
      read (list (user sort)).name = .error (.unknownKind sort.name)) ∧
    read "SWord08" = .ok (word 8) ∧
    ∃ start ∈ reservedStarts,
      ((⟨"SWord08", [⟨"X", 0⟩]⟩ : Description).build (m := Id) some).result =
        .error (.reservedName "SWord08" start) := by
  obtain ⟨hread, huser, hbuild⟩ := read_separates_sorts
  have hwidth : readWidth? ['0', '8'] = some 8 := rfl
  have hzero : read "SWord08" = .ok (word 8) := by
    have hchars : readChars "SWord08".toList = .ok (word 8) := readChars_of_plainName (.word hwidth)
    rw [read, hchars]
    rfl
  refine ⟨hread _ (by simp [innermost]), ?_, hzero, ?_⟩
  · exact ⟨⟨"A]", .enumerated ["B"], by decide⟩, rfl, (huser _ _ rfl).1⟩
  · obtain ⟨start, hs, _, hb⟩ := hbuild _ _ hzero Id ⟨"SWord08", [⟨"X", 0⟩]⟩ some rfl
    exact ⟨start, hs, by rw [hb]; rfl⟩

end Kind
end SolverValues
