import Mathlib.Logic.Function.Iterate
import SolverValues.Proofs.Kind.Reading

/-!
The grammar of kinds' names. The texts that are read are spellings of built-in kinds inside brackets
in pairs; every other text is quoted without its pairs of brackets.
-/
namespace SolverValues.Kind

/-- A text between `n` brackets on each side. -/
def bracketed (n : Nat) (cs : List Char) : List Char :=
  List.replicate n '[' ++ cs ++ List.replicate n ']'

/-- The spelling of a kind without brackets: a word, and the digits of a width after it. -/
inductive Spelling : List Char → List Char → Kind → Prop where
  | bool : Spelling "SBool".toList [] .bool
  | integer : Spelling "SInteger".toList [] .integer
  | real : Spelling "SReal".toList [] .real
  | float : Spelling "SFloat".toList [] .float
  | double : Spelling "SDouble".toList [] .double
  | string : Spelling "SString".toList [] .string
  | char : Spelling "SChar".toList [] .char
  | word {digits : List Char} {width : UInt64} (hne : digits ≠ [])
      (hdigits : ∀ c ∈ digits, c.isDigit) (hvalue : Nat.ofDigitChars 10 digits 0 = width.toNat) :
      Spelling "SWord".toList digits (.word width)
  | int {digits : List Char} {width : UInt64} (hne : digits ≠ [])
      (hdigits : ∀ c ∈ digits, c.isDigit) (hvalue : Nat.ofDigitChars 10 digits 0 = width.toNat) :
      Spelling "SInt".toList digits (.int width)

variable {cs head digits : List Char} {k plain : Kind} {n : Nat}

theorem bracketed_succ (n : Nat) (cs : List Char) :
    bracketed (n + 1) cs = '[' :: (bracketed n cs ++ [']']) := by
  have hclose : List.replicate (n + 1) ']' = List.replicate n ']' ++ [']'] := List.replicate_succ'
  simp only [bracketed, hclose, List.replicate_succ, List.cons_append, List.append_assoc]

theorem eq_brackets_of_unbracket? {inner : List Char} (h : unbracket? cs = some inner) :
    cs = '[' :: (inner ++ [']']) := by
  unfold unbracket? at h
  split at h
  · split at h
    · rename_i rest hlast
      cases h
      rw [List.dropLast_append_getLast? ']' hlast]
    · cases h
  · cases h

theorem unbracket?_eq_none_iff :
    unbracket? cs = none ↔ ∀ inner, cs ≠ '[' :: (inner ++ [']']) := by
  constructor
  · rintro h inner rfl
    rw [unbracket?_brackets] at h
    cases h
  · intro h
    cases hcs : unbracket? cs with
    | none => rfl
    | some inner => exact (h inner (eq_brackets_of_unbracket? hcs)).elim

/-- Taking brackets off in pairs ends with a text that has none to take off. -/
theorem exists_bracketed (cs : List Char) :
    ∃ n rest, cs = bracketed n rest ∧ unbracket? rest = none := by
  cases h : unbracket? cs with
  | none => exact ⟨0, cs, by simp [bracketed], h⟩
  | some inner =>
    obtain ⟨n, rest, hinner, hrest⟩ := exists_bracketed inner
    refine ⟨n + 1, rest, ?_, hrest⟩
    rw [bracketed_succ, ← hinner]
    exact eq_brackets_of_unbracket? h
termination_by cs.length
decreasing_by exact length_lt_of_unbracket? h

theorem readChars_bracketed (n : Nat) (cs : List Char) :
    readChars (bracketed n cs) = (readChars cs).map list^[n] := by
  induction n with
  | zero => cases h : readChars cs <;> simp [bracketed, h, Except.map]
  | succ n ih =>
    rw [bracketed_succ, readChars_brackets, ih]
    cases readChars cs <;> simp [Except.map, Function.iterate_succ_apply']

theorem readWidth?_eq_some_iff {width : UInt64} :
    readWidth? digits = some width ↔ digits ≠ [] ∧ (∀ c ∈ digits, c.isDigit) ∧
      Nat.ofDigitChars 10 digits 0 = width.toNat := by
  rw [← Text.numeral?_eq_some_iff]
  unfold readWidth?
  cases Text.numeral? digits with
  | none => simp
  | some n =>
    by_cases hn : n < UInt64.size
    · rw [Option.bind_eq_bind, Option.bind_some, dif_pos hn, Option.some_inj, Option.some_inj]
      rw [← UInt64.toNat_inj, UInt64.toNat_ofNatLT]
    · have hw := width.toNat_lt_size
      rw [Option.bind_eq_bind, Option.bind_some, dif_neg hn, Option.some_inj]
      constructor
      · intro h
        cases h
      · intro h
        omega

theorem plainName_iff_spelling :
    PlainName cs k ↔ ∃ head digits, cs = head ++ digits ∧ Spelling head digits k := by
  constructor
  · intro h
    cases h with
    | word hw =>
      obtain ⟨hne, hdigits, hvalue⟩ := readWidth?_eq_some_iff.mp hw
      exact ⟨_, _, rfl, .word hne hdigits hvalue⟩
    | int hw =>
      obtain ⟨hne, hdigits, hvalue⟩ := readWidth?_eq_some_iff.mp hw
      exact ⟨_, _, rfl, .int hne hdigits hvalue⟩
    | bool => exact ⟨_, _, rfl, .bool⟩
    | integer => exact ⟨_, _, rfl, .integer⟩
    | real => exact ⟨_, _, rfl, .real⟩
    | float => exact ⟨_, _, rfl, .float⟩
    | double => exact ⟨_, _, rfl, .double⟩
    | string => exact ⟨_, _, rfl, .string⟩
    | char => exact ⟨_, _, rfl, .char⟩
  · rintro ⟨head, digits, rfl, h⟩
    cases h with
    | word hne hdigits hvalue => exact .word (readWidth?_eq_some_iff.mpr ⟨hne, hdigits, hvalue⟩)
    | int hne hdigits hvalue => exact .int (readWidth?_eq_some_iff.mpr ⟨hne, hdigits, hvalue⟩)
    | _ => constructor

theorem name_iterate_list (n : Nat) (k : Kind) :
    (list^[n] k).name.toList = bracketed n k.name.toList := by
  induction n with
  | zero => simp [bracketed]
  | succ n ih =>
    rw [Function.iterate_succ_apply', bracketed_succ, ← ih]
    simp [name]

theorem Spelling.name (h : Spelling head digits k) :
    k.name.toList = head ++ Text.significant digits := by
  cases h with
  | word hne hdigits hvalue =>
    rw [← Text.toDigits_ofDigitChars hne hdigits, hvalue]
    simp [Kind.name, baseName]
  | int hne hdigits hvalue =>
    rw [← Text.toDigits_ofDigitChars hne hdigits, hvalue]
    simp [Kind.name, baseName]
  | _ => rfl

theorem read_eq_error_iff {text : String} {fault : Fault} : read text = .error fault ↔
    ∃ rest, readChars text.toList = .error rest ∧ fault = .unknownKind (String.ofList rest) := by
  unfold read
  cases readChars text.toList <;> simp [Except.mapError, eq_comm]

theorem read_eq_ok_iff {text : String} : read text = .ok k ↔ readChars text.toList = .ok k := by
  unfold read
  cases readChars text.toList <;> simp [Except.mapError]

/-- What is read is what is spelled inside brackets; what is not is quoted without them. -/
theorem readChars_eq_ok_iff : readChars cs = .ok k ↔ ∃ n head digits plain,
    Spelling head digits plain ∧ cs = bracketed n (head ++ digits) ∧ k = list^[n] plain := by
  constructor
  · intro h
    obtain ⟨n, rest, rfl, hrest⟩ := exists_bracketed cs
    rw [readChars_bracketed, readChars_of_unbracket?_eq_none hrest] at h
    cases hplain : readPlain? rest with
    | none => simp [hplain, Except.map] at h
    | some plain =>
      obtain ⟨head, digits, rfl, hspelling⟩ :=
        plainName_iff_spelling.mp (plainName_of_readPlain? hplain)
      simp only [hplain, Option.elim_some, Except.map, Except.ok.injEq] at h
      exact ⟨n, head, digits, plain, hspelling, rfl, h.symm⟩
  · rintro ⟨n, head, digits, plain, hspelling, rfl, rfl⟩
    have hname := plainName_iff_spelling.mpr ⟨head, digits, rfl, hspelling⟩
    rw [readChars_bracketed, readChars_of_plainName hname]
    rfl

theorem readChars_eq_error {rest : List Char} (h : readChars cs = .error rest) :
    ∃ n, cs = bracketed n rest ∧ ∀ inner, rest ≠ '[' :: (inner ++ [']']) := by
  obtain ⟨n, left, rfl, hleft⟩ := exists_bracketed cs
  rw [readChars_bracketed, readChars_of_unbracket?_eq_none hleft] at h
  cases hplain : readPlain? left with
  | some plain => simp [hplain, Except.map] at h
  | none =>
    simp only [hplain, Option.elim_none, Except.map, Except.error.injEq] at h
    subst h
    exact ⟨n, rfl, unbracket?_eq_none_iff.mp hleft⟩

theorem innermost_iterate_list (n : Nat) (k : Kind) : (list^[n] k).innermost = k.innermost := by
  induction n with
  | zero => rfl
  | succ n ih =>
    rw [Function.iterate_succ_apply']
    exact ih

theorem Spelling.not_user (h : Spelling head digits k) (sort : UserSort) :
    k.innermost ≠ .user sort := by
  cases h <;> simp [innermost]

/-- A text is read just when it spells a built-in kind inside brackets in pairs, as lists of that
kind. The name of what is read has no superfluous zeros. A failure quotes what is left of the text
when all brackets in pairs are off. -/
theorem read_spelled (text : String) :
    (∀ k, read text = .ok k ↔ ∃ n head digits plain, Spelling head digits plain ∧
      text.toList = bracketed n (head ++ digits) ∧ k = list^[n] plain) ∧
    (∀ n head digits plain, Spelling head digits plain →
      text.toList = bracketed n (head ++ digits) →
      ∃ k, read text = .ok k ∧ k.name.toList = bracketed n (head ++ Text.significant digits)) ∧
    ((∃ k, read text = .ok k ∧ k.name = text) ↔
      ∃ k : Kind, (∀ sort, k.innermost ≠ .user sort) ∧ k.name = text) ∧
    (∀ fault, read text = .error fault → ∃ n rest, text.toList = bracketed n rest ∧
      (∀ inner, rest ≠ '[' :: (inner ++ [']'])) ∧ fault = .unknownKind (String.ofList rest) ∧
      fault.message = "construction error: " ++ Text.quoted (String.ofList rest) ++
        " is not the name of a built-in kind") := by
  have hread : ∀ k, read text = .ok k ↔ ∃ n head digits plain, Spelling head digits plain ∧
      text.toList = bracketed n (head ++ digits) ∧ k = list^[n] plain := by
    intro k
    rw [read_eq_ok_iff, readChars_eq_ok_iff]
  refine ⟨hread, ?_, ?_, ?_⟩
  · intro n head digits plain hspelling htext
    refine ⟨list^[n] plain, (hread _).mpr ⟨n, head, digits, plain, hspelling, htext, rfl⟩, ?_⟩
    rw [name_iterate_list, hspelling.name]
  · constructor
    · rintro ⟨k, hk, hname⟩
      obtain ⟨n, head, digits, plain, hspelling, _, rfl⟩ := (hread k).mp hk
      refine ⟨_, fun sort => ?_, hname⟩
      rw [innermost_iterate_list]
      exact hspelling.not_user sort
    · rintro ⟨k, hk, rfl⟩
      exact ⟨k, read_eq_ok_iff.mpr (readChars_name hk), rfl⟩
  · intro fault h
    obtain ⟨rest, hrest, rfl⟩ := read_eq_error_iff.mp h
    obtain ⟨n, htext, hbare⟩ := readChars_eq_error hrest
    exact ⟨n, rest, htext, hbare, rfl, rfl⟩

/-- Two pairs of brackets around a width with zeros in front, and one pair around a bracket. -/
theorem read_spelled_brackets :
    read "[[SInt008]]" = .ok (list (list (int 8))) ∧
    (∃ k, read "[[SInt008]]" = .ok k ∧ k.name.toList = "[[SInt8]]".toList) ∧
    (∃ n rest, "[]]".toList = bracketed n rest ∧ (∀ inner, rest ≠ '[' :: (inner ++ [']'])) ∧
      Fault.unknownKind "]" = .unknownKind (String.ofList rest)) := by
  have hdigits : ∀ c ∈ "008".toList, c.isDigit := List.all_eq_true.mp rfl
  have hspelling : Spelling "SInt".toList "008".toList (int 8) := .int (by decide) hdigits rfl
  have hinner : readChars [']'] = .error [']'] := readChars_of_unbracket?_eq_none rfl
  have hfault : read "[]]" = .error (.unknownKind "]") := by
    refine read_eq_error_iff.mpr ⟨[']'], ?_, rfl⟩
    exact (readChars_brackets [']']).trans (by rw [hinner]; rfl)
  refine ⟨?_, (read_spelled _).2.1 2 _ _ _ hspelling rfl, ?_⟩
  · exact ((read_spelled _).1 _).mpr ⟨2, _, _, _, hspelling, rfl, rfl⟩
  · obtain ⟨n, rest, htext, hbare, heq, _⟩ := (read_spelled _).2.2.2 _ hfault
    exact ⟨n, rest, htext, hbare, heq⟩

end SolverValues.Kind
