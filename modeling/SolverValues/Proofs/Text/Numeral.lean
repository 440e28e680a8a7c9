import SolverValues.Text.Decimal

/-!
Decimal numerals. They read back as the number they were written for, and writing what one reads as
takes nothing off it but superfluous zeros.
-/
namespace SolverValues.Text

theorem numeral?_toDigits (n : Nat) : numeral? (Nat.toDigits 10 n) = some n := by
  have hdigits : ∀ c ∈ Nat.toDigits 10 n, c.isDigit := by
    intro c hc
    exact Nat.isDigit_of_mem_toDigits (by decide) (by decide) hc
  rw [numeral?, if_pos ⟨Nat.toDigits_ne_nil, List.all_eq_true.mpr hdigits⟩]
  rw [Nat.ofDigitChars_ten_toDigits]

/-- A numeral holds nothing but digits, so no letter can follow one. -/
theorem isDigit_of_numeral? {cs : List Char} {n : Nat} (h : numeral? cs = some n) {c : Char}
    (hc : c ∈ cs) : c.isDigit := by
  unfold numeral? at h
  split at h
  · rename_i hcs
    exact List.all_eq_true.mp hcs.2 c hc
  · cases h

theorem numeral?_eq_some_iff {cs : List Char} {n : Nat} :
    numeral? cs = some n ↔
      cs ≠ [] ∧ (∀ c ∈ cs, c.isDigit) ∧ Nat.ofDigitChars 10 cs 0 = n := by
  simp [numeral?, and_assoc]

/-- The digits without the zeros that stand before another digit. -/
def significant : List Char → List Char
  | '0' :: digit :: digits => significant (digit :: digits)
  | digits => digits

/-- A digit is the character of the number it stands for. -/
theorem exists_digitChar {c : Char} (h : c.isDigit) : ∃ d < 10, c = Nat.digitChar d := by
  have hrange : 48 ≤ c.toNat ∧ c.toNat ≤ 57 := Char.isDigit_iff_toNat.mp h
  have hlt : c.toNat - 48 < 10 := by omega
  refine ⟨c.toNat - 48, hlt, ?_⟩
  rw [← Char.toNat_inj, Nat.toNat_digitChar_of_lt_ten hlt]
  omega

/-- The digits of a positive number, and any more after them, are the digits of what they make. -/
theorem toDigits_ofDigitChars_of_pos {cs : List Char} {n : Nat} (hn : 0 < n)
    (h : ∀ c ∈ cs, c.isDigit) :
    Nat.toDigits 10 (Nat.ofDigitChars 10 cs n) = Nat.toDigits 10 n ++ cs := by
  induction cs generalizing n with
  | nil => simp
  | cons c cs ih =>
    obtain ⟨d, hd, rfl⟩ := exists_digitChar (h c List.mem_cons_self)
    have hrest : ∀ x ∈ cs, x.isDigit := fun x hx => h x (List.mem_cons_of_mem _ hx)
    rw [Nat.ofDigitChars_cons_digitChar_of_lt_ten hd, ih (by omega) hrest]
    rw [← Nat.toDigits_append_toDigits (by decide) hn hd, Nat.toDigits_of_lt_base hd]
    rw [List.append_assoc, List.singleton_append]

/-- Writing what a numeral stands for gives the numeral without its superfluous zeros. -/
theorem toDigits_ofDigitChars {cs : List Char} (hne : cs ≠ []) (h : ∀ c ∈ cs, c.isDigit) :
    Nat.toDigits 10 (Nat.ofDigitChars 10 cs 0) = significant cs := by
  fun_induction significant cs with
  | case1 digit digits ih =>
    exact ih (by simp) fun c hc => h c (List.mem_cons_of_mem _ hc)
  | case2 cs hzero =>
    cases cs with
    | nil => exact (hne rfl).elim
    | cons c cs =>
      obtain ⟨d, hd, rfl⟩ := exists_digitChar (h c List.mem_cons_self)
      have hrest : ∀ x ∈ cs, x.isDigit := fun x hx => h x (List.mem_cons_of_mem _ hx)
      rw [Nat.ofDigitChars_cons_digitChar_of_lt_ten hd, Nat.mul_zero, Nat.zero_add]
      by_cases hd0 : d = 0
      · subst hd0
        cases cs with
        | nil => rfl
        | cons digit digits => exact (hzero digit digits rfl).elim
      · rw [toDigits_ofDigitChars_of_pos (by omega) hrest, Nat.toDigits_of_lt_base hd]
        rfl

end SolverValues.Text
