import SolverValues.Proofs.Text.Separated
import SolverValues.Text.Quoted

/-!
Quoted texts. No written character is the start of another one, and none starts with the quote, so a
quoted text tells what it quotes and where it ends, whichever characters are hidden.
-/
namespace SolverValues.Text

variable {hidden : Char → Bool} {quote c d : Char} {cs ds s t : List Char} {b n m : Nat}

theorem digitChar_injective : ∀ n < 16, ∀ m < 16, Nat.digitChar n = Nat.digitChar m → n = m := by
  decide

theorem exists_of_mem_toDigits (hb : 1 < b) (hc : c ∈ Nat.toDigits b n) :
    ∃ d < b, c = Nat.digitChar d := by
  induction n using Nat.strongRecOn with
  | ind n ih =>
    rw [Nat.toDigits_eq_if hb] at hc
    split at hc
    · rename_i hn
      exact ⟨n, hn, List.mem_singleton.mp hc⟩
    · rcases List.mem_append.mp hc with hc | hc
      · exact ih (n / b) (Nat.div_lt_self (by omega) hb) hc
      · exact ⟨n % b, Nat.mod_lt n (by omega), List.mem_singleton.mp hc⟩

theorem toDigits_ne_singleton (hb : 1 < b) (hn : b ≤ n) : Nat.toDigits b n ≠ [c] := by
  intro h
  rw [Nat.toDigits_of_base_le hb hn] at h
  have hlength := congrArg List.length h
  simp [Nat.toDigits_ne_nil] at hlength

theorem toDigits_inj (hb : 1 < b) (hb' : b ≤ 16) (h : Nat.toDigits b n = Nat.toDigits b m) :
    n = m := by
  induction n using Nat.strongRecOn generalizing m with
  | ind n ih =>
    by_cases hn : n < b
    · rw [Nat.toDigits_of_lt_base hn] at h
      have hm : m < b := Nat.lt_of_not_le fun hm => toDigits_ne_singleton hb hm h.symm
      rw [Nat.toDigits_of_lt_base hm] at h
      exact digitChar_injective n (by omega) m (by omega) (List.cons.inj h).1
    · have hm : ¬ m < b := by
        intro hm
        rw [Nat.toDigits_of_lt_base hm] at h
        exact toDigits_ne_singleton hb (by omega) h
      have hbn := Nat.le_of_not_lt hn
      rw [Nat.toDigits_of_base_le hb hbn, Nat.toDigits_of_base_le hb (Nat.le_of_not_lt hm)] at h
      obtain ⟨hfirst, hlast⟩ := List.append_inj' h rfl
      have hdiv : n / b = m / b := ih (n / b) (Nat.div_lt_self (by omega) hb) hfirst
      have hnb := Nat.mod_lt n (show 0 < b by omega)
      have hmb := Nat.mod_lt m (show 0 < b by omega)
      have hmod : n % b = m % b :=
        digitChar_injective _ (by omega) _ (by omega) (List.cons.inj hlast).1
      rw [← Nat.div_add_mod n b, hdiv, hmod, Nat.div_add_mod]

/-- Quotes of strings and of characters. -/
def IsQuote (c : Char) : Prop := c = '"' ∨ c = '\x27'

/-- What a letter after a backslash stands for. -/
def unescaped : Char → Char
  | '0' => '\x00'
  | 't' => '\t'
  | 'r' => '\r'
  | 'n' => '\n'
  | c => c

/-- The written forms of a character: after a backslash, by its code in hexadecimal, and as it is. -/
inductive Written (quote : Char) : Char → List Char → Prop where
  | letter (x : Char) (h : x ≠ 'u') : Written quote (unescaped x) ['\\', x]
  | code (c : Char) :
    Written quote c ('\\' :: 'u' :: '\x7b' :: (Nat.toDigits 16 c.toNat ++ ['\x7d']))
  | plain (c : Char) (h : c ≠ '\\') (hquote : c ≠ quote) : Written quote c [c]

theorem written_escape (hidden : Char → Bool) (hquote : IsQuote quote) (c : Char) :
    Written quote c (escape hidden quote c) := by
  unfold escape
  by_cases hzero : c = '\x00'
  · rw [if_pos hzero, hzero]
    exact .letter '0' (by decide)
  by_cases htab : c = '\t'
  · rw [if_neg hzero, if_pos htab, htab]
    exact .letter 't' (by decide)
  by_cases hreturn : c = '\r'
  · rw [if_neg hzero, if_neg htab, if_pos hreturn, hreturn]
    exact .letter 'r' (by decide)
  by_cases hline : c = '\n'
  · rw [if_neg hzero, if_neg htab, if_neg hreturn, if_pos hline, hline]
    exact .letter 'n' (by decide)
  by_cases hself : c = '\\' ∨ c = quote
  · rw [if_neg hzero, if_neg htab, if_neg hreturn, if_neg hline, if_pos hself]
    have hletter : unescaped c = c ∧ c ≠ 'u' := by
      rcases hself with rfl | rfl
      · decide
      · rcases hquote with rfl | rfl <;> decide
    have hwritten : Written quote (unescaped c) ['\\', c] := .letter c hletter.2
    rwa [hletter.1] at hwritten
  · rw [if_neg hzero, if_neg htab, if_neg hreturn, if_neg hline, if_neg hself]
    obtain ⟨hslash, hne⟩ := not_or.mp hself
    split
    · exact .code c
    · exact .plain c hslash hne

/-- No hexadecimal digit closes the braces around a code. -/
theorem code_inj (h : Nat.toDigits 16 n ++ '\x7d' :: s = Nat.toDigits 16 m ++ '\x7d' :: t) :
    n = m ∧ s = t := by
  have hfree (k : Nat) : ∀ c ∈ Nat.toDigits 16 k, ¬ (c == '\x7d') = true := by
    intro c hc
    obtain ⟨d, hd, rfl⟩ := exists_of_mem_toDigits (by decide) hc
    have hdigits : ∀ d < 16, ¬ (Nat.digitChar d == '\x7d') = true := by decide
    exact hdigits d hd
  have stop_cons (rest : List Char) : Stops (· == '\x7d') ('\x7d' :: rest) := rfl
  obtain ⟨hdigits, hrest⟩ :=
    append_inj_of_stops (hfree n) (hfree m) (stop_cons s) (stop_cons t) h
  exact ⟨toDigits_inj (by decide) (by decide) hdigits, (List.cons.inj hrest).2⟩

theorem Written.append_inj (hc : Written quote c cs) (hd : Written quote d ds)
    (h : cs ++ s = ds ++ t) : c = d ∧ s = t := by
  cases hc with
  | letter x hx =>
    cases hd with
    | letter y hy =>
      obtain ⟨rfl, hst⟩ := List.cons.inj (List.cons.inj h).2
      exact ⟨rfl, hst⟩
    | code d => exact (hx (List.cons.inj (List.cons.inj h).2).1).elim
    | plain d hd => exact (hd (List.cons.inj h).1.symm).elim
  | code c =>
    cases hd with
    | letter y hy => exact (hy (List.cons.inj (List.cons.inj h).2).1.symm).elim
    | code d =>
      have hcode : Nat.toDigits 16 c.toNat ++ '\x7d' :: s =
          Nat.toDigits 16 d.toNat ++ '\x7d' :: t := by
        simpa using h
      obtain ⟨hnat, hst⟩ := code_inj hcode
      exact ⟨Char.toNat_inj.mp hnat, hst⟩
    | plain d hd => exact (hd (List.cons.inj h).1.symm).elim
  | plain c hc =>
    cases hd with
    | letter y hy => exact (hc (List.cons.inj h).1).elim
    | code d => exact (hc (List.cons.inj h).1).elim
    | plain d hd => exact List.cons.inj h

/-- A quote ends the text, as no written character starts with it. -/
theorem Written.ne_quote (hquote : IsQuote quote) (hc : Written quote c cs) :
    cs ++ s ≠ quote :: t := by
  intro h
  cases hc with
  | letter x hx => rcases hquote with rfl | rfl <;> simp at h
  | code c => rcases hquote with rfl | rfl <;> simp at h
  | plain c hc hne => exact hne (List.cons.inj h).1

/-- What stands between two quotes tells the text and where it ends. -/
theorem enclose_append_inj (hquote : IsQuote quote)
    (h : (enclose hidden quote cs).toList ++ s = (enclose hidden quote ds).toList ++ t) :
    cs = ds ∧ s = t := by
  have hwritten := written_escape hidden hquote
  have hbody : cs.flatMap (escape hidden quote) ++ quote :: s =
      ds.flatMap (escape hidden quote) ++ quote :: t := by
    simpa [enclose] using h
  clear h
  induction cs generalizing ds with
  | nil =>
    cases ds with
    | nil => exact ⟨rfl, (List.cons.inj hbody).2⟩
    | cons d ds =>
      rw [List.flatMap_cons, List.append_assoc] at hbody
      exact ((hwritten d).ne_quote hquote hbody.symm).elim
  | cons c cs ih =>
    rw [List.flatMap_cons, List.append_assoc] at hbody
    cases ds with
    | nil => exact ((hwritten c).ne_quote hquote hbody).elim
    | cons d ds =>
      rw [List.flatMap_cons, List.append_assoc] at hbody
      obtain ⟨rfl, hrest⟩ := (hwritten c).append_inj (hwritten d) hbody
      obtain ⟨rfl, hst⟩ := ih hrest
      exact ⟨rfl, hst⟩

/-- Quoted texts can be the items of a list, whatever commas and brackets they quote. -/
theorem separable_enclose (hidden : Char → Bool) (hquote : IsQuote quote) :
    Separable (fun _ => True) (enclose hidden quote) where
  opens {cs} _ := by
    refine ⟨quote, cs.flatMap (escape hidden quote) ++ [quote], by simp [enclose], ?_⟩
    rcases hquote with rfl | rfl <;> decide
  inj _ _ _ _ h := enclose_append_inj hquote h

end SolverValues.Text
