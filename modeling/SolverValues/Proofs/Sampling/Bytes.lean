import Mathlib.Tactic.IntervalCases
import Mathlib.Tactic.Ring
import SolverValues.Proofs.Sampling.Taken

/-!
Bit-vectors drawn byte by byte. Bytes are read from words, lowest first, the unused bits of the last
one are cleared, and the bytes are one number. It is the remainder of the words' number.
-/
namespace SolverValues.Sampling

variable {excess count : Nat} {bytes : List UInt8}

/-- The bytes of a word, lowest first. -/
def wordBytes (word : Nat) : List UInt8 := (List.range 8).map fun i => .ofNat (word / 256 ^ i)

/-- The bytes of the next `count` words. -/
def drawWordBytes : Nat → Draw (List UInt8)
  | 0 => return []
  | count + 1 => do
    let word ← drawWord
    let rest ← drawWordBytes count
    return wordBytes word ++ rest

/-- The next `count` bytes. Every eight bytes started take a word. -/
def drawBytes (count : Nat) : Draw (List UInt8) :=
  return (← drawWordBytes ((count + 7) / 8)).take count

/-- The bytes with the highest bits of the last one cleared. -/
def clearTop (excess : Nat) : List UInt8 → List UInt8
  | [] => []
  | [top] => [top &&& 0xff >>> UInt8.ofNat excess]
  | byte :: rest => byte :: clearTop excess rest

/-- The number with the given bytes, lowest first. -/
def littleEndian : List UInt8 → Nat
  | [] => 0
  | byte :: rest => byte.toNat + 256 * littleEndian rest

/-- A bit-vector from as many bytes as hold its bits. -/
def drawFromBytes (signed : Bool) (width : Nat) : Draw Int := do
  if width = 0 then return 0
  else do
    let bytes ← drawBytes ((width + 7) / 8)
    let bits := littleEndian (clearTop (8 * ((width + 7) / 8) - width) bytes)
    return if signed then Int.ofNat bits - Int.ofNat (Nat.pow 2 (width - 1)) else Int.ofNat bits

theorem littleEndian_append (bytes rest : List UInt8) :
    littleEndian (bytes ++ rest) = littleEndian bytes + 256 ^ bytes.length * littleEndian rest := by
  induction bytes with
  | nil => simp [littleEndian]
  | cons byte bytes ih =>
    simp only [List.cons_append, littleEndian, ih, List.length_cons, Nat.pow_succ]
    ring

theorem littleEndian_take (count : Nat) (bytes : List UInt8) :
    littleEndian (bytes.take count) = littleEndian bytes % 256 ^ count := by
  induction count generalizing bytes with
  | zero => simp [littleEndian, Nat.mod_one]
  | succ count ih =>
    cases bytes with
    | nil => simp [littleEndian]
    | cons byte bytes =>
      have hbyte := byte.toNat_lt
      have hlow : (byte.toNat + 256 * littleEndian bytes) % 256 = byte.toNat := by omega
      have hhigh : (byte.toNat + 256 * littleEndian bytes) / 256 = littleEndian bytes := by omega
      rw [List.take_succ_cons, littleEndian, littleEndian, ih, Nat.pow_succ', Nat.mod_mul, hlow,
        hhigh]

theorem toNat_mask (top : UInt8) (h : excess < 8) :
    (top &&& 0xff >>> UInt8.ofNat excess).toNat = top.toNat % 2 ^ (8 - excess) := by
  have hmask : (0xff >>> UInt8.ofNat excess).toNat = 2 ^ (8 - excess) - 1 := by
    interval_cases excess <;> rfl
  rw [UInt8.toNat_and, hmask, Nat.and_two_pow_sub_one_eq_mod]

theorem littleEndian_clearTop (hexcess : excess < 8) (hbytes : bytes ≠ []) :
    littleEndian (clearTop excess bytes) =
      littleEndian bytes % 2 ^ (8 * bytes.length - excess) := by
  fun_induction clearTop excess bytes with
  | case1 => exact (hbytes rfl).elim
  | case2 top => simp [littleEndian, toNat_mask top hexcess]
  | case3 byte rest hrest ih =>
    have hne : rest ≠ [] := by simpa using hrest
    have hpos := List.length_pos_iff.mpr hne
    have hbyte := byte.toNat_lt
    have hlow : (byte.toNat + 256 * littleEndian rest) % 256 = byte.toNat := by omega
    have hhigh : (byte.toNat + 256 * littleEndian rest) / 256 = littleEndian rest := by omega
    have hsplit : 8 * (byte :: rest).length - excess = 8 + (8 * rest.length - excess) := by
      rw [List.length_cons]
      omega
    rw [littleEndian, littleEndian, ih hne, hsplit, Nat.pow_add, Nat.mod_mul, hlow, hhigh]

theorem length_wordBytes (word : Nat) : (wordBytes word).length = 8 := by simp [wordBytes]

theorem littleEndian_bytes (word count : Nat) :
    littleEndian ((List.range count).map fun i => .ofNat (word / 256 ^ i)) =
      word % 256 ^ count := by
  induction count with
  | zero => simp [littleEndian, Nat.mod_one]
  | succ count ih =>
    rw [List.range_succ, List.map_append, littleEndian_append, ih, Nat.mod_pow_succ]
    simp [littleEndian]

theorem littleEndian_wordBytes {word : Nat} (h : word < 2 ^ 64) :
    littleEndian (wordBytes word) = word := by
  rw [wordBytes, littleEndian_bytes]
  exact Nat.mod_eq_of_lt h

/-- Words drawn as bytes are as many words, and the bytes are their number. -/
theorem drawWordBytes_eq (count : Nat) (t : Tape) :
    ∃ bytes t', (drawWordBytes count).run t = (bytes, t') ∧ bytes.length = 8 * count ∧
      (drawWords count).run t = (littleEndian bytes, t') := by
  induction count generalizing t with
  | zero => exact ⟨[], t, rfl, rfl, rfl⟩
  | succ count ih =>
    obtain ⟨bytes, t', hbytes, hlength, hwords⟩ := ih { t with used := t.used + 1 }
    refine ⟨wordBytes (t.word t.used).toNat ++ bytes, t', ?_, ?_, ?_⟩
    · change (wordBytes (t.word t.used).toNat ++ ((drawWordBytes count).run _).1,
        ((drawWordBytes count).run _).2) = _
      rw [hbytes]
    · rw [List.length_append, length_wordBytes, hlength]
      omega
    · change ((t.word t.used).toNat + UInt64.size * ((drawWords count).run _).1,
        ((drawWords count).run _).2) = _
      rw [hwords, littleEndian_append, littleEndian_wordBytes (t.word t.used).toNat_lt,
        length_wordBytes]
      rfl

/-- The bits that are left of the last byte are just those of the width. -/
theorem littleEndian_clearTop_take {width : Nat} (hwidth : width ≠ 0)
    (hlength : (width + 7) / 8 ≤ bytes.length) :
    littleEndian (clearTop (8 * ((width + 7) / 8) - width) (bytes.take ((width + 7) / 8))) =
      littleEndian bytes % 2 ^ width := by
  have hcount : (bytes.take ((width + 7) / 8)).length = (width + 7) / 8 :=
    List.length_take_of_le hlength
  have hne : bytes.take ((width + 7) / 8) ≠ [] := by
    intro hnil
    rw [hnil, List.length_nil] at hcount
    omega
  have hbits : 8 * ((width + 7) / 8) - (8 * ((width + 7) / 8) - width) = width := by omega
  have hdvd : 2 ^ width ∣ 256 ^ ((width + 7) / 8) := by
    have hpow : 256 ^ ((width + 7) / 8) = 2 ^ (8 * ((width + 7) / 8)) :=
      (Nat.pow_mul 2 8 _).symm
    rw [hpow]
    exact Nat.pow_dvd_pow 2 (by omega)
  rw [littleEndian_clearTop (by omega) hne, hcount, hbits, littleEndian_take,
    Nat.mod_mod_of_dvd _ hdvd]

theorem drawBitVector_eq_drawFromBytes (signed : Bool) (width : Nat) :
    drawBitVector signed width = drawFromBytes signed width := by
  by_cases hwidth : width = 0
  · rw [drawBitVector, drawFromBytes, if_pos hwidth, if_pos hwidth]
  · apply StateT.ext
    intro t
    have hcount : ((width + 7) / 8 + 7) / 8 = (width + 63) / 64 := by omega
    obtain ⟨bytes, t', hbytes, hlength, hwords⟩ := drawWordBytes_eq ((width + 63) / 64) t
    have hle : (width + 7) / 8 ≤ bytes.length := by omega
    have hbits := littleEndian_clearTop_take hwidth hle
    have hdrawn : (drawBytes ((width + 7) / 8)).run t = (bytes.take ((width + 7) / 8), t') := by
      rw [drawBytes, hcount, run_bind, hbytes]
      rfl
    rw [drawBitVector, drawFromBytes, if_neg hwidth, if_neg hwidth, run_bind, run_bind, hwords,
      hdrawn, hbits]
    rfl

end SolverValues.Sampling
