import Mathlib.Data.List.Lex
import Trackline.Proofs.Number.Text
import Trackline.Time.Timestamp

/-! Numbers in a fixed count of digits. They read back with whatever stands behind them, and
texts that begin with them are in the order of the numbers. -/
namespace Trackline

private theorem append_lt_append_iff {a b s t : List Char} (same : a.length = b.length) :
    a ++ s < b ++ t ↔ a < b ∨ a = b ∧ s < t := by
  induction a generalizing b with
  | nil =>
    rw [List.length_eq_zero_iff.mp same.symm]
    simp
  | cons c a ih =>
    obtain ⟨d, b, rfl⟩ := List.exists_cons_of_length_eq_add_one same.symm
    rw [List.cons_append, List.cons_append, List.cons_lt_cons_iff, List.cons_lt_cons_iff,
      ih (Nat.succ.inj same), List.cons.injEq]
    tauto

private theorem ofDigitChars_cons_zero (c : Char) (s : List Char) :
    Nat.ofDigitChars 10 (c :: s) 0 = 10 ^ s.length * (c.toNat - 48) + Nat.ofDigitChars 10 s 0 := by
  rw [Nat.ofDigitChars_cons, Nat.mul_zero, Nat.zero_add, Nat.ofDigitChars_eq_ofDigitChars_zero]
  rfl

private theorem isDigit_bounds {c : Char} (digit : c.isDigit = true) : 48 ≤ c.toNat ∧ c.toNat ≤ 57 :=
  Char.isDigit_iff_toNat.mp digit

private theorem ofDigitChars_lt {s : List Char} (digits : ∀ c ∈ s, c.isDigit = true) :
    Nat.ofDigitChars 10 s 0 < 10 ^ s.length := by
  induction s with
  | nil => simp
  | cons c s ih =>
    obtain ⟨first, rest⟩ := List.forall_mem_cons.mp digits
    have most : c.toNat - 48 ≤ 9 := by
      have bounds := isDigit_bounds first
      omega
    have front := Nat.mul_le_mul_left (10 ^ s.length) most
    have behind := ih rest
    rw [ofDigitChars_cons_zero, List.length_cons, Nat.pow_succ]
    omega

/-- Digits of the same count are in the order of their numbers. -/
theorem digits_lt_iff {s t : List Char} (same : s.length = t.length) (left : ∀ c ∈ s, c.isDigit = true)
    (right : ∀ c ∈ t, c.isDigit = true) : s < t ↔ Nat.ofDigitChars 10 s 0 < Nat.ofDigitChars 10 t 0 := by
  induction s generalizing t with
  | nil =>
    rw [List.length_eq_zero_iff.mp same.symm]
    simp
  | cons c s ih =>
    obtain ⟨d, t, rfl⟩ := List.exists_cons_of_length_eq_add_one same.symm
    obtain ⟨first, rest⟩ := List.forall_mem_cons.mp left
    obtain ⟨first', rest'⟩ := List.forall_mem_cons.mp right
    have length : s.length = t.length := Nat.succ.inj same
    have low := ofDigitChars_lt rest
    have high := ofDigitChars_lt rest'
    have bounds := isDigit_bounds first
    have bounds' := isDigit_bounds first'
    have less : c < d ↔ c.toNat < d.toNat := Iff.rfl
    rw [List.cons_lt_cons_iff, ih length rest rest', ofDigitChars_cons_zero, ofDigitChars_cons_zero, less,
      ← Char.toNat_inj, length]
    rw [length] at low
    -- What stands behind the first digit counts for less than one of it.
    rcases Nat.lt_trichotomy c.toNat d.toNat with before | equal | after
    · have step := Nat.mul_le_mul_left (10 ^ t.length) (by omega : c.toNat - 48 + 1 ≤ d.toNat - 48)
      rw [Nat.mul_add] at step
      omega
    · rw [equal]
      omega
    · have step := Nat.mul_le_mul_left (10 ^ t.length) (by omega : d.toNat - 48 + 1 ≤ c.toNat - 48)
      rw [Nat.mul_add] at step
      omega

namespace Decimal

theorem padded_append_lt_iff {width n m : Nat} (positive : 0 < width) (left : n < 10 ^ width) (right : m < 10 ^ width)
    (s t : List Char) : padded width n ++ s < padded width m ++ t ↔ n < m ∨ n = m ∧ s < t := by
  have same : (padded width n).length = (padded width m).length := by
    rw [padded_length positive left, padded_length positive right]
  rw [append_lt_append_iff same, digits_lt_iff same padded_digits padded_digits, ofDigitChars_padded,
    ofDigitChars_padded]
  constructor
  · rintro (less | ⟨equal, rest⟩)
    · exact .inl less
    · exact .inr ⟨padded_injective equal, rest⟩
  · rintro (less | ⟨rfl, rest⟩)
    · exact .inl less
    · exact .inr ⟨rfl, rest⟩

theorem le_length_padded (width n : Nat) : width ≤ (padded width n).length := by
  rw [padded, List.length_append, List.length_replicate]
  omega

theorem readDigits_padded (width n : Nat) : readDigits (padded width n) = some n := by
  have digits : ((padded width n).any (!·.isDigit)) = false := by
    simpa using fun c member => padded_digits c member
  have full : (padded width n).isEmpty = false := by simp [padded]
  rw [readDigits, digits, full, ofDigitChars_padded]
  rfl

end Decimal

theorem readDigits_some {s : List Char} {n : Nat} (read : readDigits s = some n) :
    s ≠ [] ∧ ∀ c ∈ s, c.isDigit = true := by
  rw [readDigits] at read
  split at read
  · contradiction
  · simp_all

theorem digits?_append {s : List Char} {width n : Nat} (length : s.length = width)
    (read : readDigits s = some n) (rest : List Char) : digits? width (s ++ rest) = some (n, rest) := by
  rw [digits?, List.take_left' length, List.drop_left' length]
  simp [length, read]

theorem digits?_padded (width n : Nat) (positive : 0 < width) (bound : n < 10 ^ width) (rest : List Char) :
    digits? width (Decimal.padded width n ++ rest) = some (n, rest) :=
  digits?_append (Decimal.padded_length positive bound) (Decimal.readDigits_padded width n) rest

@[simp] theorem past?_cons (c : Char) (rest : List Char) : past? c (c :: rest) = some rest := by
  simp [past?]

end Trackline
