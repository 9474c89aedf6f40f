import Mathlib

/-!
# Flags in a counter word

A machine word whose lowest or highest bit is a flag and whose other bits
count: what testing, setting and clearing the flag does to the number.
-/
namespace Core

/-! ## The lowest bit -/

theorem or_one_of_odd {m : Nat} (h : m % 2 = 1) : m ||| 1 = m := by
  apply Nat.eq_of_testBit_eq
  intro i
  rw [Nat.testBit_or]
  cases i with
  | zero => simp [Nat.testBit_zero, h]
  | succ i => simp [Nat.testBit_succ]

theorem and_one_ne_zero {x : UInt32} : x &&& 1 ≠ 0 ↔ x.toNat % 2 = 1 := by
  rw [ne_eq, ← UInt32.toNat_inj, UInt32.toNat_and]
  simp

/-! ## The highest bit -/

/-- `1 << (BITS - 1)` of a 64-bit word. -/
def topBit : UInt64 := 0x8000000000000000

theorem toNat_topBit : topBit.toNat = 2 ^ 63 := by decide

theorem testBit_two_pow_of_lt {k i : Nat} (h : i < k) : (2 ^ k).testBit i = false := by
  rw [Nat.testBit_two_pow]
  simp
  omega

theorem and_topBit_ne_zero {x : UInt64} : x &&& topBit ≠ 0 ↔ 2 ^ 63 ≤ x.toNat := by
  have hx := UInt64.toNat_lt x
  rw [ne_eq, ← UInt64.toNat_inj, UInt64.toNat_and, toNat_topBit, Nat.and_two_pow]
  rw [Nat.testBit_eq_decide_div_mod_eq]
  have h : x.toNat / 2 ^ 63 = if 2 ^ 63 ≤ x.toNat then 1 else 0 := by
    split <;> omega
  rw [h]
  split <;> simp_all

theorem toNat_or_topBit (x : UInt64) : (x ||| topBit).toNat = 2 ^ 63 + x.toNat % 2 ^ 63 := by
  have hx := UInt64.toNat_lt x
  rw [UInt64.toNat_or, toNat_topBit]
  apply Nat.eq_of_testBit_eq
  intro i
  rw [Nat.testBit_or]
  rcases Nat.lt_trichotomy i 63 with h | h | h
  · rw [testBit_two_pow_of_lt h, Nat.testBit_two_pow_add_gt h, Nat.testBit_mod_two_pow]
    simp [h]
  · subst h
    rw [Nat.testBit_two_pow_add_eq, Nat.testBit_mod_two_pow, Nat.testBit_two_pow_self]
    simp
  · have h₁ : x.toNat < 2 ^ i := Nat.lt_of_lt_of_le hx (Nat.pow_le_pow_right (by decide) h)
    have h₂ : 2 ^ 63 + x.toNat % 2 ^ 63 < 2 ^ i :=
      Nat.lt_of_lt_of_le (by omega) (Nat.pow_le_pow_right (n := 2) (by decide) h)
    rw [Nat.testBit_lt_two_pow h₁, Nat.testBit_lt_two_pow h₂, Nat.testBit_two_pow]
    simp
    omega

theorem toNat_and_not_topBit (x : UInt64) : (x &&& ~~~topBit).toNat = x.toNat % 2 ^ 63 := by
  have hnot : (~~~topBit).toNat = 2 ^ 63 - 1 := by decide
  rw [UInt64.toNat_and, hnot, Nat.and_two_pow_sub_one_eq_mod]

end Core
