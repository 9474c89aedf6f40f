import Mathlib

/-!
# Integers as bytes

Little- and big-endian readings of a byte string and the strings of a given
length that carry a number.

* `ofLE_le`, `le_ofLE`: reading what was written gives the number back, and
  writing what was read gives the bytes back.
* `ofBE_be`, `be_ofBE`: the same for the big-endian order.
-/
namespace Core

def ofLE : List UInt8 → Nat
  | [] => 0
  | b :: bs => b.toNat + 256 * ofLE bs

/-- The low `k` bytes of `n`, least significant first. -/
def le : Nat → Nat → List UInt8
  | 0, _ => []
  | k + 1, n => UInt8.ofNat n :: le k (n / 256)

def ofBE (bs : List UInt8) : Nat := ofLE bs.reverse

/-- The low `k` bytes of `n`, most significant first. -/
def be (k n : Nat) : List UInt8 := (le k n).reverse

@[simp] theorem length_le (k n : Nat) : (le k n).length = k := by
  induction k generalizing n with
  | zero => rfl
  | succ k ih => simp [le, ih]

@[simp] theorem length_be (k n : Nat) : (be k n).length = k := by simp [be]

theorem ofLE_lt (bs : List UInt8) : ofLE bs < 256 ^ bs.length := by
  induction bs with
  | nil => simp [ofLE]
  | cons b bs ih =>
    have hb := b.toNat_lt
    simp only [ofLE, List.length_cons, Nat.pow_succ]
    omega

theorem ofLE_le {k n : Nat} (h : n < 256 ^ k) : ofLE (le k n) = n := by
  induction k generalizing n with
  | zero =>
    have : n = 0 := by simpa using h
    rw [this]; rfl
  | succ k ih =>
    have hd : n / 256 < 256 ^ k := by
      rw [Nat.div_lt_iff_lt_mul (by decide), ← Nat.pow_succ]; exact h
    simp only [le, ofLE, UInt8.toNat_ofNat', ih hd]
    omega

theorem le_ofLE (bs : List UInt8) : le bs.length (ofLE bs) = bs := by
  induction bs with
  | nil => rfl
  | cons b bs ih =>
    have hb := b.toNat_lt
    have h1 : UInt8.ofNat (b.toNat + 256 * ofLE bs) = b := by
      apply UInt8.toNat_inj.mp; rw [UInt8.toNat_ofNat']; omega
    have h2 : (b.toNat + 256 * ofLE bs) / 256 = ofLE bs := by omega
    simp only [List.length_cons, ofLE, le, h1, h2, ih]

theorem ofBE_be {k n : Nat} (h : n < 256 ^ k) : ofBE (be k n) = n := by
  unfold ofBE be
  rw [List.reverse_reverse, ofLE_le h]

theorem be_ofBE (bs : List UInt8) : be bs.length (ofBE bs) = bs := by
  unfold be ofBE
  rw [← List.length_reverse, le_ofLE, List.reverse_reverse]

theorem ofBE_lt (bs : List UInt8) : ofBE bs < 256 ^ bs.length := by
  unfold ofBE
  rw [← List.length_reverse]
  exact ofLE_lt _

end Core
