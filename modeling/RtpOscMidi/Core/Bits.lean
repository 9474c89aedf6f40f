import Mathlib

/-!
# Sets of small numbers in a machine word

A `BitVec w` as a set of numbers below `w`: adding and removing a member,
and the loop that takes the members out from the lowest up
(`while x != 0 { n = x.trailing_zeros(); x &= x - 1 }`).

* `getLsbD_foldl_or`: the members of a union of any number of sets.
* `drainBits_sorted`, `mem_drainBits`: the loop yields exactly the members,
  in increasing order, whatever order they were added in.
-/
namespace Core

universe u

variable {w : Nat}

def setBit (x : BitVec w) (n : Nat) : BitVec w := x ||| 1#w <<< n

def clearBit (x : BitVec w) (n : Nat) : BitVec w := x &&& ~~~(1#w <<< n)

theorem getLsbD_one_shiftLeft (n i : Nat) :
    (1#w <<< n).getLsbD i = (decide (i < w) && decide (i = n)) := by
  rw [BitVec.getLsbD_shiftLeft, BitVec.getLsbD_one]
  by_cases hi : i < w
  · by_cases hn : i < n
    · simp [hn, Nat.ne_of_lt hn]
    · have : (i - n = 0) ↔ i = n := by omega
      simp [hi, hn, this, Nat.zero_lt_of_lt hi]
  · simp [hi]

@[simp]
theorem getLsbD_setBit (x : BitVec w) (n i : Nat) :
    (setBit x n).getLsbD i = (x.getLsbD i || (decide (i < w) && decide (i = n))) := by
  rw [setBit, BitVec.getLsbD_or, getLsbD_one_shiftLeft]

@[simp]
theorem getLsbD_clearBit (x : BitVec w) (n i : Nat) :
    (clearBit x n).getLsbD i = (x.getLsbD i && decide (i ≠ n)) := by
  rw [clearBit, BitVec.getLsbD_and, BitVec.getLsbD_not, getLsbD_one_shiftLeft]
  by_cases hi : i < w
  · simp [hi]
  · simp [hi, BitVec.getLsbD_of_ge x i (by omega)]

@[simp]
theorem getElem_setBit (x : BitVec w) (n : Nat) {i : Nat} (hi : i < w) :
    (setBit x n)[i] = (x[i] || decide (i = n)) := by
  rw [← BitVec.getLsbD_eq_getElem, getLsbD_setBit]
  simp [hi]

@[simp]
theorem getElem_clearBit (x : BitVec w) (n : Nat) {i : Nat} (hi : i < w) :
    (clearBit x n)[i] = (x[i] && decide (i ≠ n)) := by
  rw [← BitVec.getLsbD_eq_getElem, getLsbD_clearBit]
  simp [hi]

theorem getLsbD_foldl_or_of {α : Type u} (f : α → BitVec w) (n : Nat) (xs : List α) :
    ∀ acc : BitVec w, (xs.foldl (fun acc x => acc ||| f x) acc).getLsbD n =
      (acc.getLsbD n || xs.any fun x => (f x).getLsbD n) := by
  induction xs with
  | nil => simp
  | cons x xs ih =>
    intro acc
    rw [List.foldl_cons, ih, BitVec.getLsbD_or, List.any_cons, Bool.or_assoc]

/-- The members of a union, taken one set after the other. -/
theorem getLsbD_foldl_or {α : Type u} (f : α → BitVec w) (n : Nat) (xs : List α) :
    (xs.foldl (fun acc x => acc ||| f x) 0).getLsbD n = xs.any fun x => (f x).getLsbD n := by
  rw [getLsbD_foldl_or_of]
  simp

/-- `x &= x - 1` takes the lowest member out. -/
theorem getLsbD_and_sub_one {x : BitVec w} (hx : x ≠ 0#w) (i : Nat) :
    (x &&& (x - 1#w)).getLsbD i = (x.getLsbD i && decide (i ≠ x.ctz.toNat)) := by
  have hk : x.toNat.testBit x.ctz.toNat = true := BitVec.getLsbD_true_ctz_of_ne_zero hx
  have hlow : ∀ j, j < x.ctz.toNat → x.toNat.testBit j = false := fun j hj =>
    BitVec.getLsbD_false_of_lt_ctz hj
  generalize x.ctz.toNat = k at hk hlow ⊢
  have hx0 : x.toNat ≠ 0 := fun h => hx (BitVec.eq_of_toNat_eq h)
  -- `x = 2^k (2q + 1)`, hence `x - 1 = 2^k (2q) + (2^k - 1)`
  have hmod : x.toNat % 2 ^ k = 0 := by
    apply Nat.eq_of_testBit_eq
    intro j
    rw [Nat.testBit_mod_two_pow, Nat.zero_testBit]
    by_cases hj : j < k
    · simp [hlow j hj]
    · simp [hj]
  have hodd : x.toNat / 2 ^ k % 2 = 1 := by
    simpa [Nat.testBit, Nat.shiftRight_eq_div_pow, Nat.and_comm] using hk
  obtain ⟨q, hq⟩ : ∃ q, x.toNat / 2 ^ k = 2 * q + 1 := ⟨x.toNat / 2 ^ k / 2, by omega⟩
  have hval : x.toNat = 2 ^ k * (2 * q + 1) := by
    rw [← hq]
    exact (Nat.mul_div_cancel' (Nat.dvd_of_mod_eq_zero hmod)).symm
  have hpos := Nat.two_pow_pos k
  have hsub : (x - 1#w).toNat = 2 ^ k * (2 * q) + (2 ^ k - 1) := by
    have hlt := x.isLt
    have h1 : 1 % 2 ^ w = 1 := Nat.mod_eq_of_lt (by omega)
    rw [BitVec.toNat_sub, BitVec.toNat_ofNat, h1, hval]
    have e : 2 ^ w - 1 + 2 ^ k * (2 * q + 1) = 2 ^ k * (2 * q) + (2 ^ k - 1) + 2 ^ w := by
      rw [Nat.mul_add]
      omega
    rw [e, Nat.add_mod_right]
    refine Nat.mod_eq_of_lt ?_
    rw [hval, Nat.mul_add] at hlt
    omega
  rw [BitVec.getLsbD_and]
  show (x.toNat.testBit i && (x - 1#w).toNat.testBit i) = (x.toNat.testBit i && _)
  rw [hsub]
  by_cases hi : i < k
  · simp [hlow i hi]
  · rw [hval, Nat.testBit_two_pow_mul_add _ (by omega), Nat.testBit_two_pow_mul]
    simp only [hi, if_false]
    by_cases hik : i = k
    · subst hik
      simp
    · obtain ⟨d, hd⟩ : ∃ d, i - k = d + 1 := ⟨i - k - 1, by omega⟩
      rw [hd, Nat.testBit_succ, Nat.testBit_succ]
      have h1 : (2 * q + 1) / 2 = q := by omega
      have h2 : 2 * q / 2 = q := by omega
      simp [hik, h1, h2]

/-- The members of `x`, taken out one by one from the lowest up, in at most
`n` rounds. -/
def drainBits : Nat → BitVec w → List Nat
  | 0, _ => []
  | n + 1, x => if x = 0#w then [] else x.ctz.toNat :: drainBits n (x &&& (x - 1#w))

theorem lowest_le {x : BitVec w} {i : Nat} (hi : x.getLsbD i = true) : x.ctz.toNat ≤ i := by
  by_contra hlt
  rw [BitVec.getLsbD_false_of_lt_ctz (by omega)] at hi
  exact absurd hi (by decide)

theorem getLsbD_of_mem_drainBits {n : Nat} :
    ∀ {x : BitVec w} {i : Nat}, i ∈ drainBits n x → x.getLsbD i = true := by
  induction n with
  | zero =>
    intro x i h
    cases h
  | succ n ih =>
    intro x i h
    unfold drainBits at h
    by_cases hx : x = 0#w
    · simp [hx] at h
    · rw [if_neg hx] at h
      rcases List.mem_cons.mp h with rfl | h
      · exact BitVec.getLsbD_true_ctz_of_ne_zero hx
      · have hi := ih h
        rw [getLsbD_and_sub_one hx, Bool.and_eq_true] at hi
        exact hi.1

theorem drainBits_sorted (n : Nat) : ∀ x : BitVec w, (drainBits n x).Pairwise (· < ·) := by
  induction n with
  | zero => exact fun _ => List.Pairwise.nil
  | succ n ih =>
    intro x
    unfold drainBits
    by_cases hx : x = 0#w
    · simp [hx]
    · rw [if_neg hx]
      refine List.Pairwise.cons (fun i hi => ?_) (ih _)
      have hi := getLsbD_of_mem_drainBits hi
      rw [getLsbD_and_sub_one hx, Bool.and_eq_true, decide_eq_true_iff] at hi
      exact Nat.lt_of_le_of_ne (lowest_le hi.1) (Ne.symm hi.2)

/-- `w - n` of the bits are cleared when `n` rounds are left. -/
theorem mem_drainBits_of_le {n : Nat} : ∀ {x : BitVec w},
    (∀ j, x.getLsbD j = true → w ≤ n + j) → ∀ i, i ∈ drainBits n x ↔ x.getLsbD i = true := by
  induction n with
  | zero =>
    intro x h i
    simp only [drainBits, List.not_mem_nil, false_iff, Bool.not_eq_true]
    by_contra hi
    have hi : x.getLsbD i = true := by simpa using hi
    have := h i hi
    have := BitVec.lt_of_getLsbD hi
    omega
  | succ n ih =>
    intro x h i
    unfold drainBits
    by_cases hx : x = 0#w
    · simp [hx]
    · have hbit := BitVec.getLsbD_true_ctz_of_ne_zero hx
      have hrest : ∀ j, (x &&& (x - 1#w)).getLsbD j = true → w ≤ n + j := by
        intro j hj
        rw [getLsbD_and_sub_one hx, Bool.and_eq_true, decide_eq_true_iff] at hj
        have hle := lowest_le hj.1
        have := h _ hbit
        omega
      rw [if_neg hx, List.mem_cons, ih hrest, getLsbD_and_sub_one hx, Bool.and_eq_true,
        decide_eq_true_iff]
      by_cases hi : i = x.ctz.toNat
      · simp [hi, hbit]
      · simp [hi]

@[simp]
theorem mem_drainBits {x : BitVec w} {i : Nat} : i ∈ drainBits w x ↔ x.getLsbD i = true :=
  mem_drainBits_of_le (fun _ _ => Nat.le_add_right _ _) i

end Core
