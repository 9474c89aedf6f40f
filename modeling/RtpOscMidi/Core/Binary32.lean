import Mathlib

/-!
# Binary32 bit patterns

The operations on single-precision numbers that need no arithmetic, on their
bit patterns: eight bits of exponent below the sign, 127 for one. The order is
that of the magnitudes, read as integers, with their signs; an exponent of all
ones is an infinity, or above it no number.
-/
namespace Core.Binary32

def exponent (bits : UInt32) : UInt32 := (bits >>> 23) &&& 0xFF

def isFinite (bits : UInt32) : Bool := exponent bits != 0xFF

/-- `0.5 ≤ x` for a finite `x`: no sign, and an exponent of -1 or more. -/
def geHalf (bits : UInt32) : Bool := bits < 0x80000000 && 126 ≤ exponent bits

example : geHalf 0x3F000000 ∧ ¬geHalf 0x3EFFFFFF ∧ ¬geHalf 0xBF000000 ∧ ¬isFinite 0x7F800000 := by
  decide

/-- The bits below the sign. -/
def magnitude (bits : UInt32) : Nat := bits.toNat % 2 ^ 31

def isNaN (bits : UInt32) : Bool := 255 * 2 ^ 23 < magnitude bits

def signed (bits : UInt32) : Int :=
  if bits < 0x80000000 then magnitude bits else -magnitude bits

def lt (a b : UInt32) : Bool := !isNaN a && !isNaN b && decide (signed a < signed b)

/-- Equality of numbers: the two zeros are equal, and no number equals none. -/
def beq (a b : UInt32) : Bool := !isNaN a && !isNaN b && decide (signed a = signed b)

/-- The smaller of two numbers; of a number and none, the number. -/
def minNum (a b : UInt32) : UInt32 := if lt b a || isNaN a then b else a

def maxNum (a b : UInt32) : UInt32 := if lt a b || isNaN a then b else a

def clamp (value minimum maximum : UInt32) : UInt32 :=
  let x := if lt value minimum then minimum else value
  if lt maximum x then maximum else x

theorem isFinite_iff {bits : UInt32} : isFinite bits = true ↔ magnitude bits < 255 * 2 ^ 23 := by
  have hexp : (exponent bits).toNat = bits.toNat / 2 ^ 23 % 2 ^ 8 := by
    have hmask := Nat.and_two_pow_sub_one_eq_mod (bits.toNat >>> 23) 8
    simp only [exponent, UInt32.toNat_and, UInt32.toNat_shiftRight, Nat.shiftRight_eq_div_pow] at *
    simpa using hmask
  have hne : isFinite bits = true ↔ bits.toNat / 2 ^ 23 % 2 ^ 8 ≠ 255 := by
    rw [isFinite, bne_iff_ne, ne_eq, ← UInt32.toNat_inj, hexp]
    rfl
  rw [hne, magnitude]
  have hlt := bits.toNat_lt
  omega

theorem natAbs_signed (bits : UInt32) : (signed bits).natAbs = magnitude bits := by
  unfold signed
  split <;> omega

theorem not_isNaN_of_isFinite {bits : UInt32} (h : isFinite bits = true) : isNaN bits = false := by
  have hm := isFinite_iff.mp h
  simp only [isNaN, decide_eq_false_iff_not, not_lt]
  omega

theorem lt_iff {a b : UInt32} :
    lt a b = true ↔ isNaN a = false ∧ isNaN b = false ∧ signed a < signed b := by
  simp [lt, and_assoc]

theorem beq_iff {a b : UInt32} :
    beq a b = true ↔ isNaN a = false ∧ isNaN b = false ∧ signed a = signed b := by
  simp [beq, and_assoc]

theorem lt_irrefl (a : UInt32) : lt a a = false := by
  simp [lt]

/-- A number equals no number below or above it. -/
theorem not_beq_of_lt {a b : UInt32} (h : lt a b = true) : beq a b = false ∧ beq b a = false := by
  obtain ⟨-, -, hlt⟩ := lt_iff.mp h
  simp only [beq, Bool.and_eq_false_iff, decide_eq_false_iff_not]
  exact ⟨.inr (by omega), .inr (by omega)⟩

theorem beq_trans {a b c : UInt32} (h : beq a b = true) (h' : beq b c = true) : beq a c = true := by
  obtain ⟨ha, -, hab⟩ := beq_iff.mp h
  obtain ⟨-, hc, hbc⟩ := beq_iff.mp h'
  exact beq_iff.mpr ⟨ha, hc, hab.trans hbc⟩

theorem isFinite_of_beq {a b : UInt32} (h : beq a b = true) (hb : isFinite b = true) :
    isFinite a = true := by
  obtain ⟨-, -, heq⟩ := beq_iff.mp h
  have hm : magnitude a = magnitude b := by rw [← natAbs_signed, ← natAbs_signed, heq]
  exact isFinite_iff.mpr (hm ▸ isFinite_iff.mp hb)

/-- What lies between two finite numbers is finite. -/
theorem isFinite_of_between {a b x : UInt32} (ha : isFinite a = true) (hb : isFinite b = true)
    (hax : lt x a = false) (hxb : lt x b = true) : isFinite x = true := by
  obtain ⟨hx, -, hlt⟩ := lt_iff.mp hxb
  have hle : signed a ≤ signed x := by
    simpa [lt, hx, not_isNaN_of_isFinite ha] using hax
  have hma := isFinite_iff.mp ha
  have hmb := isFinite_iff.mp hb
  rw [← natAbs_signed] at hma hmb
  rw [isFinite_iff, ← natAbs_signed]
  omega

theorem not_lt_maxNum (maximum minimum : UInt32) : lt (maxNum maximum minimum) minimum = false := by
  unfold maxNum
  split
  · exact lt_irrefl _
  · rename_i h
    simp only [Bool.or_eq_true, not_or, Bool.not_eq_true] at h
    exact h.1

theorem clamp_cases (value minimum maximum : UInt32) :
    clamp value minimum maximum = value ∧ lt value minimum = false ∧ lt maximum value = false ∨
      clamp value minimum maximum = minimum ∧ lt value minimum = true ∨
      clamp value minimum maximum = maximum ∧
        (lt maximum value = true ∨ lt maximum minimum = true) := by
  unfold clamp
  by_cases hlow : lt value minimum = true
  · by_cases hhigh : lt maximum minimum = true
    · simp [hlow, hhigh]
    · simp [hlow, hhigh]
  · by_cases hhigh : lt maximum value = true
    · simp [hlow, hhigh]
    · simp [hlow, hhigh]

theorem clamp_clamp {minimum maximum : UInt32} (h : lt maximum minimum = false) (value : UInt32) :
    clamp (clamp value minimum maximum) minimum maximum = clamp value minimum maximum := by
  rcases clamp_cases value minimum maximum with ⟨heq, -, -⟩ | ⟨heq, -⟩ | ⟨heq, -⟩
  · rw [heq, heq]
  · rw [heq]
    simp [clamp, lt_irrefl, h]
  · rw [heq]
    simp [clamp, lt_irrefl, h]

/-- A number that equals its clamped value is that value, bit for bit. -/
theorem clamp_eq_of_beq {value minimum maximum : UInt32} (hle : lt maximum minimum = false)
    (h : beq value (clamp value minimum maximum) = true) :
    clamp value minimum maximum = value := by
  rcases clamp_cases value minimum maximum with ⟨heq, -, -⟩ | ⟨heq, hlt⟩ | ⟨heq, hlt | hlt⟩
  · exact heq
  · rw [heq, (not_beq_of_lt hlt).1] at h
    cases h
  · rw [heq, (not_beq_of_lt hlt).2] at h
    cases h
  · rw [hle] at hlt
    cases hlt

end Core.Binary32
