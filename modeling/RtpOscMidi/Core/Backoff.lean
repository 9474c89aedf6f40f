import Mathlib

/-!
# Retries that back off

A thing that failed is tried again when a wait has passed, and the wait grows
with the number of failures in a row.

* `doubling base cap n`: the wait after `n` failures.
* `Spaced wait next failures`: each failure came no sooner than the wait after
  the one before, and the next attempt is due when the last wait has passed.
  It holds of no failures at all, and a failure of an attempt that was due
  keeps it (`Spaced.failed`).
-/
namespace Core.Backoff

/-- The wait doubles with every failure, up to `cap`. -/
def doubling (base cap n : Nat) : Nat := min (base * 2 ^ n) cap

theorem doubling_succ (base cap n : Nat) :
    min (doubling base cap n * 2) cap = doubling base cap (n + 1) := by
  unfold doubling
  rw [Nat.pow_succ, ← Nat.mul_assoc]
  generalize base * 2 ^ n = m
  omega

/-- `failures` are the times of the failures in a row. -/
structure Spaced (wait : Nat → Nat) (next : Nat) (failures : List Nat) : Prop where
  next : ∀ t, failures.getLast? = some t → next = t + wait (failures.length - 1)
  spaced : ∀ k t t', failures[k]? = some t → failures[k + 1]? = some t' → t + wait k ≤ t'

theorem spaced_nil (wait : Nat → Nat) (next : Nat) : Spaced wait next [] where
  next t h := by cases h
  spaced k t t' h := by simp at h

theorem Spaced.failed {wait : Nat → Nat} {next now : Nat} {failures : List Nat}
    (h : Spaced wait next failures) (hdue : next ≤ now) :
    Spaced wait (now + wait failures.length) (failures ++ [now]) where
  next t ht := by
    rw [List.getLast?_concat] at ht
    cases ht
    rw [List.length_append, List.length_singleton, Nat.add_sub_cancel]
  spaced k t t' ht ht' := by
    rcases Nat.lt_trichotomy (k + 1) failures.length with hlt | heq | hgt
    · rw [List.getElem?_append_left hlt] at ht'
      rw [List.getElem?_append_left (Nat.lt_of_succ_lt hlt)] at ht
      exact h.spaced k t t' ht ht'
    · -- the new failure comes after the last one before it
      rw [heq, List.getElem?_concat_length] at ht'
      cases ht'
      rw [List.getElem?_append_left (by omega)] at ht
      have hlast : failures.getLast? = some t := by
        rw [List.getLast?_eq_getElem?, ← heq, Nat.add_sub_cancel]
        exact ht
      have hnext := h.next t hlast
      rw [← heq, Nat.add_sub_cancel] at hnext
      omega
    · rw [List.getElem?_eq_none (by rw [List.length_append, List.length_singleton]; omega)] at ht'
      cases ht'

end Core.Backoff
