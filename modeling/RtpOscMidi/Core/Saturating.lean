import Mathlib

/-!
# Saturating arithmetic of 64-bit counters

Unsigned saturating addition and multiplication on `Nat`; saturating
subtraction is `Nat`'s own.
-/
namespace Core

def u64Max : Nat := 2 ^ 64 - 1

def satAdd (a b : Nat) : Nat := min (a + b) u64Max

def satMul (a b : Nat) : Nat := min (a * b) u64Max

end Core
