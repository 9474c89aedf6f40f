import Mathlib.Logic.Basic

/-!
# A value that is watched

Writers change a value and then notify; a watcher takes the notification and
reads the value again. There is one permit: notifications that come while it is
there are one with it.

* `Watched.Fresh`: with no notification under way and no permit, what the
  watcher has seen is the value. A read makes it so (`fresh_read`), changes and
  notifications keep it, and so a watcher that waits for the permit misses
  nothing.
-/
namespace Core

universe u

/-- `notifying` writers have changed the value and not notified yet. -/
structure Watched (α : Type u) where
  current : α
  seen : α
  notifying : Nat
  permit : Bool
  deriving DecidableEq, Repr

namespace Watched

variable {α : Type u} {w : Watched α}

def new (a : α) : Watched α := ⟨a, a, 0, false⟩

def change (w : Watched α) (a : α) : Watched α :=
  { w with current := a, notifying := w.notifying + 1 }

def notify (w : Watched α) : Watched α :=
  { w with notifying := w.notifying - 1, permit := true }

def take (w : Watched α) : Watched α := { w with permit := false }

def read (w : Watched α) : Watched α := { w with seen := w.current }

def Quiet (w : Watched α) : Prop := w.notifying = 0 ∧ w.permit = false

def Fresh (w : Watched α) : Prop := w.Quiet → w.seen = w.current

theorem fresh_read (w : Watched α) : w.read.Fresh := fun _ => rfl

theorem fresh_change (w : Watched α) (a : α) : (w.change a).Fresh := fun h => by
  cases h.1

theorem fresh_notify (w : Watched α) : w.notify.Fresh := fun h => by
  cases h.2

end Watched

end Core
