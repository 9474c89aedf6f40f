import RtpOscMidi.L1Encoding.MidiMessage

/-!
# Reserve and generation decision of the MIDI queue

The frames the output workers are handed, and the two pure decisions every
MIDI queue shares: how many slots are kept for releases, and what a reader
does with an event stamped with a generation it may not have handled yet.
Generations are `AtomicU64` counters that only grow by one per reset; 2^64
resets are out of reach, so they are `Nat` here.
-/
namespace RtpOscMidi.L2.MidiQueue

open L1.MidiMessage

/-- Slots kept for critical releases.
mirrors src-tauri/src/realtime.rs:66-68 -/
def reserve (capacity : Nat) : Nat := min 256 (capacity / 8)

theorem reserve_le (capacity : Nat) : reserve capacity ≤ capacity :=
  Nat.le_trans (Nat.min_le_right _ _) (Nat.div_le_self _ _)

/-- mirrors src-tauri/src/midi_queue.rs:10-15 -/
inductive GenerationAction where
  | discard
  | defer
  | ready
  deriving DecidableEq, Repr

/-- The pairs are (MIDI generation, route generation).
mirrors src-tauri/src/midi_queue.rs:16-28 -/
def generationAction (event handled current : Nat × Nat) : GenerationAction :=
  if event.1 < current.1 ∨ event.2 < current.2 then .discard
  else if handled ≠ current ∨ event ≠ handled then .defer
  else .ready

theorem generationAction_ready {event handled current : Nat × Nat} :
    generationAction event handled current = .ready ↔ event = handled ∧ handled = current := by
  unfold generationAction
  split
  · rename_i h
    simp only [reduceCtorEq, false_iff, not_and]
    rintro rfl rfl
    omega
  · split
    · rename_i h
      simp only [reduceCtorEq, false_iff, not_and]
      rintro rfl rfl
      simp at h
    · rename_i h
      simp only [ne_eq, not_or, Decidable.not_not] at h
      simp [h.1, h.2]

theorem generationAction_discard {event handled current : Nat × Nat} :
    generationAction event handled current = .discard ↔
      event.1 < current.1 ∨ event.2 < current.2 := by
  unfold generationAction
  split
  · rename_i h
    simp [h]
  · rename_i h
    split <;> simp [h]

/-- An event of the generation already handled is never put off: it is
handled, or a newer generation has begun. -/
theorem generationAction_handled_ne_defer {g r c c' : Nat} (hg : g ≤ c) (hr : r ≤ c') :
    generationAction (g, r) (g, r) (c, c') ≠ .defer := by
  unfold generationAction
  split
  · simp
  · rename_i h
    split
    · rename_i h'
      simp only [Prod.mk.injEq, ne_eq, not_true_eq_false, or_false] at h'
      simp only at h
      omega
    · simp

/-- A frame on its way to an output worker, with the generations it was stamped
with.
mirrors src-tauri/src/bridge/processing.rs:43-47 -/
structure FanoutFrame where
  frame : MidiFrame
  generation : Nat
  routeGeneration : Nat
  deriving DecidableEq, Repr

end RtpOscMidi.L2.MidiQueue
