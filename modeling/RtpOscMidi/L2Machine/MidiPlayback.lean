import RtpOscMidi.Core.Saturating

/-!
# MIDI source clock of an audio block

Which queued MIDI packets belong to a block, and at which sample offset. A
block covers a window of source time that ends at `endUs`; late packets are
replayed by windows that start at the clock's cursor and run at twice the
speed until they have caught up.
-/
namespace RtpOscMidi.L2.MidiPlayback

open Core

/-- mirrors src-tauri/src/audio/midi_playback.rs:38-44 -/
structure MidiBlockTiming where
  startUs : Nat
  endUs : Nat
  nowUs : Nat
  frames : Nat
  lastOffset : Nat
  deriving DecidableEq, Repr

/-- mirrors src-tauri/src/audio/midi_playback.rs:47-57 -/
def MidiBlockTiming.new (frames sampleRate nowUs : Nat) : MidiBlockTiming :=
  let frames := max frames 1
  let periodUs := satMul frames 1000000 / max sampleRate 1
  ⟨nowUs - max periodUs 1, nowUs, nowUs, frames, 0⟩

/-- mirrors src-tauri/src/audio/midi_playback.rs:59-61 -/
def MidiBlockTiming.contains (b : MidiBlockTiming) (timestampUs : Nat) : Bool :=
  timestampUs ≤ b.endUs

/-- mirrors src-tauri/src/audio/midi_playback.rs:63-74 -/
def MidiBlockTiming.offset (b : MidiBlockTiming) (timestampUs : Nat) : Nat × MidiBlockTiming :=
  let offset := min (min (satMul (timestampUs - b.startUs) b.frames / max (b.endUs - b.startUs) 1)
    (b.frames - 1)) (2 ^ 32 - 1)
  let last := max b.lastOffset offset
  (last, { b with lastOffset := last })

/-- mirrors src-tauri/src/audio/midi_playback.rs:5-7 -/
structure MidiPlaybackClock where
  cursorUs : Option Nat
  deriving DecidableEq, Repr

/-- mirrors src-tauri/src/audio/midi_playback.rs:10-25 -/
def MidiPlaybackClock.beginBlock (c : MidiPlaybackClock) (frames sampleRate nowUs : Nat)
    (oldestUs : Option Nat) : MidiBlockTiming :=
  let block := MidiBlockTiming.new frames sampleRate nowUs
  let start := (c.cursorUs.or oldestUs).getD block.startUs
  if start < block.startUs then
    let period := max (nowUs - block.startUs) 1
    { block with startUs := start, endUs := min (satAdd start (satMul period 2)) nowUs }
  else block

/-- mirrors src-tauri/src/audio/midi_playback.rs:27-31 -/
def MidiPlaybackClock.commit (block : MidiBlockTiming) (nextUs : Option Nat) : MidiPlaybackClock :=
  let cursor := match nextUs with
    | some next => min next block.endUs
    | none => block.endUs
  ⟨if cursor < block.nowUs then some (max cursor block.startUs) else none⟩

/-! ## Offsets -/

/-- The offsets of packets with these times, one after the other. -/
def offsets : MidiBlockTiming → List Nat → List Nat
  | _, [] => []
  | b, t :: ts => (b.offset t).1 :: offsets (b.offset t).2 ts

/-- Two timings of one window. -/
structure SameWindow (b b' : MidiBlockTiming) : Prop where
  start : b'.startUs = b.startUs
  stop : b'.endUs = b.endUs
  now : b'.nowUs = b.nowUs

theorem SameWindow.refl (b : MidiBlockTiming) : SameWindow b b := ⟨rfl, rfl, rfl⟩

theorem SameWindow.trans {b b' b'' : MidiBlockTiming} (h : SameWindow b b')
    (h' : SameWindow b' b'') : SameWindow b b'' :=
  ⟨h'.start.trans h.start, h'.stop.trans h.stop, h'.now.trans h.now⟩

theorem sameWindow_offset (b : MidiBlockTiming) (t : Nat) : SameWindow b (b.offset t).2 :=
  ⟨rfl, rfl, rfl⟩

/-- Each offset is inside the block, and not before the ones of the packets
before it. -/
theorem offsets_sorted (ts : List Nat) : ∀ b : MidiBlockTiming, b.lastOffset < b.frames →
    b.lastOffset < 2 ^ 32 → (∀ o ∈ offsets b ts, b.lastOffset ≤ o ∧ o < b.frames ∧ o < 2 ^ 32) ∧
      (offsets b ts).Pairwise (· ≤ ·) := by
  induction ts with
  | nil => exact fun _ _ _ => ⟨by simp [offsets], .nil⟩
  | cons t ts ih =>
    intro b hframes hmax
    have hoffset : b.lastOffset ≤ (b.offset t).1 ∧ (b.offset t).1 < b.frames ∧
        (b.offset t).1 < 2 ^ 32 := by
      simp only [MidiBlockTiming.offset]
      omega
    obtain ⟨hle, hlt, hfits⟩ := hoffset
    have hlast : (b.offset t).2.lastOffset = (b.offset t).1 := rfl
    obtain ⟨hrest, hsorted⟩ := ih (b.offset t).2 (by rw [hlast]; exact hlt) (by rw [hlast]; exact hfits)
    constructor
    · intro o ho
      rcases List.mem_cons.mp ho with ho | ho
      · rw [ho]
        exact ⟨hle, hlt, hfits⟩
      · obtain ⟨h1, h2, h3⟩ := hrest o ho
        exact ⟨Nat.le_trans hle h1, h2, h3⟩
    · refine List.pairwise_cons.mpr ⟨?_, hsorted⟩
      intro o ho
      exact (hrest o ho).1

/-! ## Windows -/

/-- How long a block lasts, where it starts if it is not late, and how long
its window then is.
mirrors src-tauri/src/audio/midi_playback.rs:18-20,47-51 -/
def periodUs (frames sampleRate : Nat) : Nat :=
  max (satMul (max frames 1) 1000000 / max sampleRate 1) 1

def baseUs (frames sampleRate nowUs : Nat) : Nat := nowUs - periodUs frames sampleRate

def spanUs (frames sampleRate nowUs : Nat) : Nat :=
  max (nowUs - baseUs frames sampleRate nowUs) 1

theorem baseUs_le (frames sampleRate nowUs : Nat) : baseUs frames sampleRate nowUs ≤ nowUs :=
  Nat.sub_le _ _

theorem le_base_add_span (frames sampleRate nowUs : Nat) :
    nowUs ≤ baseUs frames sampleRate nowUs + spanUs frames sampleRate nowUs := by
  unfold spanUs
  omega

/-- A longer block lasts as long, also near the start of the clock. -/
theorem spanUs_mono {frames frames' sampleRate sampleRate' nowUs nowUs' : Nat}
    (hnow : nowUs ≤ nowUs') (h : periodUs frames sampleRate ≤ periodUs frames' sampleRate') :
    spanUs frames sampleRate nowUs ≤ spanUs frames' sampleRate' nowUs' := by
  unfold spanUs baseUs
  omega

/-- A window that starts no earlier, or at its base, and has no shorter a span
ends no earlier. -/
theorem window_end_mono {start start' span span' base now now' : Nat} (hnow : now ≤ now')
    (hstart : min start base ≤ start') (hspan : span ≤ span') (hbase : now' ≤ base + span') :
    min (start + 2 * span) now ≤ min (start' + 2 * span') now' := by
  omega

section Begin

variable (c : MidiPlaybackClock) (frames sampleRate nowUs : Nat) (oldestUs : Option Nat)

theorem beginBlock_frames :
    (c.beginBlock frames sampleRate nowUs oldestUs).frames = max frames 1 := by
  unfold MidiPlaybackClock.beginBlock
  simp only
  split <;> rfl

theorem beginBlock_lastOffset :
    (c.beginBlock frames sampleRate nowUs oldestUs).lastOffset = 0 := by
  unfold MidiPlaybackClock.beginBlock
  simp only
  split <;> rfl

theorem beginBlock_start :
    (c.beginBlock frames sampleRate nowUs oldestUs).startUs =
      min ((c.cursorUs.or oldestUs).getD (baseUs frames sampleRate nowUs))
        (baseUs frames sampleRate nowUs) := by
  unfold MidiPlaybackClock.beginBlock
  simp only
  split
  · rename_i hlate
    exact (Nat.min_eq_left (Nat.le_of_lt hlate)).symm
  · rename_i hlate
    exact (Nat.min_eq_right (Nat.le_of_not_lt hlate)).symm

/-- A window is at most two spans long: a late one plays at twice the speed. -/
theorem beginBlock_end (hnow : nowUs ≤ u64Max) :
    (c.beginBlock frames sampleRate nowUs oldestUs).endUs =
      min ((c.beginBlock frames sampleRate nowUs oldestUs).startUs +
        2 * spanUs frames sampleRate nowUs) nowUs := by
  have hspan := le_base_add_span frames sampleRate nowUs
  unfold MidiPlaybackClock.beginBlock
  simp only
  split
  · change min (satAdd _ (satMul (spanUs frames sampleRate nowUs) 2)) nowUs = _
    simp only [satAdd, satMul]
    generalize u64Max = m at hnow ⊢
    omega
  · change nowUs = min (baseUs frames sampleRate nowUs + 2 * spanUs frames sampleRate nowUs) nowUs
    omega

theorem beginBlock_start_le : (c.beginBlock frames sampleRate nowUs oldestUs).startUs ≤ nowUs := by
  have hbase := baseUs_le frames sampleRate nowUs
  rw [beginBlock_start]
  omega

end Begin

theorem SameWindow.commit {b b' : MidiBlockTiming} (h : SameWindow b b') (next : Option Nat) :
    MidiPlaybackClock.commit b' next = MidiPlaybackClock.commit b next := by
  unfold MidiPlaybackClock.commit
  rw [h.start, h.stop, h.now]

/-- The cursor is not before the window, and not past its end or what is left. -/
theorem commit_cursor {b : MidiBlockTiming} {next : Option Nat} {c : Nat}
    (h : (MidiPlaybackClock.commit b next).cursorUs = some c) :
    b.startUs ≤ c ∧ c ≤ max b.startUs (min (next.getD b.endUs) b.endUs) := by
  unfold MidiPlaybackClock.commit at h
  cases next with
  | none =>
    simp only [Option.ite_none_right_eq_some, Option.some.injEq] at h
    simp only [Option.getD_none]
    omega
  | some next =>
    simp only [Option.ite_none_right_eq_some, Option.some.injEq] at h
    simp only [Option.getD_some]
    omega

end RtpOscMidi.L2.MidiPlayback
