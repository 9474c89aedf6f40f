import RtpOscMidi.L5Concurrency.BridgeRequests

/-!
# MIDI blocks

The three consumers of the queued packets, each with its own loop over one
`MidiPlaybackClock`: the VST2 batch, the VST3 submission, which the backend may
reject, and the slots of the bridge. A run is any sequence of arrivals and
blocks, with any sizes, rates and times that do not decrease.

* one block: what is delivered is the front of the queue, in order, with
  offsets that do not decrease (`Delivered`);
* two blocks in a row: what is left is not overtaken and the window does not
  move back, as far as the code holds it (`Consecutive`).
-/
namespace RtpOscMidi.L5.MidiBlocks

open Core L2.MidiPlayback BridgeRequests

abbrev Data := UInt8 × UInt8 × UInt8

abbrev Packet := MidiPacket Data

/-! ## VST2 -/

/-- mirrors src-tauri/src/audio/callback_midi.rs:111-124 -/
structure Vst2Event where
  deltaFrames : Int
  midiData : Data
  deriving DecidableEq, Repr

/-- `as i32` of a `u32`. -/
def asI32 (n : Nat) : Int := (BitVec.ofNat 32 n).toInt

/-- The loop, with room for so many events.
mirrors src-tauri/src/audio/callback_midi.rs:93-133 -/
def preparePendingVst2Midi : Nat → MidiBlockTiming → List Packet →
    List Vst2Event × List Packet × MidiBlockTiming
  | 0, timing, pending => ([], pending, timing)
  | _ + 1, timing, [] => ([], [], timing)
  | room + 1, timing, msg :: pending =>
    if timing.contains msg.timestampUs then
      let (offset, timing) := timing.offset msg.timestampUs
      let (events, rest) := preparePendingVst2Midi room timing pending
      (⟨asI32 offset, msg.data⟩ :: events, rest)
    else ([], msg :: pending, timing)

/-! ## VST3 -/

inductive RackMidiEventKind where
  | noteOff (note velocity channel : UInt8)
  | noteOn (note velocity channel : UInt8)
  | polyphonicAftertouch (note pressure channel : UInt8)
  | controlChange (controller value channel : UInt8)
  | programChange (program channel : UInt8)
  | channelAftertouch (pressure channel : UInt8)
  | pitchBend (value : UInt16) (channel : UInt8)
  deriving DecidableEq, Repr

structure RackMidiEvent where
  sampleOffset : Nat
  kind : RackMidiEventKind
  deriving DecidableEq, Repr

/-- The kind of `midi_to_rack_event`; it leaves the offset 0.
mirrors src-tauri/src/audio/callback_midi.rs:19-72 -/
def midiToRackEvent (data : Data) : Option RackMidiEventKind :=
  let channel := data.1 &&& 0x0F
  let status := data.1 &&& 0xF0
  if status = 0x80 then some (.noteOff data.2.1 data.2.2 channel)
  else if status = 0x90 then
    if data.2.2 = 0 then some (.noteOff data.2.1 0 channel)
    else some (.noteOn data.2.1 data.2.2 channel)
  else if status = 0xA0 then some (.polyphonicAftertouch data.2.1 data.2.2 channel)
  else if status = 0xB0 then some (.controlChange data.2.1 data.2.2 channel)
  else if status = 0xC0 then some (.programChange data.2.1 channel)
  else if status = 0xD0 then some (.channelAftertouch data.2.1 channel)
  else if status = 0xE0 then
    some (.pitchBend (data.2.2.toUInt16 <<< 7 ||| data.2.1.toUInt16) channel)
  else none

/-- The loop over the packets it looks at, with `room` below the limit: the
events, and how many packets it has consumed.
mirrors src-tauri/src/audio/callback_midi.rs:173-185 -/
def collectVst3Midi : Nat → MidiBlockTiming → List Packet →
    List RackMidiEvent × Nat × MidiBlockTiming
  | _, timing, [] => ([], 0, timing)
  | room, timing, msg :: pending =>
    if timing.contains msg.timestampUs then
      match midiToRackEvent msg.data with
      | some kind =>
        match room with
        | 0 => ([], 0, timing)
        | room + 1 =>
          let (offset, timing) := timing.offset msg.timestampUs
          let (events, consumed, timing) := collectVst3Midi room timing pending
          (⟨offset, kind⟩ :: events, consumed + 1, timing)
      | none =>
        let (events, consumed, timing) := collectVst3Midi room timing pending
        (events, consumed + 1, timing)
    else ([], 0, timing)

/-! ## Blocks -/

/-- Which consumer, and what it meets: the capacity of its batch, what the
backend accepts, the reset events already in the slot. -/
inductive Path where
  | vst2 (capacity : Nat)
  | vst3 (capacity available : Nat) (accepts : Bool)
  | bridge (eventCount : Nat)
  deriving DecidableEq, Repr

/-- What a plugin gets of a packet. -/
inductive Message where
  | raw (data : Data)
  | rack (kind : RackMidiEventKind)
  deriving DecidableEq, Repr

def Path.message : Path → Packet → Option Message
  | .vst2 _, p | .bridge _, p => some (.raw p.data)
  | .vst3 .., p => (midiToRackEvent p.data).map .rack

/-- `left` is the queue afterwards; a submission that is not accepted leaves
the clock as it was. -/
structure Played where
  events : List (Message × Int)
  left : List Packet
  timing : MidiBlockTiming
  accepted : Bool
  deriving DecidableEq, Repr

def sentEvent : Event Data → Option (Message × Int)
  | .midi p offset => some (.raw p.data, offset)
  | .reset .. => none

/-- mirrors src-tauri/src/audio/callback_midi.rs:93-133,156-213 and
src-tauri/src/audio/remote_bridge.rs:746-759 -/
def play (path : Path) (timing : MidiBlockTiming) (pending : List Packet) : Played :=
  match path with
  | .vst2 capacity =>
    let (events, left, timing) := preparePendingVst2Midi capacity timing pending
    ⟨events.map fun e => (.raw e.midiData, e.deltaFrames), left, timing, true⟩
  | .vst3 capacity available accepts =>
    let (events, consumed, timing) :=
      collectVst3Midi (min available capacity) timing (pending.take capacity)
    if events.isEmpty || accepts then
      ⟨events.map fun e => (.rack e.kind, e.sampleOffset), pending.drop consumed, timing, true⟩
    else ⟨[], pending, timing, false⟩
  | .bridge eventCount =>
    let (events, left, timing) := writeBridgeMidiEvents (maxMidi - eventCount) timing pending
    ⟨events.filterMap sentEvent, left, timing, true⟩

/-- A block: what it was called with, and the clock and the queue it found.
`ingressUs` is the next packet that has not entered the queue. -/
structure Block where
  path : Path
  frames : Nat
  sampleRate : Nat
  nowUs : Nat
  ingressUs : Option Nat
  clock : MidiPlaybackClock
  queue : List Packet
  deriving DecidableEq, Repr

def nextUs (pending : List Packet) : Option Nat := pending.head?.map (·.timestampUs)

def Block.timing (b : Block) : MidiBlockTiming :=
  b.clock.beginBlock b.frames b.sampleRate b.nowUs (nextUs b.queue)

def Block.played (b : Block) : Played := play b.path b.timing b.queue

/-- mirrors src-tauri/src/audio/callback_midi.rs:126-128,209-211 -/
def Block.clockAfter (b : Block) : MidiPlaybackClock :=
  if b.played.accepted then
    MidiPlaybackClock.commit b.played.timing ((nextUs b.played.left).or b.ingressUs)
  else b.clock

structure St where
  clock : MidiPlaybackClock
  pending : List Packet
  nowUs : Nat
  blocks : List Block
  deriving DecidableEq, Repr

inductive Lbl where
  | arrive (p : Packet)
  | block (path : Path) (frames sampleRate nowUs : Nat) (ingressUs : Option Nat)
  deriving DecidableEq, Repr

def step (s : St) : Lbl → Option St
  | .arrive p => some { s with pending := s.pending ++ [p] }
  | .block path frames sampleRate nowUs ingressUs =>
    if s.nowUs ≤ nowUs ∧ nowUs ≤ u64Max then
      let b : Block := ⟨path, frames, sampleRate, nowUs, ingressUs, s.clock, s.pending⟩
      some ⟨b.clockAfter, b.played.left, nowUs, s.blocks ++ [b]⟩
    else none

def start : St := ⟨⟨none⟩, [], 0, []⟩

def lts : LTS St Lbl := .ofStep (· = start) step

/-! ## What one loop delivers -/

def Path.sends (path : Path) (p : Packet) : Bool := (path.message p).isSome

/-- How the offset reaches the plugin. -/
def Path.delta : Path → Nat → Int
  | .vst2 _, n => asI32 n
  | _, n => n

/-- The packets `taken` off the queue, and the events made of them. -/
structure Takes (path : Path) (timing timing' : MidiBlockTiming) (pending taken left : List Packet)
    (events : List (Message × Int)) : Prop where
  split : pending = taken ++ left
  messages : events.map Prod.fst = taken.filterMap path.message
  offsets : events.map Prod.snd =
    (offsets timing ((taken.filter path.sends).map (·.timestampUs))).map path.delta
  due : ∀ p ∈ taken, p.timestampUs ≤ timing.endUs
  window : SameWindow timing timing'

section Loops

variable {path : Path} {timing timing' : MidiBlockTiming} {pending taken left : List Packet}
  {events : List (Message × Int)} {p : Packet}

theorem Takes.nothing (path : Path) (timing : MidiBlockTiming) (pending : List Packet) :
    Takes path timing timing pending [] pending [] :=
  ⟨rfl, rfl, rfl, by simp, .refl timing⟩

/-- One packet more at the front, which the plugin gets. -/
theorem Takes.send {m : Message} (hm : path.message p = some m)
    (hdue : timing.contains p.timestampUs = true)
    (T : Takes path (timing.offset p.timestampUs).2 timing' pending taken left events) :
    Takes path timing timing' (p :: pending) (p :: taken) left
      ((m, path.delta (timing.offset p.timestampUs).1) :: events) := by
  have hsends : path.sends p = true := by rw [Path.sends, hm]; rfl
  refine ⟨by rw [T.split]; rfl, ?_, ?_, ?_, (sameWindow_offset _ _).trans T.window⟩
  · rw [List.map_cons, T.messages, List.filterMap_cons_some hm]
  · rw [List.map_cons, T.offsets, List.filter_cons_of_pos hsends]
    rfl
  · intro q hq
    rcases List.mem_cons.mp hq with hq | hq
    · rw [hq]
      exact of_decide_eq_true hdue
    · exact T.due q hq

/-- One packet more at the front, which the plugin does not get. -/
theorem Takes.skip (hm : path.message p = none) (hdue : timing.contains p.timestampUs = true)
    (T : Takes path timing timing' pending taken left events) :
    Takes path timing timing' (p :: pending) (p :: taken) left events := by
  have hsends : path.sends p = false := by rw [Path.sends, hm]; rfl
  refine ⟨by rw [T.split]; rfl, ?_, ?_, ?_, T.window⟩
  · rw [T.messages, List.filterMap_cons_none hm]
  · rw [T.offsets, List.filter_cons_of_neg (by rw [hsends]; exact Bool.false_ne_true)]
  · intro q hq
    rcases List.mem_cons.mp hq with hq | hq
    · rw [hq]
      exact of_decide_eq_true hdue
    · exact T.due q hq

theorem vst2_takes (capacity room : Nat) : ∀ (timing : MidiBlockTiming) (pending : List Packet),
    ∃ taken, Takes (.vst2 capacity) timing (preparePendingVst2Midi room timing pending).2.2 pending
      taken (preparePendingVst2Midi room timing pending).2.1
      ((preparePendingVst2Midi room timing pending).1.map fun e => (.raw e.midiData, e.deltaFrames)) := by
  induction room with
  | zero => exact fun timing pending => ⟨[], .nothing _ _ _⟩
  | succ room ih =>
    intro timing pending
    cases pending with
    | nil => exact ⟨[], .nothing _ _ _⟩
    | cons p pending =>
      unfold preparePendingVst2Midi
      split
      · rename_i hdue
        obtain ⟨taken, T⟩ := ih (timing.offset p.timestampUs).2 pending
        exact ⟨p :: taken, T.send rfl hdue⟩
      · exact ⟨[], .nothing _ _ _⟩

theorem bridge_takes (eventCount room : Nat) :
    ∀ (timing : MidiBlockTiming) (pending : List Packet),
    ∃ taken, Takes (.bridge eventCount) timing (writeBridgeMidiEvents room timing pending).2.2 pending
      taken (writeBridgeMidiEvents room timing pending).2.1
      ((writeBridgeMidiEvents room timing pending).1.filterMap sentEvent) := by
  induction room with
  | zero => exact fun timing pending => ⟨[], .nothing _ _ _⟩
  | succ room ih =>
    intro timing pending
    cases pending with
    | nil => exact ⟨[], .nothing _ _ _⟩
    | cons p pending =>
      unfold writeBridgeMidiEvents
      split
      · rename_i hdue
        obtain ⟨taken, T⟩ := ih (timing.offset p.timestampUs).2 pending
        exact ⟨p :: taken, T.send rfl hdue⟩
      · exact ⟨[], .nothing _ _ _⟩

/-- The loop consumes a front of what it looks at. -/
theorem vst3_takes (path : Path) (hpath : ∀ p, path.message p = (midiToRackEvent p.data).map .rack)
    (hdelta : ∀ n, path.delta n = n) (pending : List Packet) :
    ∀ (room : Nat) (timing : MidiBlockTiming),
    Takes path timing (collectVst3Midi room timing pending).2.2 pending
      (pending.take (collectVst3Midi room timing pending).2.1)
      (pending.drop (collectVst3Midi room timing pending).2.1)
      ((collectVst3Midi room timing pending).1.map fun e => (.rack e.kind, e.sampleOffset)) := by
  induction pending with
  | nil => exact fun room timing => .nothing _ _ _
  | cons p pending ih =>
    intro room timing
    unfold collectVst3Midi
    split
    · rename_i hdue
      split
      · rename_i kind hkind
        have hm : path.message p = some (.rack kind) := by rw [hpath, hkind]; rfl
        cases room with
        | zero => exact .nothing _ _ _
        | succ room =>
          have T := (ih room (timing.offset p.timestampUs).2).send hm hdue
          rw [hdelta] at T
          exact T
      · rename_i hkind
        have hm : path.message p = none := by rw [hpath, hkind]; rfl
        exact (ih room timing).skip hm hdue
    · exact .nothing _ _ _

theorem consumed_le (pending : List Packet) : ∀ (room : Nat) (timing : MidiBlockTiming),
    (collectVst3Midi room timing pending).2.1 ≤ pending.length := by
  induction pending with
  | nil => exact fun room timing => Nat.le_refl 0
  | cons p pending ih =>
    intro room timing
    unfold collectVst3Midi
    split
    · split
      · cases room with
        | zero => exact Nat.zero_le _
        | succ room => exact Nat.succ_le_succ (ih _ _)
      · exact Nat.succ_le_succ (ih _ _)
    · exact Nat.zero_le _

end Loops

/-! ## One block -/

/-- A rejected submission delivers nothing and takes nothing. -/
theorem play_takes (path : Path) (timing : MidiBlockTiming) (pending : List Packet) :
    (∃ taken, Takes path timing (play path timing pending).timing pending taken
      (play path timing pending).left (play path timing pending).events) ∧
    ((play path timing pending).accepted = false →
      (play path timing pending).left = pending ∧ (play path timing pending).events = []) := by
  cases path with
  | vst2 capacity => exact ⟨vst2_takes capacity capacity timing pending, fun h => by cases h⟩
  | bridge eventCount =>
    exact ⟨bridge_takes eventCount (maxMidi - eventCount) timing pending, fun h => by cases h⟩
  | vst3 capacity available accepts =>
    have T := vst3_takes (.vst3 capacity available accepts) (fun _ => rfl) (fun _ => rfl)
      (pending.take capacity) (min available capacity) timing
    have hle := consumed_le (pending.take capacity) (min available capacity) timing
    rw [List.length_take] at hle
    simp only [play]
    generalize collectVst3Midi (min available capacity) timing (pending.take capacity) = r at T hle ⊢
    have hsplit : pending = (pending.take capacity).take r.2.1 ++ pending.drop r.2.1 := by
      rw [List.take_take, Nat.min_eq_left (by omega), List.take_append_drop]
    split
    · exact ⟨⟨_, { T with split := hsplit }⟩, fun h => by cases h⟩
    · exact ⟨⟨[], rfl, rfl, rfl, by simp, T.window⟩, fun _ => ⟨rfl, rfl⟩⟩

theorem asI32_of_lt {n : Nat} (h : n < 2 ^ 31) : asI32 n = n := by
  unfold asI32
  rw [BitVec.toInt_eq_toNat_of_lt (by rw [BitVec.toNat_ofNat]; omega), BitVec.toNat_ofNat]
  omega

/-- The offset a plugin gets is the one of the block, up to `as i32`. -/
theorem delta_eq {path : Path} {frames n : Nat} (h : (∃ capacity, path = .vst2 capacity) → frames ≤ 2 ^ 31)
    (hn : n < max frames 1) : path.delta n = n := by
  cases path with
  | vst2 capacity =>
    have hle := h ⟨capacity, rfl⟩
    exact asI32_of_lt (by omega)
  | vst3 capacity available accepts => rfl
  | bridge eventCount => rfl

/-- `queue`, `events`: what is delivered is the front of the queue, in order,
less what a VST3 plugin has no event for. `due`: nothing is delivered before
its time. `offsets`: a VST2 plugin gets them as `i32`. -/
structure Delivered (b : Block) (taken : List Packet) : Prop where
  queue : b.queue = taken ++ b.played.left
  events : b.played.events.map Prod.fst = taken.filterMap b.path.message
  due : ∀ p ∈ taken, p.timestampUs ≤ b.timing.endUs
  window : b.timing.startUs ≤ b.timing.endUs ∧ b.timing.endUs ≤ b.nowUs ∧ b.nowUs ≤ u64Max
  offsets : ((∃ capacity, b.path = .vst2 capacity) → b.frames ≤ 2 ^ 31) →
    (b.played.events.map Prod.snd).Pairwise (· ≤ ·) ∧
      ∀ o ∈ b.played.events.map Prod.snd, 0 ≤ o ∧ o < max b.frames 1 ∧ o < 2 ^ 32
  rejected : b.played.accepted = false →
    b.played.events = [] ∧ b.played.left = b.queue ∧ b.clockAfter = b.clock

theorem delivered (b : Block) (hnow : b.nowUs ≤ u64Max) : ∃ taken, Delivered b taken := by
  obtain ⟨⟨taken, T⟩, hrejected⟩ := play_takes b.path b.timing b.queue
  have hstart : b.timing.startUs ≤ b.nowUs := beginBlock_start_le _ _ _ _ _
  have hend : b.timing.endUs = min (b.timing.startUs + 2 * spanUs b.frames b.sampleRate b.nowUs)
      b.nowUs := beginBlock_end _ _ _ _ _ hnow
  have hframes : b.timing.frames = max b.frames 1 := beginBlock_frames _ _ _ _ _
  have hlast : b.timing.lastOffset = 0 := beginBlock_lastOffset _ _ _ _ _
  have hsorted := offsets_sorted ((taken.filter b.path.sends).map (·.timestampUs)) b.timing
    (by rw [hlast, hframes]; omega) (by rw [hlast]; decide)
  refine ⟨taken, T.split, T.messages, T.due, ⟨by omega, by omega, hnow⟩, ?_, ?_⟩
  · intro hsize
    have hoffsets := T.offsets
    have hmap : (L2.MidiPlayback.offsets b.timing
        ((taken.filter b.path.sends).map (·.timestampUs))).map b.path.delta =
        (L2.MidiPlayback.offsets b.timing
          ((taken.filter b.path.sends).map (·.timestampUs))).map Int.ofNat := by
      refine List.map_congr_left fun n hn => delta_eq hsize ?_
      rw [← hframes]
      exact (hsorted.1 n hn).2.1
    change (b.played.events.map Prod.snd) = _ at hoffsets
    rw [hoffsets, hmap]
    constructor
    · exact List.pairwise_map.mpr (hsorted.2.imp fun h => Int.ofNat_le.mpr h)
    · intro o ho
      obtain ⟨n, hn, rfl⟩ := List.mem_map.mp ho
      obtain ⟨-, hlt, hfits⟩ := hsorted.1 n hn
      rw [hframes] at hlt
      simp only [Int.ofNat_eq_natCast]
      omega
  · intro h
    obtain ⟨hleft, hevents⟩ := hrejected h
    refine ⟨hevents, hleft, ?_⟩
    unfold Block.clockAfter
    rw [h]
    rfl

/-! ## Two blocks in a row -/

/-- `b` is the next block after `a`; packets may have arrived in between. -/
structure Next (a b : Block) : Prop where
  clock : b.clock = a.clockAfter
  queue : ∃ new, b.queue = a.played.left ++ new
  now : a.nowUs ≤ b.nowUs

/-- No packet from before the window of `a` is played back from its own time. -/
def NotLate (a b : Block) : Prop :=
  b.clock.cursorUs = none → ∀ p ∈ b.queue.head?, a.timing.startUs ≤ p.timestampUs

/-- `overtaken`: a packet that is left is not passed over, unless it is
earlier than the one before it, or a rejected block found a cursor past it.
`starts`, `ends`: how far the window may not move back. -/
structure Consecutive (a b : Block) : Prop where
  overtaken : ∀ e ∈ a.played.left, a.timing.startUs ≤ e.timestampUs →
    (∀ first ∈ a.played.left.head?, first.timestampUs ≤ e.timestampUs) →
    (a.played.accepted = false → ∀ c ∈ a.clock.cursorUs, c ≤ e.timestampUs) →
    b.timing.startUs ≤ e.timestampUs
  starts : NotLate a b → a.timing.startUs ≤ baseUs b.frames b.sampleRate b.nowUs →
    a.timing.startUs ≤ b.timing.startUs
  ends : NotLate a b → periodUs a.frames a.sampleRate ≤ periodUs b.frames b.sampleRate →
    a.timing.endUs ≤ b.timing.endUs

/-- Where the next block starts. -/
theorem block_start (b : Block) :
    b.timing.startUs = min ((b.clock.cursorUs.or (nextUs b.queue)).getD
      (baseUs b.frames b.sampleRate b.nowUs)) (baseUs b.frames b.sampleRate b.nowUs) :=
  beginBlock_start _ _ _ _ _

theorem block_window (b : Block) : SameWindow b.timing b.played.timing := by
  obtain ⟨taken, T⟩ := (play_takes b.path b.timing b.queue).1
  exact T.window

/-- A cursor is never before the window of the block that leaves it. -/
theorem clockAfter_cursor {a : Block} {c : Nat} (h : a.clockAfter.cursorUs = some c) :
    a.timing.startUs ≤ c := by
  unfold Block.clockAfter at h
  split at h
  · rw [(block_window a).commit] at h
    exact (commit_cursor h).1
  · rw [block_start, h]
    exact Nat.min_le_left _ _

/-- Neither a cursor nor the oldest packet brings the start before `start`. -/
theorem resume_le {start base : Nat} {cursor : Option Nat} {queue : List Packet}
    (hcursor : ∀ c, cursor = some c → start ≤ c)
    (hlate : cursor = none → ∀ p ∈ queue.head?, start ≤ p.timestampUs) :
    min start base ≤ min ((cursor.or (nextUs queue)).getD base) base := by
  cases cursor with
  | some c =>
    have hle := hcursor c rfl
    simp only [Option.some_or, Option.getD_some]
    omega
  | none =>
    cases queue with
    | nil =>
      simp only [nextUs, List.head?_nil, Option.map_none, Option.or_none, Option.getD_none]
      omega
    | cons p queue =>
      have hle := hlate rfl p rfl
      simp only [nextUs, List.head?_cons, Option.map_some, Option.none_or, Option.getD_some]
      omega

/-- The source times that are not late start no earlier than the last window. -/
theorem Next.resumes {a b : Block} (N : Next a b) (hlate : NotLate a b) :
    min a.timing.startUs (baseUs b.frames b.sampleRate b.nowUs) ≤ b.timing.startUs := by
  rw [block_start b]
  refine resume_le ?_ hlate
  intro c hc
  rw [N.clock] at hc
  exact clockAfter_cursor hc

/-- What is left and not out of order bounds where the next block starts. -/
theorem Next.overtaken {a b : Block} (N : Next a b) {e : Packet} (he : e ∈ a.played.left)
    (hstart : a.timing.startUs ≤ e.timestampUs)
    (hfirst : ∀ first ∈ a.played.left.head?, first.timestampUs ≤ e.timestampUs)
    (hcursor : a.played.accepted = false → ∀ c ∈ a.clock.cursorUs, c ≤ e.timestampUs) :
    b.timing.startUs ≤ e.timestampUs := by
  obtain ⟨new, hqueue⟩ := N.queue
  obtain ⟨first, rest, hleft⟩ := List.exists_cons_of_ne_nil (List.ne_nil_of_mem he)
  have hfront : first.timestampUs ≤ e.timestampUs := hfirst first (by rw [hleft]; rfl)
  rw [block_start b, hqueue, hleft]
  cases hc : b.clock.cursorUs with
  | none =>
    simp only [nextUs, List.cons_append, List.head?_cons, Option.map_some, Option.none_or,
      Option.getD_some]
    exact Nat.le_trans (Nat.min_le_left _ _) hfront
  | some c =>
    simp only [Option.some_or, Option.getD_some]
    have hbound : c ≤ e.timestampUs := by
      have hclock := hc
      rw [N.clock] at hclock
      unfold Block.clockAfter at hclock
      split at hclock
      · rw [(block_window a).commit, hleft] at hclock
        have hle := (commit_cursor hclock).2
        simp only [nextUs, List.head?_cons, Option.map_some, Option.some_or,
          Option.getD_some] at hle
        exact Nat.le_trans hle (Nat.max_le.mpr ⟨hstart, Nat.le_trans (Nat.min_le_left _ _) hfront⟩)
      · rename_i hrejected
        exact hcursor (Bool.eq_false_iff.mpr hrejected) c hclock
    exact Nat.le_trans (Nat.min_le_left _ _) hbound

theorem Next.consecutive {a b : Block} (N : Next a b) (ha : a.nowUs ≤ u64Max)
    (hb : b.nowUs ≤ u64Max) : Consecutive a b := by
  have hnow := N.now
  refine ⟨fun e => N.overtaken, ?_, ?_⟩
  · intro hlate hbase
    calc a.timing.startUs
        = min a.timing.startUs (baseUs b.frames b.sampleRate b.nowUs) := (Nat.min_eq_left hbase).symm
      _ ≤ b.timing.startUs := N.resumes hlate
  · intro hlate hperiod
    have hendA : a.timing.endUs = min (a.timing.startUs + 2 * spanUs a.frames a.sampleRate a.nowUs)
        a.nowUs := beginBlock_end _ _ _ _ _ ha
    have hendB : b.timing.endUs = min (b.timing.startUs + 2 * spanUs b.frames b.sampleRate b.nowUs)
        b.nowUs := beginBlock_end _ _ _ _ _ hb
    rw [hendA, hendB]
    exact window_end_mono hnow (N.resumes hlate) (spanUs_mono hnow hperiod)
      (le_base_add_span b.frames b.sampleRate b.nowUs)

/-! ## Runs -/

structure Inv (s : St) : Prop where
  next : s.blocks.IsChain Next
  last : ∀ b ∈ s.blocks.getLast?,
    s.clock = b.clockAfter ∧ s.nowUs = b.nowUs ∧ ∃ new, s.pending = b.played.left ++ new
  now : ∀ b ∈ s.blocks, b.nowUs ≤ u64Max

theorem inv_inductive : lts.Inductive Inv where
  init := by
    intro s h
    subst h
    exact ⟨.nil, by simp [start], by simp [start]⟩
  step := by
    intro s l s' I hst
    cases l with
    | arrive p =>
      cases hst
      refine { I with last := ?_ }
      intro b hb
      obtain ⟨hclock, hnow, new, hpending⟩ := I.last b hb
      exact ⟨hclock, hnow, new ++ [p], by rw [← List.append_assoc, ← hpending]⟩
    | block path frames sampleRate nowUs ingressUs =>
      simp only [lts, LTS.ofStep, step] at hst
      split at hst
      · rename_i hok
        obtain ⟨hle, hmax⟩ := hok
        cases hst
        refine ⟨?_, ?_, ?_⟩
        · refine List.isChain_append.mpr ⟨I.next, .singleton _, ?_⟩
          intro a ha b hb
          simp only [List.head?_cons, Option.mem_def, Option.some.injEq] at hb
          obtain ⟨hclock, hnow, hpending⟩ := I.last a ha
          rw [← hb]
          exact ⟨hclock, hpending, by rw [← hnow]; exact hle⟩
        · intro b hb
          simp only [List.getLast?_append, List.getLast?_singleton, Option.some_or, Option.mem_def,
            Option.some.injEq] at hb
          rw [← hb]
          exact ⟨rfl, rfl, [], (List.append_nil _).symm⟩
        · intro b hb
          rcases List.mem_append.mp hb with hb | hb
          · exact I.now b hb
          · rw [List.mem_singleton.mp hb]
            exact hmax
      · cases hst

/-- What every run of arrivals and blocks does. -/
theorem midi_blocks (s : St) (h : lts.Reachable s) :
    (∀ b ∈ s.blocks, ∃ taken, Delivered b taken) ∧ s.blocks.IsChain Consecutive := by
  have I := inv_inductive.reachable s h
  refine ⟨fun b hb => delivered b (I.now b hb), I.next.imp_of_mem_imp fun a b ha hb N => ?_⟩
  exact N.consecutive (I.now a ha) (I.now b hb)

def late (timestampUs : Nat) : Packet := ⟨timestampUs, 0x90, 60, 100⟩

/-- A packet behind a later one is passed over; a window goes back to a late
packet; an offset of a long VST2 block is negative. -/
theorem playback_limits :
    (∃ s, lts.Reachable s ∧ ∃ ab ∈ s.blocks.zip s.blocks.tail, ∃ e ∈ ab.1.played.left,
      ab.1.timing.startUs ≤ e.timestampUs ∧ e.timestampUs < ab.2.timing.startUs) ∧
    (∃ s, lts.Reachable s ∧ ∃ ab ∈ s.blocks.zip s.blocks.tail,
      ab.1.frames = ab.2.frames ∧ ab.1.sampleRate = ab.2.sampleRate ∧
        ab.2.timing.startUs < ab.1.timing.startUs) ∧
    ∃ s, lts.Reachable s ∧ ∃ b ∈ s.blocks, b.played.events.map Prod.snd = [0, -1] := by
  have hpassed : ∃ s, lts.Reachable s ∧ decide (∃ ab ∈ s.blocks.zip s.blocks.tail,
      ∃ e ∈ ab.1.played.left,
        ab.1.timing.startUs ≤ e.timestampUs ∧ e.timestampUs < ab.2.timing.startUs) = true :=
    LTS.reachable_of_any [.arrive (late 200000), .arrive (late 95000),
      .block (.bridge 0) 10 1000 100000 none, .block (.bridge 0) 10 1000 120000 none] rfl
      (by decide +kernel)
  have hback : ∃ s, lts.Reachable s ∧ decide (∃ ab ∈ s.blocks.zip s.blocks.tail,
      ab.1.frames = ab.2.frames ∧ ab.1.sampleRate = ab.2.sampleRate ∧
        ab.2.timing.startUs < ab.1.timing.startUs) = true :=
    LTS.reachable_of_any [.block (.bridge 0) 10 1000 100000 none, .arrive (late 50000),
      .block (.bridge 0) 10 1000 110000 none] rfl (by decide +kernel)
  have hwrap : ∃ s, lts.Reachable s ∧
      decide (∃ b ∈ s.blocks, b.played.events.map Prod.snd = [0, -1]) = true :=
    LTS.reachable_of_any [.arrive (late (2 ^ 32)), .arrive (late (2 ^ 33)),
      .block (.vst2 2) (2 ^ 32) 1000000 (2 ^ 33) none] rfl (by decide +kernel)
  obtain ⟨s₁, h₁, hd₁⟩ := hpassed
  obtain ⟨s₂, h₂, hd₂⟩ := hback
  obtain ⟨s₃, h₃, hd₃⟩ := hwrap
  exact ⟨⟨s₁, h₁, of_decide_eq_true hd₁⟩, ⟨s₂, h₂, of_decide_eq_true hd₂⟩,
    s₃, h₃, of_decide_eq_true hd₃⟩

/-- Two late packets, 30 ms apart. -/
theorem midi_blocks_late : ∃ s : St,
    s.blocks.map (fun b => b.played.events.map Prod.snd) = [[0], [5]] ∧
      (∀ b ∈ s.blocks, ∃ taken, Delivered b taken) ∧ s.blocks.IsChain Consecutive := by
  have hrun : ∃ s, lts.Reachable s ∧
      decide (s.blocks.map (fun b => b.played.events.map Prod.snd) = [[0], [5]]) = true :=
    LTS.reachable_of_any [.arrive (late 50000), .arrive (late 80000),
      .block (.vst3 512 512 true) 10 1000 100000 none,
      .block (.vst3 512 512 true) 10 1000 120000 none] rfl (by decide +kernel)
  obtain ⟨s, hs, hd⟩ := hrun
  exact ⟨s, of_decide_eq_true hd, midi_blocks s hs⟩

end RtpOscMidi.L5.MidiBlocks
