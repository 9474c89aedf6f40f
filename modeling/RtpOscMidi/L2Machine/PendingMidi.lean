import RtpOscMidi.Core.LTS
import RtpOscMidi.L1Encoding.MidiMessage
import RtpOscMidi.L2Machine.MidiQueue

/-!
# The MIDI backlog of the audio callback

Every callback moves packets from the ring the senders fill into
`pending_midi` and hands the front of it to the plugin. `enqueue_midi` keeps
the backlog bounded: the last slots are for releases, a release that finds it
full takes the place of the oldest note-on, of the oldest packet that is no
release, or of everything, and then asks for a reset.

A step is one access of the callback to what it shares with other threads
(the emergency flag, the generation, the ring) or its visit to the plugin;
packets of any kind may be put in the ring, and the generation and the flag
change, between any two. What the plugin takes in one visit is the front of
the backlog, as much of it as the block's timing and the plugin's room allow
(`playing k`); `done` says whether a requested reset is over. The playback
clock, the output buffers and the depth and age figures are left out.

`received` records the packets of the current generation in the order they
came, `delivered` what the plugin was given of them, and `held` what it holds.
-/
namespace RtpOscMidi.L2.PendingMidi

open Core L1.MidiMessage L2.MidiQueue

/-- mirrors src-tauri/src/audio/runtime_state.rs:462-469, without its time stamps -/
structure MidiPacket where
  generation : Nat
  data : UInt8 × UInt8 × UInt8
  len : Nat
  deriving DecidableEq, Repr

namespace MidiPacket

/-- `&data[..len]` -/
def bytes (m : MidiPacket) : List UInt8 := [m.data.1, m.data.2.1, m.data.2.2].take m.len

/-- mirrors src-tauri/src/audio/runtime_state.rs:472-496; `none`: refused -/
def fromBytes (bytes : List UInt8) : Option MidiPacket :=
  if bytes = [] ∨ 3 < bytes.length ∨ bytes.head? = some 0xF0 then none
  else (normalizeMessage bytes).map fun data =>
    ⟨0, (data.getD 0 0, data.getD 1 0, data.getD 2 0), bytes.length⟩

def status (m : MidiPacket) : UInt8 := m.data.1

/-- mirrors src-tauri/src/audio/runtime_state.rs:502-504 -/
def isNoteOn (m : MidiPacket) : Bool := 3 ≤ m.len && m.status &&& 0xF0 == 0x90 && 0 < m.data.2.2

/-- mirrors src-tauri/src/audio/runtime_state.rs:506-509 -/
def isNoteOff (m : MidiPacket) : Bool :=
  m.status &&& 0xF0 == 0x80 || (3 ≤ m.len && m.status &&& 0xF0 == 0x90 && m.data.2.2 == 0)

/-- mirrors src-tauri/src/audio/runtime_state.rs:511-513 -/
def isCc64Off (m : MidiPacket) : Bool :=
  3 ≤ m.len && m.status &&& 0xF0 == 0xB0 && m.data.2.1 == 64 && m.data.2.2 < 64

/-- mirrors src-tauri/src/audio/runtime_state.rs:515-519 -/
def isCriticalRelease (m : MidiPacket) : Bool :=
  m.isNoteOff || m.isCc64Off || isCriticalReleaseMessage m.bytes

end MidiPacket

/-- mirrors src-tauri/src/audio/runtime_state.rs:427-428 -/
def maxPendingMidi : Nat := 8192
def midiDrainBudgetPerCallback : Nat := 512

/-- The backlog, the reset it asks for and the drop counter.
mirrors src-tauri/src/audio/runtime_state.rs:526-554 -/
structure Queue where
  pending : List MidiPacket
  needsEmergencyReset : Bool
  midiDropCount : UInt32
  deriving DecidableEq, Repr

/-- Removes the first packet that meets `p`.
mirrors src-tauri/src/audio/runtime_state.rs:775-796 -/
def dropOldest (p : MidiPacket → Bool) (pending : List MidiPacket) : Option (List MidiPacket) :=
  (pending.findIdx? p).map fun idx => pending.eraseIdx idx

/-- mirrors src-tauri/src/audio/runtime_state.rs:775-783 -/
def dropOldestNoteOn : List MidiPacket → Option (List MidiPacket) := dropOldest MidiPacket.isNoteOn

/-- mirrors src-tauri/src/audio/runtime_state.rs:785-796 -/
def dropOldestNonCritical : List MidiPacket → Option (List MidiPacket) :=
  dropOldest fun m => !m.isCriticalRelease

/-- mirrors src-tauri/src/audio/runtime_state.rs:727-773 -/
def enqueueMidi (q : Queue) (msg : MidiPacket) : Queue :=
  if ¬msg.isCriticalRelease ∧ maxPendingMidi - reserve maxPendingMidi ≤ q.pending.length then
    { q with midiDropCount := q.midiDropCount + 1 }
  else if q.pending.length < maxPendingMidi then { q with pending := q.pending ++ [msg] }
  else match dropOldestNoteOn q.pending with
    | some rest =>
      { q with pending := rest ++ [msg], midiDropCount := q.midiDropCount + 1 }
    | none =>
      if ¬msg.isCriticalRelease then { q with midiDropCount := q.midiDropCount + 1 }
      else match dropOldestNonCritical q.pending with
        | some rest =>
          { q with pending := rest ++ [msg], midiDropCount := q.midiDropCount + 1 }
        | none =>
          { pending := [msg]
            needsEmergencyReset := true
            midiDropCount := q.midiDropCount + UInt32.ofNat q.pending.length }

/-! ## What a plugin holds -/

/-- A system reset silences everything, as `SourceMidiState` has it. -/
def sound (held : Held → Bool) (m : MidiPacket) : Held → Bool :=
  if m.bytes = [0xFF] then fun _ => false else hear held m.bytes

def play (held : Held → Bool) (ms : List MidiPacket) : Held → Bool := ms.foldl sound held

def silence : Held → Bool := fun _ => false

/-! ## The callback -/

/-- Where a callback stands. -/
inductive Callback where
  /-- before the swap of the emergency flag -/
  | start
  /-- the flag was set; before the generation is advanced -/
  | advance
  | observe
  | pop (budget : Nat)
  /-- before the generation is read for the packet popped -/
  | popped (msg : MidiPacket) (budget : Nat)
  | drained
  deriving DecidableEq, Repr

structure St where
  queue : Queue
  /-- the generation the callback has observed -/
  midiGeneration : Nat
  /-- `telemetry.midi_generation` -/
  generation : Nat
  emergency : Bool
  ring : List MidiPacket
  callback : Callback
  received : List MidiPacket
  delivered : List MidiPacket
  held : Held → Bool

def init : St := ⟨⟨[], false, 0⟩, 0, 0, false, [], .start, [], [], silence⟩

/-- mirrors src-tauri/src/audio/runtime_state.rs:715-725 -/
def observeMidiGeneration (s : St) : St :=
  if s.generation ≠ s.midiGeneration then
    { s with
      midiGeneration := s.generation
      queue := { s.queue with pending := [], needsEmergencyReset := true }
      received := []
      delivered := [] }
  else s

/-- mirrors src-tauri/src/audio/runtime_state.rs:665-691 -/
def drainMidi (s : St) : Option St :=
  match s.callback with
  | .start =>
    some (if s.emergency then { s with emergency := false, callback := .advance }
      else { s with callback := .observe })
  | .advance => some { s with
      generation := s.generation + 1
      queue := { s.queue with pending := [], needsEmergencyReset := true }
      received := []
      delivered := []
      callback := .observe }
  | .observe =>
    some { observeMidiGeneration s with callback := .pop midiDrainBudgetPerCallback }
  | .pop budget =>
    match budget, s.ring with
    | budget + 1, msg :: ring => some { s with ring, callback := .popped msg budget }
    | _, _ => some { s with callback := .drained }
  | .popped msg budget =>
    let s := observeMidiGeneration s
    some (if msg.generation = s.midiGeneration then
        { s with
          queue := enqueueMidi s.queue msg
          received := s.received ++ [msg]
          callback := .pop budget }
      else { s with callback := .pop budget })
  | .drained => none

inductive Lbl where
  /-- a packet of any kind is put in the ring -/
  | push (msg : MidiPacket)
  /-- the generation is advanced -/
  | bump
  | raiseEmergency
  | drain
  /-- the plugin is busy; the callback ends -/
  | miss
  /-- the plugin is reset if that was asked for, and takes `k` packets -/
  | playing (k : Nat) (done : Bool)
  deriving DecidableEq, Repr

/-- The visit to the plugin.
mirrors src-tauri/src/audio/callback.rs:308-310,450-462 -/
def playing (s : St) (k : Nat) (done : Bool) : St :=
  let held := if s.queue.needsEmergencyReset then silence else s.held
  { s with
    queue := { s.queue with
      pending := s.queue.pending.drop k
      needsEmergencyReset := s.queue.needsEmergencyReset && !done }
    delivered := s.delivered ++ s.queue.pending.take k
    held := play held (s.queue.pending.take k)
    callback := .start }

def step (s : St) : Lbl → Option St
  | .push msg => some { s with ring := s.ring ++ [msg] }
  | .bump => some { s with generation := s.generation + 1 }
  | .raiseEmergency => some { s with emergency := true }
  | .drain => drainMidi s
  | .miss => if s.callback = .drained then some { s with callback := .start } else none
  | .playing k done => if s.callback = .drained then some (playing s k done) else none

def system : LTS St Lbl := LTS.ofStep (· = init) step

/-! ## What an enqueue does -/

theorem dropOldest_eq_some {p : MidiPacket → Bool} {l r : List MidiPacket}
    (h : dropOldest p l = some r) :
    ∃ xs x ys, l = xs ++ x :: ys ∧ p x = true ∧ r = xs ++ ys := by
  obtain ⟨i, hi, rfl⟩ := Option.map_eq_some_iff.mp h
  obtain ⟨hlt, hp, -⟩ := List.findIdx?_eq_some_iff_getElem.mp hi
  refine ⟨l.take i, l[i], l.drop (i + 1), ?_, hp, List.eraseIdx_eq_take_drop_succ l i⟩
  rw [List.getElem_cons_drop, List.take_append_drop]

theorem dropOldest_eq_none {p : MidiPacket → Bool} {l : List MidiPacket} :
    dropOldest p l = none ↔ ∀ x ∈ l, p x = false :=
  Option.map_eq_none_iff.trans List.findIdx?_eq_none_iff

theorem noncritical_of_isNoteOn {m : MidiPacket} (h : m.isNoteOn = true) :
    m.isCriticalRelease = false := by
  simp only [MidiPacket.isNoteOn, Bool.and_eq_true, decide_eq_true_eq, beq_iff_eq] at h
  obtain ⟨⟨hlen, hs⟩, hv⟩ := h
  have hb : m.bytes = [m.data.1, m.data.2.1, m.data.2.2] := List.take_of_length_le (by simpa using hlen)
  have hs' : m.data.1 &&& 0xF0 = 0x90 := hs
  have hv0 : m.data.2.2 ≠ 0 := UInt8.pos_iff_ne_zero.mp hv
  have hne : m.data.1 ≠ 0xFF := fun e => by
    rw [e] at hs'
    exact absurd hs' (by decide)
  simp [MidiPacket.isCriticalRelease, MidiPacket.isNoteOff, MidiPacket.isCc64Off, hv0, hb,
    isCriticalReleaseMessage, hs', MidiPacket.status]

/-- What becomes of a packet and of the backlog; `lost` packets are dropped. -/
inductive Enqueued (q : Queue) (msg : MidiPacket) : Queue → Nat → Prop
  | rejected : msg.isCriticalRelease = false →
      Enqueued q msg { q with midiDropCount := q.midiDropCount + 1 } 1
  | pushed : q.pending.length < maxPendingMidi →
      Enqueued q msg { q with pending := q.pending ++ [msg] } 0
  | evicted {xs x ys} : q.pending = xs ++ x :: ys → x.isCriticalRelease = false →
      Enqueued q msg
        { q with pending := xs ++ ys ++ [msg], midiDropCount := q.midiDropCount + 1 } 1
  | cleared : maxPendingMidi ≤ q.pending.length → (∀ x ∈ q.pending, x.isCriticalRelease = true) →
      Enqueued q msg
        ⟨[msg], true, q.midiDropCount + UInt32.ofNat q.pending.length⟩ q.pending.length

theorem enqueued (q : Queue) (msg : MidiPacket) :
    ∃ lost, Enqueued q msg (enqueueMidi q msg) lost := by
  unfold enqueueMidi
  split
  · rename_i h
    exact ⟨1, .rejected (by simpa using h.1)⟩
  · split
    · rename_i hlt
      exact ⟨0, .pushed hlt⟩
    · rename_i hfull
      split
      · rename_i rest hrest
        obtain ⟨xs, x, ys, hq, hx, rfl⟩ := dropOldest_eq_some hrest
        exact ⟨1, .evicted hq (noncritical_of_isNoteOn hx)⟩
      · split
        · rename_i hc
          exact ⟨1, .rejected (by simpa using hc)⟩
        · split
          · rename_i rest hrest
            obtain ⟨xs, x, ys, hq, hx, rfl⟩ := dropOldest_eq_some hrest
            exact ⟨1, .evicted hq (by simpa using hx)⟩
          · rename_i hnone
            refine ⟨q.pending.length, .cleared (Nat.not_lt.mp hfull) fun x hx => ?_⟩
            simpa using dropOldest_eq_none.mp hnone x hx

section Enqueued

variable {q q' : Queue} {msg : MidiPacket} {lost : Nat}

theorem Enqueued.length_le (h : Enqueued q msg q' lost) (hq : q.pending.length ≤ maxPendingMidi) :
    q'.pending.length ≤ maxPendingMidi := by
  cases h with
  | rejected _ => exact hq
  | pushed hlt =>
    rw [List.length_append, List.length_singleton]
    omega
  | evicted he _ =>
    rw [he] at hq
    simp only [List.length_append, List.length_cons, List.length_nil] at hq ⊢
    omega
  | cleared _ _ =>
    show 1 ≤ maxPendingMidi
    decide

/-- The counter takes exactly what is lost: one packet came. -/
theorem Enqueued.count (h : Enqueued q msg q' lost) :
    q'.pending.length + lost = q.pending.length + 1 ∧
      q'.midiDropCount = q.midiDropCount + UInt32.ofNat lost := by
  cases h with
  | rejected _ => exact ⟨rfl, rfl⟩
  | pushed _ => simp
  | evicted he _ =>
    rw [he]
    simp only [List.length_append, List.length_cons, List.length_nil]
    exact ⟨by omega, rfl⟩
  | cleared _ _ => exact ⟨Nat.add_comm _ _, rfl⟩

/-- A release gets in. -/
theorem Enqueued.mem (h : Enqueued q msg q' lost) (hc : msg.isCriticalRelease = true) :
    q'.pending.getLast? = some msg := by
  cases h with
  | rejected hn =>
    rw [hc] at hn
    cases hn
  | pushed _ => exact List.getLast?_concat
  | evicted _ _ => exact List.getLast?_concat
  | cleared _ _ => rfl

/-- What stays keeps its order, and every release stays; or everything goes
and a reset is asked for. -/
theorem Enqueued.keeps (h : Enqueued q msg q' lost) :
    (∃ kept, (q'.pending = kept ∨ q'.pending = kept ++ [msg]) ∧ kept.Sublist q.pending ∧
      kept.filter (·.isCriticalRelease) = q.pending.filter (·.isCriticalRelease) ∧
      q'.needsEmergencyReset = q.needsEmergencyReset) ∨
    (q'.pending = [msg] ∧ q'.needsEmergencyReset = true) := by
  cases h with
  | rejected _ => exact .inl ⟨q.pending, .inl rfl, List.Sublist.refl _, rfl, rfl⟩
  | pushed _ => exact .inl ⟨q.pending, .inr rfl, List.Sublist.refl _, rfl, rfl⟩
  | @evicted xs x ys he hx =>
    refine .inl ⟨xs ++ ys, .inr rfl, ?_, ?_, rfl⟩
    · rw [he]
      exact List.Sublist.append_left (List.sublist_cons_self x ys) xs
    · rw [he]
      simp [List.filter_append, hx]
  | cleared _ _ => exact .inr ⟨rfl, rfl⟩

theorem Enqueued.all (h : Enqueued q msg q' lost) {P : MidiPacket → Prop}
    (hq : ∀ x ∈ q.pending, P x) (hm : P msg) : ∀ x ∈ q'.pending, P x := by
  rcases h.keeps with ⟨kept, he, hs, -, -⟩ | ⟨he, -⟩
  · have hk : ∀ x ∈ kept, P x := fun x hx => hq x (hs.subset hx)
    rcases he with he | he
    · exact he ▸ hk
    · rw [he]
      exact List.forall_mem_append.mpr ⟨hk, fun x hx => List.mem_singleton.mp hx ▸ hm⟩
  · rw [he]
    exact fun x hx => List.mem_singleton.mp hx ▸ hm

/-- The backlog is a thinned-out copy of the stream. -/
theorem Enqueued.sublist (h : Enqueued q msg q' lost) {ds rs : List MidiPacket}
    (hs : (ds ++ q.pending).Sublist rs) : (ds ++ q'.pending).Sublist (rs ++ [msg]) := by
  rcases h.keeps with ⟨kept, he, hk, -, -⟩ | ⟨he, -⟩
  · have hkept : (ds ++ kept).Sublist rs := (List.Sublist.append_left hk ds).trans hs
    rcases he with he | he
    · rw [he]
      exact hkept.trans (List.sublist_append_left rs [msg])
    · rw [he, ← List.append_assoc]
      exact List.Sublist.append hkept (List.Sublist.refl _)
  · rw [he]
    exact List.Sublist.append ((List.sublist_append_left ds q.pending).trans hs)
      (List.Sublist.refl _)

end Enqueued

/-! ## What an eviction can do to the sound -/

theorem sound_mono {a b : Held → Bool} (hab : ∀ h, a h = true → b h = true) (m : MidiPacket)
    (h : Held) (hs : sound a m h = true) : sound b m h = true := by
  unfold sound at hs ⊢
  split
  · rename_i hr
    rw [if_pos hr] at hs
    cases hs
  · rename_i hr
    rw [if_neg hr] at hs
    unfold hear at hs ⊢
    cases he : effect m.bytes h with
    | none =>
      rw [he] at hs
      exact hab h hs
    | some v =>
      rw [he] at hs
      exact hs

theorem play_mono (ms : List MidiPacket) :
    ∀ {a b : Held → Bool}, (∀ h, a h = true → b h = true) →
      ∀ h, play a ms h = true → play b ms h = true := by
  induction ms with
  | nil => exact fun hab => hab
  | cons m ms ih => exact fun hab => ih (sound_mono hab m)

theorem play_append (held : Held → Bool) (xs ys : List MidiPacket) :
    play held (xs ++ ys) = play (play held xs) ys := List.foldl_append

theorem silence_le (held : Held → Bool) (h : Held) (hs : silence h = true) : held h = true := by
  cases hs

/-- What is no release releases nothing. -/
theorem le_sound {m : MidiPacket} (hm : m.isCriticalRelease = false) (held : Held → Bool) (h : Held)
    (hh : held h = true) : sound held m h = true := by
  have hc : isCriticalReleaseMessage m.bytes = false := by
    unfold MidiPacket.isCriticalRelease at hm
    exact (Bool.or_eq_false_iff.mp hm).2
  unfold sound hear
  split
  · rename_i hr
    rw [hr] at hc
    exact absurd hc (by decide)
  · show (effect m.bytes h).getD (held h) = true
    cases he : effect m.bytes h with
    | none => exact hh
    | some v =>
      cases v with
      | true => rfl
      | false =>
        rw [isCritical_of_effect he] at hc
        cases hc

/-- Taking out what is no release leaves no more held. -/
theorem play_evict {x : MidiPacket} (hx : x.isCriticalRelease = false) (held : Held → Bool)
    (xs ys : List MidiPacket) (h : Held) (hh : play held (xs ++ ys) h = true) :
    play held (xs ++ x :: ys) h = true := by
  rw [play_append] at hh ⊢
  exact play_mono ys (le_sound hx (play held xs)) h hh

/-- What a reset asked for leaves of what the plugin holds. -/
def heldAtVisit (needsEmergencyReset : Bool) (held : Held → Bool) : Held → Bool :=
  if needsEmergencyReset then silence else held

theorem heldAtVisit_le {needsEmergencyReset : Bool} {held : Held → Bool} {h : Held}
    (hh : heldAtVisit needsEmergencyReset held h = true) : held h = true := by
  unfold heldAtVisit at hh
  split at hh
  · cases hh
  · exact hh

theorem Enqueued.play_le {q q' : Queue} {msg : MidiPacket} {lost : Nat} {held full : Held → Bool}
    (h : Enqueued q msg q' lost)
    (hq : ∀ h, play (heldAtVisit q.needsEmergencyReset held) q.pending h = true → full h = true)
    (h' : Held) (hh : play (heldAtVisit q'.needsEmergencyReset held) q'.pending h' = true) :
    sound full msg h' = true := by
  cases h with
  | rejected hm => exact le_sound hm full h' (hq h' hh)
  | pushed _ =>
    rw [play_append] at hh
    exact sound_mono hq msg h' hh
  | evicted he hx =>
    rw [play_append] at hh
    refine sound_mono (fun h'' hk => hq h'' ?_) msg h' hh
    rw [he]
    exact play_evict hx _ _ _ h'' hk
  | cleared _ _ => exact sound_mono (silence_le full) msg h' hh

/-! ## What holds at every step -/

structure Inv (s : St) : Prop where
  length_le : s.queue.pending.length ≤ maxPendingMidi
  generation_eq : ∀ m ∈ s.delivered ++ s.queue.pending, m.generation = s.midiGeneration
  ordered : (s.delivered ++ s.queue.pending).Sublist s.received
  held_le : ∀ h, play (heldAtVisit s.queue.needsEmergencyReset s.held) s.queue.pending h = true →
    play silence s.received h = true

/-- A new generation: everything goes and a reset is asked for. -/
theorem inv_superseded {s : St} (hp : s.queue.pending = []) (hd : s.delivered = [])
    (hr : s.received = []) (hn : s.queue.needsEmergencyReset = true) : Inv s where
  length_le := by
    rw [hp]
    exact Nat.zero_le _
  generation_eq := by simp [hp, hd]
  ordered := by simp [hp, hd, hr]
  held_le h hh := by
    rw [hp, hn] at hh
    rw [hr]
    exact hh

theorem inv_init : Inv init where
  length_le := Nat.zero_le _
  generation_eq := by simp [init]
  ordered := List.Sublist.refl _
  held_le _ hh := hh

theorem inv_observe {s : St} (hs : Inv s) : Inv (observeMidiGeneration s) := by
  unfold observeMidiGeneration
  split
  · exact inv_superseded rfl rfl rfl rfl
  · exact hs

theorem inv_enqueue {s : St} {msg : MidiPacket} {callback : Callback} (hs : Inv s)
    (hg : msg.generation = s.midiGeneration) :
    Inv { s with
      queue := enqueueMidi s.queue msg, received := s.received ++ [msg], callback } := by
  obtain ⟨lost, he⟩ := enqueued s.queue msg
  obtain ⟨hd, hp⟩ := List.forall_mem_append.mp hs.generation_eq
  refine ⟨he.length_le hs.length_le, ?_, he.sublist hs.ordered, fun h hh => ?_⟩
  · exact List.forall_mem_append.mpr ⟨hd, he.all hp hg⟩
  · show play silence (s.received ++ [msg]) h = true
    rw [play_append]
    exact he.play_le hs.held_le h hh

theorem inv_drainMidi {s s' : St} (hs : Inv s) (h : drainMidi s = some s') : Inv s' := by
  cases hc : s.callback with
  | start =>
    simp only [drainMidi, hc, Option.some.injEq] at h
    subst h
    split
    · exact ⟨hs.length_le, hs.generation_eq, hs.ordered, hs.held_le⟩
    · exact ⟨hs.length_le, hs.generation_eq, hs.ordered, hs.held_le⟩
  | advance =>
    simp only [drainMidi, hc, Option.some.injEq] at h
    subst h
    exact inv_superseded rfl rfl rfl rfl
  | observe =>
    simp only [drainMidi, hc, Option.some.injEq] at h
    subst h
    have ho := inv_observe hs
    exact ⟨ho.length_le, ho.generation_eq, ho.ordered, ho.held_le⟩
  | pop budget =>
    simp only [drainMidi, hc] at h
    split at h
    · cases h
      exact ⟨hs.length_le, hs.generation_eq, hs.ordered, hs.held_le⟩
    · cases h
      exact ⟨hs.length_le, hs.generation_eq, hs.ordered, hs.held_le⟩
  | popped msg budget =>
    simp only [drainMidi, hc, Option.some.injEq] at h
    subst h
    have ho := inv_observe hs
    split
    · rename_i hg
      exact inv_enqueue ho hg
    · exact ⟨ho.length_le, ho.generation_eq, ho.ordered, ho.held_le⟩
  | drained => simp [drainMidi, hc] at h

/-- What the plugin takes was at the front of the backlog; a reset it is
still owed can only silence more. -/
theorem inv_playing {s : St} (hs : Inv s) (k : Nat) (done : Bool) : Inv (playing s k done) := by
  have happ : s.delivered ++ s.queue.pending.take k ++ s.queue.pending.drop k
      = s.delivered ++ s.queue.pending := by
    rw [List.append_assoc, List.take_append_drop]
  refine ⟨?_, ?_, ?_, fun h hh => hs.held_le h ?_⟩
  · have hlen := hs.length_le
    show (s.queue.pending.drop k).length ≤ maxPendingMidi
    rw [List.length_drop]
    omega
  · show ∀ m ∈ s.delivered ++ s.queue.pending.take k ++ s.queue.pending.drop k, _
    rw [happ]
    exact hs.generation_eq
  · show (s.delivered ++ s.queue.pending.take k ++ s.queue.pending.drop k).Sublist s.received
    rw [happ]
    exact hs.ordered
  · rw [← List.take_append_drop k s.queue.pending, play_append]
    exact play_mono _ (fun h' hh' => heldAtVisit_le hh') h hh

theorem inv_step {s s' : St} {l : Lbl} (hs : Inv s) (h : step s l = some s') : Inv s' := by
  cases l with
  | push msg =>
    cases h
    exact ⟨hs.length_le, hs.generation_eq, hs.ordered, hs.held_le⟩
  | bump =>
    cases h
    exact ⟨hs.length_le, hs.generation_eq, hs.ordered, hs.held_le⟩
  | raiseEmergency =>
    cases h
    exact ⟨hs.length_le, hs.generation_eq, hs.ordered, hs.held_le⟩
  | drain => exact inv_drainMidi hs h
  | miss =>
    simp only [step] at h
    split at h
    · cases h
      exact ⟨hs.length_le, hs.generation_eq, hs.ordered, hs.held_le⟩
    · cases h
  | playing k done =>
    simp only [step] at h
    split at h
    · cases h
      exact inv_playing hs k done
    · cases h

theorem inv_inductive : system.Inductive Inv where
  init s h := by
    have h0 : s = init := h
    rw [h0]
    exact inv_init
  step _ _ _ hs h := inv_step hs h

/-! ## The overflow of the backlog -/

/-- What becomes of the backlog when `msg` comes: a release goes to its back;
what stays keeps its order and all its releases, unless everything goes and a
reset is asked for; the counter takes what is lost. -/
structure Admitted (q : Queue) (msg : MidiPacket) (q' : Queue) : Prop where
  release : msg.isCriticalRelease = true → q'.pending.getLast? = some msg
  keeps : (∃ kept, (q'.pending = kept ∨ q'.pending = kept ++ [msg]) ∧ kept.Sublist q.pending ∧
      kept.filter (·.isCriticalRelease) = q.pending.filter (·.isCriticalRelease) ∧
      q'.needsEmergencyReset = q.needsEmergencyReset) ∨
    (q'.pending = [msg] ∧ q'.needsEmergencyReset = true)
  counted : ∃ lost, q'.pending.length + lost = q.pending.length + 1 ∧
    q'.midiDropCount = q.midiDropCount + UInt32.ofNat lost

theorem admitted (q : Queue) (msg : MidiPacket) : Admitted q msg (enqueueMidi q msg) := by
  obtain ⟨lost, he⟩ := enqueued q msg
  exact ⟨he.mem, he.keeps, lost, he.count⟩

/-- What a step does to the backlog. -/
inductive Moved (s s' : St) : Prop
  /-- a packet of the generation observed came -/
  | came (msg : MidiPacket) : s'.queue = enqueueMidi s.queue msg → s'.delivered = s.delivered →
      s'.received = s.received ++ [msg] → Moved s s'
  /-- the plugin took the first `k` -/
  | taken (k : Nat) : s'.queue.pending = s.queue.pending.drop k →
      s'.delivered = s.delivered ++ s.queue.pending.take k → s'.received = s.received →
      s'.queue.midiDropCount = s.queue.midiDropCount → Moved s s'
  /-- a newer generation was observed; only a packet of it can be there -/
  | superseded : s'.queue.pending = s'.received → s'.received.length ≤ 1 → s'.delivered = [] →
      s'.queue.needsEmergencyReset = true → s'.queue.midiDropCount = s.queue.midiDropCount →
      Moved s s'

theorem Moved.same {s s' : St} (hq : s'.queue = s.queue) (hd : s'.delivered = s.delivered)
    (hr : s'.received = s.received) : Moved s s' := by
  refine .taken 0 ?_ ?_ hr (congrArg _ hq)
  · rw [hq]
    rfl
  · rw [hd]
    exact (List.append_nil _).symm

theorem enqueueMidi_nil {q : Queue} (hq : q.pending = []) (msg : MidiPacket) :
    enqueueMidi q msg = { q with pending := [msg] } := by
  have hr : ¬maxPendingMidi - reserve maxPendingMidi ≤ 0 := by decide
  have hm : 0 < maxPendingMidi := by decide
  unfold enqueueMidi
  rw [hq, List.length_nil, if_neg (fun h => hr h.2), if_pos hm, List.nil_append]

theorem moved_drainMidi {s s' : St} (h : drainMidi s = some s') : Moved s s' := by
  cases hc : s.callback with
  | start =>
    simp only [drainMidi, hc, Option.some.injEq] at h
    subst h
    split
    · exact .same rfl rfl rfl
    · exact .same rfl rfl rfl
  | advance =>
    simp only [drainMidi, hc, Option.some.injEq] at h
    subst h
    exact .superseded rfl (Nat.zero_le _) rfl rfl rfl
  | observe =>
    simp only [drainMidi, hc, Option.some.injEq] at h
    subst h
    unfold observeMidiGeneration
    split
    · exact .superseded rfl (Nat.zero_le _) rfl rfl rfl
    · exact .same rfl rfl rfl
  | pop budget =>
    simp only [drainMidi, hc] at h
    split at h
    · cases h
      exact .same rfl rfl rfl
    · cases h
      exact .same rfl rfl rfl
  | popped msg budget =>
    simp only [drainMidi, hc, Option.some.injEq] at h
    subst h
    unfold observeMidiGeneration
    split
    · split
      · refine .superseded ?_ (Nat.le_refl 1) rfl ?_ ?_
        · rw [enqueueMidi_nil rfl]
          rfl
        · rw [enqueueMidi_nil rfl]
        · rw [enqueueMidi_nil rfl]
      · exact .superseded rfl (Nat.zero_le _) rfl rfl rfl
    · split
      · exact .came msg rfl rfl rfl
      · exact .same rfl rfl rfl
  | drained => simp [drainMidi, hc] at h

theorem moved {s s' : St} {l : Lbl} (h : step s l = some s') : Moved s s' := by
  cases l with
  | push msg =>
    cases h
    exact .same rfl rfl rfl
  | bump =>
    cases h
    exact .same rfl rfl rfl
  | raiseEmergency =>
    cases h
    exact .same rfl rfl rfl
  | drain => exact moved_drainMidi h
  | miss =>
    simp only [step] at h
    split at h
    · cases h
      exact .same rfl rfl rfl
    · cases h
  | playing k done =>
    simp only [step] at h
    split at h
    · cases h
      exact .taken k rfl rfl rfl rfl
    · cases h

/-- The backlog is bounded; only packets of the generation observed get to the
plugin, in the order they came; once the backlog is played the plugin holds no
more than the whole stream of that generation would leave held; and every step
moves the backlog as `Moved` and `Admitted` say. -/
theorem pending_overflow (s : St) (hr : system.Reachable s) :
    s.queue.pending.length ≤ maxPendingMidi ∧
    (∀ m ∈ s.delivered ++ s.queue.pending, m.generation = s.midiGeneration) ∧
    (s.delivered ++ s.queue.pending).Sublist s.received ∧
    (∀ h, play (if s.queue.needsEmergencyReset then silence else s.held) s.queue.pending h = true →
      play silence s.received h = true) ∧
    (∀ l s', step s l = some s' → Moved s s') ∧
    ∀ msg, Admitted s.queue msg (enqueueMidi s.queue msg) := by
  have hs := inv_inductive.reachable s hr
  exact ⟨hs.length_le, hs.generation_eq, hs.ordered, hs.held_le, fun _ _ h => moved h,
    admitted s.queue⟩

/-! ## A full backlog -/

def pedalUp : MidiPacket := ⟨0, (0xB0, 64, 0), 3⟩

/-- The plugin has been busy while `n` pedal releases came. -/
def waiting (n : Nat) : St :=
  { init with
    queue := ⟨List.replicate n pedalUp, false, 0⟩
    received := List.replicate n pedalUp }

theorem enqueueMidi_waiting {n : Nat} (h : n < maxPendingMidi) :
    enqueueMidi (waiting n).queue pedalUp = (waiting (n + 1)).queue := by
  have hrelease : pedalUp.isCriticalRelease = true := by decide
  unfold enqueueMidi
  rw [if_neg (fun hc => hc.1 hrelease), if_pos (by simpa [waiting] using h)]
  simp only [waiting, List.replicate_succ']

/-- A callback drains the next release and finds the plugin busy. -/
theorem exec_waiting {n : Nat} (h : n < maxPendingMidi) :
    LTS.exec step (waiting n)
      [.push pedalUp, .drain, .drain, .drain, .drain, .drain, .miss] = some (waiting (n + 1)) := by
  have hqueue := enqueueMidi_waiting h
  have hgeneration : pedalUp.generation = 0 := rfl
  simp only [waiting] at hqueue
  simp [LTS.exec, step, drainMidi, waiting, init, observeMidiGeneration,
    midiDrainBudgetPerCallback, hgeneration, hqueue, List.replicate_succ']

theorem waiting_reachable : ∀ n, n ≤ maxPendingMidi → system.Reachable (waiting n)
  | 0, _ => .init rfl
  | n + 1, h => (waiting_reachable n (Nat.le_of_succ_le h)).exec _ (exec_waiting h)

theorem dropOldest_waiting {p : MidiPacket → Bool} (hp : p pedalUp = false) (n : Nat) :
    dropOldest p (waiting n).queue.pending = none :=
  dropOldest_eq_none.mpr fun m hm => by rw [List.eq_of_mem_replicate hm, hp]

/-- 8192 releases wait. A note-on is rejected and counted; one more release
takes the place of them all, which are counted, and asks for a reset. -/
theorem pending_overflow_full :
    MidiPacket.fromBytes [0xB0, 64, 0] = some pedalUp ∧
    system.Reachable (waiting maxPendingMidi) ∧
    (waiting maxPendingMidi).queue.pending.length = maxPendingMidi ∧
    enqueueMidi (waiting maxPendingMidi).queue ⟨0, (0x90, 60, 100), 3⟩ =
      { (waiting maxPendingMidi).queue with midiDropCount := 1 } ∧
    enqueueMidi (waiting maxPendingMidi).queue pedalUp = ⟨[pedalUp], true, 8192⟩ ∧
    Admitted (waiting maxPendingMidi).queue pedalUp ⟨[pedalUp], true, 8192⟩ := by
  have hr := waiting_reachable maxPendingMidi (Nat.le_refl _)
  have hlen : (waiting maxPendingMidi).queue.pending.length = maxPendingMidi :=
    List.length_replicate
  have hrelease : pedalUp.isCriticalRelease = true := by decide
  have hfull : enqueueMidi (waiting maxPendingMidi).queue pedalUp = ⟨[pedalUp], true, 8192⟩ := by
    unfold enqueueMidi
    rw [if_neg (fun hc => hc.1 hrelease), hlen, if_neg (Nat.lt_irrefl _), dropOldestNoteOn,
      dropOldest_waiting (by decide), dropOldestNonCritical, dropOldest_waiting (by decide)]
    simp only [hrelease, not_true_eq_false, if_false]
    rfl
  obtain ⟨-, -, -, -, -, hadmitted⟩ := pending_overflow _ hr
  refine ⟨by decide, hr, hlen, ?_, hfull, hfull ▸ hadmitted pedalUp⟩
  unfold enqueueMidi
  rw [if_pos ⟨by decide, hlen.symm ▸ Nat.sub_le _ _⟩]
  rfl

/-- A queued note-on is lost to a new generation and not counted. -/
theorem superseded_uncounted :
    ∃ s s', system.Reachable s ∧ step s .drain = some s' ∧
      s.queue.pending = [⟨0, (0x90, 60, 100), 3⟩] ∧ s'.queue.pending = [] ∧ s'.delivered = [] ∧
      s'.queue.midiDropCount = s.queue.midiDropCount := by
  have hrun : ∃ s, system.Reachable s ∧ decide (s.queue.pending = [⟨0, (0x90, 60, 100), 3⟩] ∧
      (drainMidi s).any (fun s' => s'.queue.pending = [] ∧ s'.delivered = [] ∧
        s'.queue.midiDropCount = s.queue.midiDropCount) = true) = true :=
    LTS.reachable_of_any
      [.push ⟨0, (0x90, 60, 100), 3⟩, .drain, .drain, .drain, .drain, .drain, .miss, .bump, .drain]
      rfl (by decide +kernel)
  obtain ⟨s, hr, hp⟩ := hrun
  obtain ⟨hq, hd⟩ := of_decide_eq_true hp
  obtain ⟨s', hs', hs''⟩ := (Option.any_eq_true _ _).mp hd
  exact ⟨s, s', hr, hs', hq, of_decide_eq_true hs''⟩

end RtpOscMidi.L2.PendingMidi
