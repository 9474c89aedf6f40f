import RtpOscMidi.Core.LTS
import RtpOscMidi.Core.Lists
import RtpOscMidi.L2Machine.MidiPlayback

/-!
# Requests of the x86 bridge

The host (`RemotePlugin::process`) and the DSP worker (`service_dsp_cycle`)
share three slots. A call of `process` takes the result of the previous
request out of a READY slot, then writes a numbered request with the due
MIDI events into an EMPTY slot and marks it REQUESTED. The worker looks at
the slots one by one, executes the REQUESTED one of lowest number, marks it
READY and looks again.

A step is one access to a slot's state or to the fields that are read with
it, so the host may publish between any two looks of a scan. A packet's
bytes (`D`) and a block of output (`O`) are of any type. The parameter
changes that travel in the slots, the control commands, the fault codes and
the telemetry of the bridge are left out. Request numbers are `Nat`: the
64-bit counter does not come round.

`published`, `executed`, `taken` and `returned` record the requests in the
order they were published and executed, the packets taken from the queue and
what the calls returned; `arrived` the packets queued, less those the caller
dropped.
-/
namespace RtpOscMidi.L5.BridgeRequests

open Core L2.MidiPlayback

variable {D O : Type}

/-- mirrors src-tauri/src/audio/runtime_state.rs:462-469 -/
structure MidiPacket (D : Type) where
  timestampUs : Nat
  data : D
  deriving DecidableEq, Repr

/-- An event of a request; `reset` is one of `write_panic_events`.
mirrors src-tauri/src/audio/remote_bridge.rs:139-158,970-977 -/
inductive Event (D : Type) where
  | reset (channel controller : Nat)
  | midi (packet : MidiPacket D) (sampleOffset : Nat)
  deriving DecidableEq, Repr

def Event.packet : Event D → Option (MidiPacket D)
  | .midi p _ => some p
  | .reset _ _ => none

structure Request (D : Type) where
  sequence : Nat
  frames : Nat
  events : List (Event D)
  deriving DecidableEq, Repr

def Request.packets (r : Request D) : List (MidiPacket D) := r.events.filterMap Event.packet

inductive SlotState where
  | empty
  | requested
  | ready
  deriving DecidableEq, Repr

/-- mirrors src-tauri/src/audio/remote_bridge.rs:185-195 -/
structure Slot (D O : Type) where
  state : SlotState
  request : Request D
  output : Option O
  deriving DecidableEq, Repr

def maxMidi : Nat := 512
def maxFrames : Nat := 8192
def resetControllers : List Nat := [64, 120, 121, 123]

/-- mirrors src-tauri/src/audio/remote_bridge.rs:139-158 -/
def writePanicEvents (D : Type) : List (Event D) :=
  (List.range 16).flatMap fun channel => resetControllers.map fun c => .reset channel c

/-- Packets taken from the front of the queue while there is room and they
are due.
mirrors src-tauri/src/audio/remote_bridge.rs:956-981 -/
def writeBridgeMidiEvents : Nat → MidiBlockTiming → List (MidiPacket D) →
    List (Event D) × List (MidiPacket D) × MidiBlockTiming
  | 0, timing, midi => ([], midi, timing)
  | _ + 1, timing, [] => ([], [], timing)
  | room + 1, timing, p :: midi =>
    if timing.contains p.timestampUs then
      let (offset, timing) := timing.offset p.timestampUs
      let (events, rest) := writeBridgeMidiEvents room timing midi
      (.midi p offset :: events, rest)
    else ([], p :: midi, timing)

/-- The arguments of a call of `process` and what it fixes at its start. -/
structure Job where
  frames : Nat
  sourceEndUs : Nat
  nextIngressUs : Option Nat
  priming : Bool
  expected : Nat
  deriving DecidableEq, Repr

/-- `process` between its accesses to the slots.
mirrors src-tauri/src/audio/remote_bridge.rs:591-805 -/
inductive Client where
  | idle
  | readState (j : Job) (i : Nat)
  | readSequence (j : Job) (i : Nat)
  | readFrames (j : Job) (i : Nat)
  | discard (j : Job) (i : Nat)
  | mismatch (j : Job) (i : Nat)
  | take (j : Job) (i : Nat)
  | findEmpty (j : Job) (i : Nat)
  | fill (j : Job) (i : Nat)
  | storeSequence (i : Nat)
  | publish (i : Nat)
  deriving DecidableEq, Repr

/-- The request loop of `service_dsp_cycle`; `best` is the slot and number
of the lowest request seen in this scan.
mirrors src-tauri/src/audio/remote_bridge.rs:1572-1600 -/
inductive Worker where
  | idle
  | scan (i : Nat) (best : Option (Nat × Nat))
  | key (i : Nat) (best : Option (Nat × Nat))
  | load (p : Nat)
  | reject (p : Nat)
  | run (p : Nat)
  | ready (p : Nat)
  | fail (p : Nat)
  | dead
  deriving DecidableEq, Repr

/-- What a call wrote to its outputs: nothing, the block of a request, a
ramp down from frame `k` of an earlier block, or silence. -/
inductive Result (O : Type) where
  | refused
  | rendered (sequence frames : Nat) (output : Option O)
  | ramp (start : Option (Option O × Nat)) (frames : Nat)
  | primed
  deriving DecidableEq, Repr

structure St (D O : Type) where
  slots : List (Slot D O)
  midi : List (MidiPacket D)
  sampleRate : Nat
  nextSequence : Nat
  minOutputSequence : Nat
  panicPending : Bool
  clock : MidiPlaybackClock
  lastOutput : Option (Option O × Nat)
  client : Client
  worker : Worker
  published : List (Request D)
  executed : List (Request D)
  arrived : List (MidiPacket D)
  taken : List (MidiPacket D)
  returned : List (Result O)
  deriving DecidableEq, Repr

/-- A bridge with `n` slots. -/
def init (D O : Type) (n sampleRate : Nat) : St D O :=
  { slots := List.replicate n ⟨.empty, ⟨0, 0, []⟩, none⟩, midi := [], sampleRate,
    nextSequence := 1, minOutputSequence := 0, panicPending := false, clock := ⟨none⟩,
    lastOutput := none, client := .idle, worker := .idle, published := [], executed := [],
    arrived := [], taken := [], returned := [] }

inductive Lbl (D O : Type) where
  | enqueue (p : MidiPacket D)
  /-- the caller drops its queue -/
  | clearQueue
  | panicAllNotes
  | process (frames sourceEndUs : Nat) (nextIngressUs : Option Nat)
  | client
  /-- the worker enters `service_dsp_cycle` -/
  | cycle
  | worker
  /-- the plugin returns from a block -/
  | executed (ok : Bool) (output : O)
  deriving DecidableEq, Repr

def setState (s : St D O) (i : Nat) (state : SlotState) : St D O :=
  { s with slots := s.slots.modify i fun slot => { slot with state } }

/-- After the READY slots: `rendered` is the number and block that was taken.
mirrors src-tauri/src/audio/remote_bridge.rs:683-733 -/
def finishRead (s : St D O) (j : Job) (rendered : Option (Nat × Option O)) : St D O :=
  match rendered with
  | some (sequence, output) =>
    { s with client := .findEmpty j 0,
             returned := s.returned ++ [.rendered sequence j.frames output] }
  | none =>
    if j.priming then
      { s with client := .findEmpty j 0, returned := s.returned ++ [.primed] }
    else
      { s with client := .findEmpty j 0, lastOutput := none,
               returned := s.returned ++ [.ramp s.lastOutput j.frames] }

/-- The block, its events and the clock written into slot `i`.
mirrors src-tauri/src/audio/remote_bridge.rs:735-803 -/
def fillSlot (s : St D O) (j : Job) (i : Nat) : St D O :=
  let panic := if s.panicPending then writePanicEvents D else []
  let timing := s.clock.beginBlock j.frames s.sampleRate j.sourceEndUs
    (s.midi.head?.map (·.timestampUs))
  let (events, midi, timing) := writeBridgeMidiEvents (maxMidi - panic.length) timing s.midi
  let next := (midi.head?.map (·.timestampUs)).or j.nextIngressUs
  { s with
    slots := s.slots.modify i fun slot =>
      { slot with request := { slot.request with frames := j.frames, events := panic ++ events } },
    midi, panicPending := false, clock := .commit timing next,
    taken := s.taken ++ events.filterMap Event.packet, client := .storeSequence i }

/-- mirrors src-tauri/src/audio/remote_bridge.rs:591-805 -/
def clientStep (s : St D O) : Client → Option (St D O)
  | .idle => none
  | .readState j i =>
    match s.slots[i]? with
    | none => some (finishRead s j none)
    | some slot =>
      some { s with client := if slot.state = .ready then .readSequence j i
                              else .readState j (i + 1) }
  | .readSequence j i =>
    s.slots[i]?.map fun slot =>
      let sequence := slot.request.sequence
      { s with client :=
          if sequence < j.expected ∨ sequence < s.minOutputSequence then .discard j i
          else if sequence ≠ j.expected then .readState j (i + 1)
          else .readFrames j i }
  | .readFrames j i =>
    s.slots[i]?.map fun slot =>
      { s with client := if slot.request.frames ≠ j.frames then .mismatch j i else .take j i }
  | .discard j i => some { setState s i .empty with client := .readState j (i + 1) }
  | .mismatch j i => some (finishRead (setState s i .empty) j none)
  | .take j i =>
    s.slots[i]?.map fun slot =>
      finishRead { setState s i .empty with lastOutput := some (slot.output, j.frames - 1) } j
        (some (slot.request.sequence, slot.output))
  | .findEmpty j i =>
    match s.slots[i]? with
    | none => some { s with client := .idle }
    | some slot =>
      some { s with client := if slot.state = .empty then .fill j i else .findEmpty j (i + 1) }
  | .fill j i => some (fillSlot s j i)
  | .storeSequence i =>
    some { s with
      slots := s.slots.modify i fun slot =>
        { slot with request := { slot.request with sequence := s.nextSequence } },
      nextSequence := s.nextSequence + 1, client := .publish i }
  | .publish i =>
    s.slots[i]?.map fun slot =>
      { setState s i .requested with client := .idle, published := s.published ++ [slot.request] }

/-- `min_by_key` keeps the first of equal keys. -/
def better (best : Option (Nat × Nat)) (i sequence : Nat) : Nat × Nat :=
  match best with
  | some (p, q) => if sequence < q then (i, sequence) else (p, q)
  | none => (i, sequence)

/-- mirrors src-tauri/src/audio/remote_bridge.rs:1572-1600 -/
def workerStep (maxBlock : Nat) (s : St D O) : Worker → Option (St D O)
  | .idle => none
  | .scan i best =>
    match s.slots[i]? with
    | some slot =>
      some { s with worker := if slot.state = .requested then .key i best else .scan (i + 1) best }
    | none =>
      match best with
      | some (p, _) => some { s with worker := .load p }
      | none => some { s with worker := .idle }
  | .key i best =>
    s.slots[i]?.map fun slot =>
      { s with worker := .scan (i + 1) (better best i slot.request.sequence) }
  | .load p =>
    s.slots[p]?.map fun slot =>
      { s with worker :=
          if slot.request.frames = 0 ∨ slot.request.frames > maxBlock ∨
              slot.request.events.length > maxMidi then .reject p else .run p }
  | .reject p => some { setState s p .empty with worker := .scan 0 none }
  | .run _ => none
  | .ready p => some { setState s p .ready with worker := .scan 0 none }
  | .fail p => some { setState s p .empty with worker := .dead }
  | .dead => none

def step (maxBlock : Nat) (s : St D O) : Lbl D O → Option (St D O)
  | .enqueue p => some { s with midi := s.midi ++ [p], arrived := s.arrived ++ [p] }
  | .clearQueue =>
    if s.client = .idle then some { s with midi := [], arrived := s.taken } else none
  | .panicAllNotes =>
    if s.client = .idle then
      some { s with panicPending := true, minOutputSequence := s.nextSequence, lastOutput := none,
                    clock := ⟨none⟩ }
    else none
  | .process frames sourceEndUs nextIngressUs =>
    if s.client = .idle then
      if frames = 0 ∨ frames > maxFrames then some { s with returned := s.returned ++ [.refused] }
      else
        let priming := s.nextSequence = 1 ∨ s.panicPending
        let j := ⟨frames, sourceEndUs, nextIngressUs, priming, s.nextSequence - 1⟩
        some { s with client := .readState j 0 }
    else none
  | .client => clientStep s s.client
  | .cycle => if s.worker = .idle then some { s with worker := .scan 0 none } else none
  | .worker => workerStep maxBlock s s.worker
  | .executed ok output =>
    match s.worker with
    | .run p =>
      s.slots[p]?.map fun slot =>
        if ok then
          { s with slots := s.slots.modify p fun slot => { slot with output := some output },
                   executed := s.executed ++ [slot.request], worker := .ready p }
        else { s with executed := s.executed ++ [slot.request], worker := .fail p }
    | _ => none

/-- mirrors src-tauri/src/audio/remote_bridge.rs:87 -/
def bridgeSlots : Nat := 3

def lts (D O : Type) (maxBlock : Nat) : LTS (St D O) (Lbl D O) :=
  .ofStep (fun s => ∃ sampleRate, s = init D O bridgeSlots sampleRate) (step maxBlock)

/-! ## When the order is kept -/

/-- A request in a slot the scan has already looked at. -/
def passed (s : St D O) (i : Nat) : Bool := (s.slots.take i).any (·.state == .requested)

/-- A request in a slot the scan has yet to look at. -/
def ahead (s : St D O) (i : Nat) : Bool := (s.slots.drop i).any (·.state == .requested)

/-- A request is published into a slot the running scan has yet to look at,
an older one sits in a slot the scan has passed, and the scan has found and
will find no other: it will take the new one first. -/
def overtakes (s : St D O) : Lbl D O → Bool
  | .client =>
    match s.client, s.worker with
    | .publish p, .scan i none => decide (i ≤ p) && passed s i && !ahead s i
    | _, _ => false
  | _ => false

/-- Blocks of at most `maxBlock` frames. -/
def fits (maxBlock : Nat) : Lbl D O → Bool
  | .process frames _ _ => decide (frames ≤ maxBlock)
  | _ => true

/-! ## Requested slots -/

/-- The request a slot shows to the worker. -/
def req (s : St D O) (p : Nat) : Option (Request D) :=
  s.slots[p]?.bind fun slot => if slot.state = .requested then some slot.request else none

theorem req_eq_some {s : St D O} {p : Nat} {r : Request D} :
    req s p = some r ↔ ∃ slot, s.slots[p]? = some slot ∧ slot.state = .requested ∧
      slot.request = r := by
  simp [req, Option.bind_eq_some_iff]

theorem req_of_state {s : St D O} {p : Nat} {slot : Slot D O} (h : s.slots[p]? = some slot)
    (hs : slot.state ≠ .requested) : req s p = none := by
  simp [req, h, hs]

theorem req_modify {s s' : St D O} {i : Nat} {f : Slot D O → Slot D O}
    (h : s'.slots = s.slots.modify i f) (p : Nat) :
    req s' p = if p = i then (s.slots[i]?.bind fun slot =>
      if (f slot).state = .requested then some (f slot).request else none) else req s p := by
  unfold req
  rw [h, List.getElem?_modify]
  by_cases hp : i = p
  · subst hp
    cases s.slots[i]? <;> simp
  · rw [if_neg (Ne.symm hp)]
    cases s.slots[p]? <;> simp [hp]

/-- Changing a slot that is not requested, to another such state, is not
seen by the worker. -/
theorem req_quiet {s s' : St D O} {i : Nat} {slot : Slot D O} {f : Slot D O → Slot D O}
    (h : s'.slots = s.slots.modify i f) (hi : s.slots[i]? = some slot)
    (hs : slot.state ≠ .requested) (hf : (f slot).state ≠ .requested) : req s' = req s := by
  funext p
  rw [req_modify h]
  by_cases hp : p = i
  · subst hp
    simp [hi, hf, req_of_state hi hs]
  · rw [if_neg hp]

theorem passed_eq_true {s : St D O} {i j : Nat} {r : Request D} (hj : j < i)
    (h : req s j = some r) : passed s i = true := by
  obtain ⟨slot, hs, hst, -⟩ := req_eq_some.mp h
  refine List.any_eq_true.mpr ⟨slot, ?_, by simp [hst]⟩
  exact List.mem_of_getElem? (by rw [List.getElem?_take_of_lt hj]; exact hs)

theorem exists_of_ahead {s : St D O} {i : Nat} (h : ahead s i = true) :
    ∃ k r, i ≤ k ∧ req s k = some r := by
  obtain ⟨slot, hm, hst⟩ := List.any_eq_true.mp h
  obtain ⟨k, hk⟩ := List.mem_iff_getElem?.mp hm
  rw [List.getElem?_drop] at hk
  exact ⟨i + k, slot.request, Nat.le_add_right i k,
    req_eq_some.mpr ⟨slot, hk, by simpa using hst, rfl⟩⟩

/-! ## The scan -/

/-- The number of a request that the scan has chosen so far or will see. -/
def Visible (rq : Nat → Option (Request D)) (i : Nat) (best : Option (Nat × Nat)) (v : Nat) : Prop :=
  (∃ p, best = some (p, v)) ∨ ∃ k r, i ≤ k ∧ rq k = some r ∧ r.sequence = v

def BestOk (rq : Nat → Option (Request D)) (best : Option (Nat × Nat)) : Prop :=
  ∀ p q, best = some (p, q) → ∃ r, rq p = some r ∧ r.sequence = q

/-- A request behind the scan is no older than one it has chosen or will
see, unless there is none at all. -/
def Ordered (rq : Nat → Option (Request D)) (i : Nat) (best : Option (Nat × Nat)) : Prop :=
  ∀ j r, j < i → rq j = some r →
    (∃ v, Visible rq i best v ∧ v ≤ r.sequence) ∨ ∀ v, ¬Visible rq i best v

def Lowest (rq : Nat → Option (Request D)) (p : Nat) : Prop :=
  ∃ r, rq p = some r ∧ ∀ q t, rq q = some t → r.sequence ≤ t.sequence

theorem ordered_skip {rq : Nat → Option (Request D)} {i : Nat} {best : Option (Nat × Nat)}
    (h : Ordered rq i best) (hi : rq i = none) : Ordered rq (i + 1) best := by
  have hv : ∀ v, Visible rq (i + 1) best v ↔ Visible rq i best v := by
    intro v
    refine or_congr Iff.rfl ⟨?_, ?_⟩
    · rintro ⟨k, r, hk, hr⟩
      exact ⟨k, r, by omega, hr⟩
    · rintro ⟨k, r, hk, hr, hrv⟩
      have : k ≠ i := by rintro rfl; rw [hi] at hr; cases hr
      exact ⟨k, r, by omega, hr, hrv⟩
  intro j r hj hr
  have : j ≠ i := by rintro rfl; rw [hi] at hr; cases hr
  simp only [hv]
  exact h j r (by omega) hr

theorem better_le (best : Option (Nat × Nat)) (i v : Nat) :
    (better best i v).2 ≤ v ∧ ∀ p q, best = some (p, q) → (better best i v).2 ≤ q := by
  unfold better
  split
  · split
    · rename_i h
      refine ⟨Nat.le_refl _, ?_⟩
      intro p q hb
      cases hb
      exact Nat.le_of_lt h
    · rename_i h
      refine ⟨Nat.le_of_not_lt h, ?_⟩
      intro p q hb
      cases hb
      exact Nat.le_refl _
  · exact ⟨Nat.le_refl _, nofun⟩

theorem bestOk_better {rq : Nat → Option (Request D)} {i : Nat} {best : Option (Nat × Nat)}
    {r : Request D} (h : BestOk rq best) (hi : rq i = some r) :
    BestOk rq (some (better best i r.sequence)) := by
  intro p q hb
  simp only [Option.some.injEq] at hb
  unfold better at hb
  split at hb
  · split at hb
    · cases hb
      exact ⟨r, hi, rfl⟩
    · exact h p q (by rw [hb])
  · cases hb
    exact ⟨r, hi, rfl⟩

theorem ordered_key {rq : Nat → Option (Request D)} {i : Nat} {best : Option (Nat × Nat)}
    {r : Request D} (h : Ordered rq i best) (hi : rq i = some r) :
    Ordered rq (i + 1) (some (better best i r.sequence)) := by
  obtain ⟨h1, h2⟩ := better_le best i r.sequence
  have hchosen : Visible rq (i + 1) (some (better best i r.sequence))
      (better best i r.sequence).2 := .inl ⟨_, rfl⟩
  intro j t hj ht
  left
  by_cases hji : j = i
  · subst hji
    rw [hi] at ht
    cases ht
    exact ⟨_, hchosen, h1⟩
  · rcases h j t (by omega) ht with ⟨v, hv, hle⟩ | hn
    · rcases hv with ⟨p, hb⟩ | ⟨k, u, hk, hu, rfl⟩
      · exact ⟨_, hchosen, Nat.le_trans (h2 p v hb) hle⟩
      · by_cases hki : k = i
        · subst hki
          rw [hi] at hu
          cases hu
          exact ⟨_, hchosen, Nat.le_trans h1 hle⟩
        · exact ⟨_, .inr ⟨k, u, by omega, hu, rfl⟩, hle⟩
    · exact absurd (.inr ⟨i, r, Nat.le_refl _, hi, rfl⟩) (hn r.sequence)

/-- At the end of the scan the chosen request is the lowest of all. -/
theorem lowest_of_ordered {rq : Nat → Option (Request D)} {i p q : Nat}
    (hend : ∀ k, i ≤ k → rq k = none) (hb : BestOk rq (some (p, q)))
    (h : Ordered rq i (some (p, q))) : Lowest rq p := by
  obtain ⟨r, hr, rfl⟩ := hb p q rfl
  refine ⟨r, hr, ?_⟩
  intro k t ht
  by_cases hk : k < i
  · rcases h k t hk ht with ⟨v, hv, hle⟩ | hn
    · rcases hv with ⟨p', hp'⟩ | ⟨m, u, hm, hu, -⟩
      · cases hp'
        exact hle
      · rw [hend m hm] at hu
        cases hu
    · exact absurd (.inl ⟨p, rfl⟩) (hn r.sequence)
  · rw [hend k (by omega)] at ht
    cases ht

/-! ## Publishing while the worker scans -/

section Publish

variable {rq rq' : Nat → Option (Request D)} {p : Nat} {n : Request D}

theorem bestOk_publish (h' : ∀ q, rq' q = if q = p then some n else rq q) (hp : rq p = none)
    {best : Option (Nat × Nat)} (h : BestOk rq best) : BestOk rq' best := by
  intro b q hb
  obtain ⟨r, hr, hq⟩ := h b q hb
  have : b ≠ p := by rintro rfl; rw [hp] at hr; cases hr
  exact ⟨r, by rw [h', if_neg this]; exact hr, hq⟩

theorem visible_publish (h' : ∀ q, rq' q = if q = p then some n else rq q) (hp : rq p = none)
    {i v : Nat} {best : Option (Nat × Nat)} (h : Visible rq i best v) : Visible rq' i best v := by
  rcases h with hb | ⟨k, r, hk, hr, hv⟩
  · exact .inl hb
  · have : k ≠ p := by rintro rfl; rw [hp] at hr; cases hr
    exact .inr ⟨k, r, hk, by rw [h', if_neg this]; exact hr, hv⟩

theorem visible_lt (hnew : ∀ q r, rq q = some r → r.sequence < n.sequence) {i v : Nat}
    {best : Option (Nat × Nat)} (hb : BestOk rq best) (h : Visible rq i best v) :
    v < n.sequence := by
  rcases h with ⟨b, hb'⟩ | ⟨k, r, -, hr, rfl⟩
  · obtain ⟨r, hr, rfl⟩ := hb b v hb'
    exact hnew b r hr
  · exact hnew k r hr

theorem ordered_publish (h' : ∀ q, rq' q = if q = p then some n else rq q) (hp : rq p = none)
    (hnew : ∀ q r, rq q = some r → r.sequence < n.sequence) {i : Nat} {best : Option (Nat × Nat)}
    (hb : BestOk rq best) (h : Ordered rq i best)
    (hok : i ≤ p → (∃ v, Visible rq i best v) ∨ ∀ j r, j < i → rq j ≠ some r) :
    Ordered rq' i best := by
  intro j r hj hr
  by_cases hex : ∃ v, Visible rq i best v
  · obtain ⟨v, hv⟩ := hex
    left
    rw [h'] at hr
    split at hr
    · cases hr
      exact ⟨v, visible_publish h' hp hv, Nat.le_of_lt (visible_lt hnew hb hv)⟩
    · rcases h j r hj hr with ⟨w, hw, hle⟩ | hn
      · exact ⟨w, visible_publish h' hp hw, hle⟩
      · exact absurd hv (hn v)
  · by_cases hip : i ≤ p
    · rcases hok hip with hv | hn
      · exact absurd hv hex
      · rw [h', if_neg (by omega)] at hr
        exact absurd hr (hn j r hj)
    · right
      rintro v (hv | ⟨k, t, hk, ht, hv⟩)
      · exact hex ⟨v, .inl hv⟩
      · rw [h', if_neg (by omega)] at ht
        exact hex ⟨v, .inr ⟨k, t, hk, ht, hv⟩⟩

theorem lowest_publish (h' : ∀ q, rq' q = if q = p then some n else rq q) (hp : rq p = none)
    (hnew : ∀ q r, rq q = some r → r.sequence < n.sequence) {b : Nat} (h : Lowest rq b) :
    Lowest rq' b := by
  obtain ⟨r, hr, hmin⟩ := h
  have hbp : b ≠ p := by rintro rfl; rw [hp] at hr; cases hr
  refine ⟨r, by rw [h', if_neg hbp]; exact hr, ?_⟩
  intro q t ht
  rw [h'] at ht
  split at ht
  · cases ht
    exact Nat.le_of_lt (hnew b r hr)
  · exact hmin q t ht

end Publish

/-! ## Invariant -/

def Fits (maxBlock : Nat) (r : Request D) : Prop :=
  r.frames ≠ 0 ∧ r.frames ≤ maxBlock ∧ r.events.length ≤ maxMidi

/-- The slot of a request that has run but is still marked REQUESTED. -/
def Worker.done : Worker → Option Nat
  | .ready p | .fail p => some p
  | _ => none

def WorkerOk (rq : Nat → Option (Request D)) : Worker → Prop
  | .scan i best => BestOk rq best ∧ Ordered rq i best
  | .key i best => BestOk rq best ∧ Ordered rq i best ∧ ∃ r, rq i = some r
  | .load p | .run p => Lowest rq p
  | .ready p | .fail p => ∃ r, rq p = some r
  | .reject _ => False
  | _ => True

/-- The requests between host and worker: `pend` are those published and
not yet executed, in the order published. -/
structure Sched (maxBlock : Nat) (rq : Nat → Option (Request D)) (w : Worker)
    (published executed pend : List (Request D)) (next : Nat) : Prop where
  sorted : (published.map Request.sequence).Pairwise (· < ·)
  bound : ∀ r ∈ published, r.sequence < next
  split : published = executed ++ pend
  held : ∀ r ∈ pend, ∃ p, w.done ≠ some p ∧ rq p = some r
  pending : ∀ p r, w.done ≠ some p → rq p = some r → r ∈ pend
  known : ∀ p r, rq p = some r → r ∈ published ∧ Fits maxBlock r
  distinct : ∀ p q r t, rq p = some r → rq q = some t → r.sequence = t.sequence → p = q
  worker : WorkerOk rq w

def JobOk (maxBlock : Nat) (j : Job) : Prop := j.frames ≠ 0 ∧ j.frames ≤ maxBlock

/-- The host works on READY and EMPTY slots only. -/
def ClientOk (maxBlock : Nat) (s : St D O) : Client → Prop
  | .idle => True
  | .readState j _ | .findEmpty j _ => JobOk maxBlock j
  | .readSequence j i | .readFrames j i | .discard j i | .mismatch j i | .take j i =>
    JobOk maxBlock j ∧ ∃ slot, s.slots[i]? = some slot ∧ slot.state = .ready
  | .fill j i => JobOk maxBlock j ∧ ∃ slot, s.slots[i]? = some slot ∧ slot.state = .empty
  | .storeSequence i =>
    ∃ slot, s.slots[i]? = some slot ∧ slot.state = .empty ∧ Fits maxBlock slot.request
  | .publish i =>
    ∃ slot, s.slots[i]? = some slot ∧ slot.state = .empty ∧ Fits maxBlock slot.request ∧
      slot.request.sequence + 1 = s.nextSequence ∧
      ∀ r ∈ s.published, r.sequence < slot.request.sequence

/-- Packets taken from the queue into a slot that is not yet published. -/
def inHand (s : St D O) : List (MidiPacket D) :=
  match s.client with
  | .storeSequence i | .publish i =>
    match s.slots[i]? with
    | some slot => slot.request.packets
    | none => []
  | _ => []

structure Inv (maxBlock : Nat) (s : St D O) : Prop where
  sched : ∃ pend, Sched maxBlock (req s) s.worker s.published s.executed pend s.nextSequence
  client : ClientOk maxBlock s s.client
  taken : s.taken = s.published.flatMap Request.packets ++ inHand s
  arrived : s.arrived = s.taken ++ s.midi

/-! ## Worker steps -/

/-- Slots that are not requested are left alone. -/
def Aside (s s' : St D O) : Prop :=
  ∀ (i : Nat) (slot : Slot D O), s.slots[i]? = some slot → slot.state ≠ .requested →
    s'.slots[i]? = some slot

theorem aside_modify {s s' : St D O} {p : Nat} {r : Request D} {f : Slot D O → Slot D O}
    (h : s'.slots = s.slots.modify p f) (hp : req s p = some r) : Aside s s' := by
  intro i slot hi hst
  have hne : p ≠ i := by
    rintro rfl
    rw [req_of_state hi hst] at hp
    cases hp
  simp [h, hne, hi]

theorem ClientOk.aside {mb : Nat} {s s' : St D O} {c : Client} (h : ClientOk mb s c)
    (ha : Aside s s') (hp : s'.published = s.published) (hn : s'.nextSequence = s.nextSequence) :
    ClientOk mb s' c := by
  cases c with
  | idle => trivial
  | readState j i => exact h
  | findEmpty j i => exact h
  | readSequence j i | readFrames j i | discard j i | mismatch j i | take j i | fill j i =>
    obtain ⟨hj, slot, hs, hst⟩ := h
    exact ⟨hj, slot, ha i slot hs (by rw [hst]; nofun), hst⟩
  | storeSequence i =>
    obtain ⟨slot, hs, hst, hf⟩ := h
    exact ⟨slot, ha i slot hs (by rw [hst]; nofun), hst, hf⟩
  | publish i =>
    obtain ⟨slot, hs, hst, hf, hseq, hlt⟩ := h
    exact ⟨slot, ha i slot hs (by rw [hst]; nofun), hst, hf, by rw [hn]; exact hseq,
      by rw [hp]; exact hlt⟩

theorem inHand_aside {mb : Nat} {s s' : St D O} (h : ClientOk mb s s.client) (ha : Aside s s')
    (hc : s'.client = s.client) : inHand s' = inHand s := by
  unfold inHand
  rw [hc]
  cases hu : s.client with
  | storeSequence i =>
    rw [hu] at h
    obtain ⟨slot, hs, hst, -⟩ := h
    simp only [hs, ha i slot hs (by rw [hst]; nofun)]
  | publish i =>
    rw [hu] at h
    obtain ⟨slot, hs, hst, -⟩ := h
    simp only [hs, ha i slot hs (by rw [hst]; nofun)]
  | _ => rfl

/-- A worker step that leaves the host's side alone. -/
theorem Inv.worker {mb : Nat} {s s' : St D O} {pend : List (Request D)} (I : Inv mb s)
    (h : Sched mb (req s') s'.worker s'.published s'.executed pend s'.nextSequence)
    (ha : Aside s s') (hp : s'.published = s.published) (hn : s'.nextSequence = s.nextSequence)
    (hc : s'.client = s.client) (ht : s'.taken = s.taken) (hm : s'.arrived = s.arrived)
    (hq : s'.midi = s.midi) : Inv mb s' where
  sched := ⟨pend, h⟩
  client := by rw [hc]; exact I.client.aside ha hp hn
  taken := by rw [ht, hp, inHand_aside I.client ha hc]; exact I.taken
  arrived := by rw [hm, ht, hq]; exact I.arrived

/-- The worker moves on without touching a slot. -/
theorem Inv.moves {mb : Nat} {s : St D O} {w : Worker} (I : Inv mb s)
    (hd : w.done = s.worker.done) (hw : WorkerOk (req s) w) : Inv mb { s with worker := w } := by
  obtain ⟨pend, S⟩ := I.sched
  have hs : Sched mb (req s) w s.published s.executed pend s.nextSequence :=
    { S with
      held := by rw [hd]; exact S.held
      pending := by rw [hd]; exact S.pending
      worker := hw }
  exact I.worker hs (fun i slot hi _ => hi) rfl rfl rfl rfl rfl rfl

/-- The lowest of the requested slots holds the oldest pending request. -/
theorem Sched.head {mb : Nat} {rq : Nat → Option (Request D)} {w : Worker} {p : Nat}
    {published executed pend : List (Request D)} {next : Nat}
    (S : Sched mb rq w published executed pend next) (hw : w.done = none) (hl : Lowest rq p) :
    ∃ r rest, rq p = some r ∧ pend = r :: rest := by
  obtain ⟨r, hr, hmin⟩ := hl
  have hmem := S.pending p r (by simp [hw]) hr
  cases pend with
  | nil => simp at hmem
  | cons h rest =>
    refine ⟨r, rest, hr, ?_⟩
    have hsorted := S.sorted
    rw [S.split, List.map_append, List.map_cons] at hsorted
    have hlt := (List.pairwise_cons.mp (List.pairwise_append.mp hsorted).2.1).1
    rcases List.mem_cons.mp hmem with rfl | hrest
    · rfl
    · obtain ⟨q, -, hq⟩ := S.held h List.mem_cons_self
      have := hmin q h hq
      have := hlt r.sequence (List.mem_map_of_mem hrest)
      omega

/-- The plugin has run the oldest pending request. -/
theorem Sched.runs {mb : Nat} {rq : Nat → Option (Request D)} {w w' : Worker} {p : Nat}
    {published executed rest : List (Request D)} {r : Request D} {next : Nat}
    (S : Sched mb rq w published executed (r :: rest) next) (hw : w.done = none)
    (hp : rq p = some r) (hw' : w'.done = some p) (hok : WorkerOk rq w') :
    Sched mb rq w' published (executed ++ [r]) rest next := by
  refine { S with split := ?_, held := ?_, pending := ?_, worker := hok }
  · rw [S.split, List.append_assoc]
    rfl
  · intro t ht
    obtain ⟨q, -, hq⟩ := S.held t (List.mem_cons_of_mem _ ht)
    refine ⟨q, ?_, hq⟩
    rw [hw']
    rintro ⟨⟩
    rw [hp] at hq
    cases hq
    have hsorted := S.sorted
    rw [S.split, List.map_append, List.map_cons] at hsorted
    have hlt := (List.pairwise_cons.mp (List.pairwise_append.mp hsorted).2.1).1
    exact absurd (hlt r.sequence (List.mem_map_of_mem ht)) (Nat.lt_irrefl _)
  · intro q t hq ht
    have hqp : q ≠ p := by
      rintro rfl
      exact hq hw'
    rcases List.mem_cons.mp (S.pending q t (by simp [hw]) ht) with rfl | hrest
    · exact absurd (S.distinct q p t t ht hp rfl) hqp
    · exact hrest

/-- The worker gives back the slot of the request it has run. -/
theorem Sched.gives {mb : Nat} {rq rq' : Nat → Option (Request D)} {w w' : Worker} {p : Nat}
    {published executed pend : List (Request D)} {next : Nat}
    (S : Sched mb rq w published executed pend next) (hw : w.done = some p)
    (hw' : w'.done = none) (h' : ∀ q, rq' q = if q = p then none else rq q)
    (hok : WorkerOk rq' w') : Sched mb rq' w' published executed pend next := by
  have hold : ∀ q r, rq' q = some r → q ≠ p ∧ rq q = some r := by
    intro q r hr
    rw [h'] at hr
    split at hr
    · cases hr
    · rename_i hq
      exact ⟨hq, hr⟩
  refine { S with held := ?_, pending := ?_, known := ?_, distinct := ?_, worker := hok }
  · intro r hr
    obtain ⟨q, hq, hrq⟩ := S.held r hr
    rw [hw] at hq
    refine ⟨q, by simp [hw'], ?_⟩
    rw [h', if_neg (by rintro rfl; exact hq rfl)]
    exact hrq
  · intro q r _ hr
    obtain ⟨hq, hrq⟩ := hold q r hr
    exact S.pending q r (by rw [hw]; rintro ⟨⟩; exact hq rfl) hrq
  · intro q r hr
    exact S.known q r (hold q r hr).2
  · intro q q' r t hr ht
    exact S.distinct q q' r t (hold q r hr).2 (hold q' t ht).2

theorem req_setState {s : St D O} {p : Nat} {state : SlotState} (h : state ≠ .requested) (q : Nat) :
    req (setState s p state) q = if q = p then none else req s q := by
  rw [req_modify rfl]
  split
  · cases s.slots[p]? with
    | none => rfl
    | some slot => rfl
  · rfl

theorem scan_start (rq : Nat → Option (Request D)) : BestOk rq none ∧ Ordered rq 0 none :=
  ⟨nofun, fun _ _ h => absurd h (Nat.not_lt_zero _)⟩

theorem inv_gives {mb : Nat} {s : St D O} {w : Worker} {p : Nat} {state : SlotState} (I : Inv mb s)
    (hp : ∃ r, req s p = some r) (hw : s.worker.done = some p) (hst : state ≠ .requested)
    (hw' : w.done = none) (hok : ∀ rq : Nat → Option (Request D), WorkerOk rq w) :
    Inv mb { setState s p state with worker := w } := by
  obtain ⟨pend, S⟩ := I.sched
  obtain ⟨r, hr⟩ := hp
  have h' := @req_setState _ _ s p state hst
  exact I.worker (S.gives hw hw' h' (hok _)) (aside_modify rfl hr) rfl rfl rfl rfl rfl rfl

theorem inv_workerStep {mb : Nat} {s s' : St D O} (I : Inv mb s)
    (hst : workerStep mb s s.worker = some s') : Inv mb s' := by
  obtain ⟨pend, S⟩ := I.sched
  have hw := S.worker
  cases hu : s.worker with
  | idle => simp [hu, workerStep] at hst
  | scan i best =>
    rw [hu] at hst hw
    simp only [workerStep] at hst
    split at hst
    · rename_i slot hi
      simp only [Option.some.injEq] at hst; subst hst
      split
      · rename_i hr
        exact I.moves (by rw [hu]; rfl) ⟨hw.1, hw.2, slot.request, req_eq_some.mpr ⟨slot, hi, hr, rfl⟩⟩
      · rename_i hr
        exact I.moves (by rw [hu]; rfl) ⟨hw.1, ordered_skip hw.2 (req_of_state hi hr)⟩
    · rename_i hi
      have hend : ∀ k, i ≤ k → req s k = none := by
        intro k hk
        have : s.slots[k]? = none := by
          rw [List.getElem?_eq_none_iff] at hi ⊢
          omega
        simp [req, this]
      split at hst
      · simp only [Option.some.injEq] at hst; subst hst
        exact I.moves (by rw [hu]; rfl) (lowest_of_ordered hend hw.1 hw.2)
      · simp only [Option.some.injEq] at hst; subst hst
        exact I.moves (by rw [hu]; rfl) trivial
  | key i best =>
    rw [hu] at hst hw
    obtain ⟨hb, ho, r, hr⟩ := hw
    obtain ⟨slot, hs, -, rfl⟩ := req_eq_some.mp hr
    simp only [workerStep, hs, Option.map_some, Option.some.injEq] at hst; subst hst
    exact I.moves (by rw [hu]; rfl) ⟨bestOk_better hb hr, ordered_key ho hr⟩
  | load p =>
    rw [hu] at hst hw
    have hl : Lowest (req s) p := hw
    obtain ⟨r, hr, -⟩ := hw
    obtain ⟨slot, hs, -, rfl⟩ := req_eq_some.mp hr
    obtain ⟨-, hf0, hfm, hev⟩ := S.known p _ hr
    simp only [workerStep, hs, Option.map_some, Option.some.injEq] at hst; subst hst
    rw [if_neg (by omega)]
    exact I.moves (by rw [hu]; rfl) hl
  | reject p =>
    rw [hu] at hw
    exact hw.elim
  | run p => simp [hu, workerStep] at hst
  | ready p =>
    rw [hu] at hst hw
    simp only [workerStep, Option.some.injEq] at hst; subst hst
    exact inv_gives I hw (by rw [hu]; rfl) nofun rfl scan_start
  | fail p =>
    rw [hu] at hst hw
    simp only [workerStep, Option.some.injEq] at hst; subst hst
    exact inv_gives I hw (by rw [hu]; rfl) nofun rfl fun _ => trivial
  | dead => simp [hu, workerStep] at hst

theorem inv_executed {mb : Nat} {s s' : St D O} {ok : Bool} {output : O} (I : Inv mb s)
    (hst : step mb s (.executed ok output) = some s') : Inv mb s' := by
  obtain ⟨pend, S⟩ := I.sched
  have hw := S.worker
  simp only [step] at hst
  split at hst
  · rename_i p hu
    rw [hu] at hw
    obtain ⟨r, rest, hr, rfl⟩ := S.head (by rw [hu]; rfl) hw
    have hr' := hr
    obtain ⟨slot, hs, hreq, rfl⟩ := req_eq_some.mp hr'
    simp only [hs, Option.map_some, Option.some.injEq] at hst; subst hst
    split
    · have heq : req { s with
          slots := s.slots.modify p fun slot => { slot with output := some output },
          executed := s.executed ++ [slot.request], worker := .ready p } = req s := by
        funext q
        rw [req_modify rfl]
        split
        · rename_i hq
          subst hq
          simp [hs, hreq, hr]
        · rfl
      have hS := @Sched.runs _ _ _ _ (.ready p) p _ _ _ _ _ S (by rw [hu]; rfl) hr rfl ⟨_, hr⟩
      rw [← heq] at hS
      exact I.worker hS (aside_modify rfl hr) rfl rfl rfl rfl rfl rfl
    · have hS := @Sched.runs _ _ _ _ (.fail p) p _ _ _ _ _ S (by rw [hu]; rfl) hr rfl ⟨_, hr⟩
      exact I.worker hS (fun i slot hi _ => hi) rfl rfl rfl rfl rfl rfl
  · cases hst

/-! ## Host steps -/

theorem length_writeBridgeMidiEvents (room : Nat) :
    ∀ (timing : MidiBlockTiming) (midi : List (MidiPacket D)),
      (writeBridgeMidiEvents room timing midi).1.length ≤ room := by
  induction room with
  | zero => exact fun _ _ => Nat.le_refl _
  | succ room ih =>
    intro timing midi
    cases midi with
    | nil => exact Nat.zero_le _
    | cons p midi =>
      unfold writeBridgeMidiEvents
      split
      · exact Nat.succ_le_succ (ih _ _)
      · exact Nat.zero_le _

/-- The packets of the events, then the rest of the queue. -/
theorem packets_writeBridgeMidiEvents (room : Nat) :
    ∀ (timing : MidiBlockTiming) (midi : List (MidiPacket D)),
      (writeBridgeMidiEvents room timing midi).1.filterMap Event.packet ++
        (writeBridgeMidiEvents room timing midi).2.1 = midi := by
  induction room with
  | zero => exact fun _ _ => rfl
  | succ room ih =>
    intro timing midi
    cases midi with
    | nil => rfl
    | cons p midi =>
      unfold writeBridgeMidiEvents
      split
      · simp only [List.filterMap_cons, Event.packet, List.cons_append, List.cons.injEq, true_and]
        exact ih _ _
      · rfl

theorem packets_writePanicEvents : (writePanicEvents D).filterMap Event.packet = [] := by
  simp only [writePanicEvents, List.filterMap_eq_nil_iff, List.mem_flatMap, List.mem_map]
  rintro e ⟨channel, -, c, -, rfl⟩
  rfl

theorem length_writePanicEvents : (writePanicEvents D).length = 64 := by
  simp [writePanicEvents, resetControllers]

/-- A host step that the worker does not see. -/
structure Quiet (s s' : St D O) : Prop where
  req : req s' = req s
  worker : s'.worker = s.worker
  published : s'.published = s.published
  executed : s'.executed = s.executed
  next : s.nextSequence ≤ s'.nextSequence

theorem Inv.quiet {mb : Nat} {s s' : St D O} (I : Inv mb s) (q : Quiet s s')
    (hc : ClientOk mb s' s'.client)
    (ht : s'.taken = s'.published.flatMap Request.packets ++ inHand s')
    (ha : s'.arrived = s'.taken ++ s'.midi) : Inv mb s' := by
  obtain ⟨pend, S⟩ := I.sched
  refine ⟨⟨pend, ?_⟩, hc, ht, ha⟩
  rw [q.req, q.worker, q.published, q.executed]
  exact { S with bound := fun r hr => Nat.lt_of_lt_of_le (S.bound r hr) q.next }

/-- A host step outside the writing of a slot. -/
theorem Inv.reads {mb : Nat} {s s' : St D O} (I : Inv mb s) (q : Quiet s s')
    (h : inHand s = []) (h' : inHand s' = []) (hc : ClientOk mb s' s'.client)
    (ht : s'.taken = s.taken) (ha : s'.arrived = s.arrived) (hm : s'.midi = s.midi) :
    Inv mb s' := by
  refine I.quiet q hc ?_ ?_
  · rw [ht, h', q.published, ← h]
    exact I.taken
  · rw [ha, ht, hm]
    exact I.arrived

theorem inHand_eq_nil {s : St D O} {c : Client} (hu : s.client = c)
    (h₁ : ∀ i, c ≠ .storeSequence i) (h₂ : ∀ i, c ≠ .publish i) : inHand s = [] := by
  unfold inHand
  split
  · rename_i i h
    exact absurd (hu.symm.trans h) (h₁ i)
  · rename_i i h
    exact absurd (hu.symm.trans h) (h₂ i)
  · rfl

theorem Quiet.refl (s : St D O) : Quiet s s := ⟨rfl, rfl, rfl, rfl, Nat.le_refl _⟩

theorem quiet_setState {s : St D O} {i : Nat} {slot : Slot D O} {state : SlotState}
    (hi : s.slots[i]? = some slot) (hs : slot.state ≠ .requested) (hst : state ≠ .requested) :
    Quiet s (setState s i state) :=
  ⟨req_quiet rfl hi hs hst, rfl, rfl, rfl, Nat.le_refl _⟩

/-- The end of the READY slots, from a state that differs from `s` in what
the worker does not see. -/
theorem inv_finishRead {mb : Nat} {s s₁ : St D O} {j : Job} {r : Option (Nat × Option O)}
    (I : Inv mb s) (q : Quiet s s₁) (hj : JobOk mb j) (h : inHand s = [])
    (ht : s₁.taken = s.taken) (ha : s₁.arrived = s.arrived) (hm : s₁.midi = s.midi) :
    Inv mb (finishRead s₁ j r) := by
  unfold finishRead
  split
  · exact I.reads { q with } h rfl hj ht ha hm
  · split
    · exact I.reads { q with } h rfl hj ht ha hm
    · exact I.reads { q with } h rfl hj ht ha hm

theorem inv_fillSlot {mb : Nat} {s : St D O} {j : Job} {i : Nat} (I : Inv mb s)
    (hu : s.client = .fill j i) : Inv mb (fillSlot s j i) := by
  have hc := I.client
  rw [hu] at hc
  obtain ⟨hj, slot, hs, hst⟩ := hc
  have h0 : inHand s = [] := inHand_eq_nil hu nofun nofun
  have ht := I.taken
  have ha := I.arrived
  rw [h0, List.append_nil] at ht
  simp only [fillSlot]
  generalize hpan : (if s.panicPending then writePanicEvents D else []) = panic
  generalize s.clock.beginBlock j.frames s.sampleRate j.sourceEndUs
    (s.midi.head?.map (·.timestampUs)) = timing
  have hlen := length_writeBridgeMidiEvents (maxMidi - panic.length) timing s.midi
  have hpk := packets_writeBridgeMidiEvents (maxMidi - panic.length) timing s.midi
  generalize writeBridgeMidiEvents (maxMidi - panic.length) timing s.midi = w at hlen hpk
  have hpanlen : panic.length ≤ maxMidi := by
    rw [← hpan]
    split
    · rw [length_writePanicEvents]
      decide
    · exact Nat.zero_le _
  have hpan0 : panic.filterMap Event.packet = [] := by
    rw [← hpan]
    split
    · exact packets_writePanicEvents
    · rfl
  refine I.quiet ⟨req_quiet rfl hs (by rw [hst]; nofun) (by rw [hst]; nofun), rfl, rfl, rfl,
    Nat.le_refl _⟩ ?_ ?_ ?_
  · refine ⟨{ slot with request :=
      { slot.request with frames := j.frames, events := panic ++ w.1 } }, ?_, hst, hj.1, hj.2, ?_⟩
    · simp [hs]
    · simp only [List.length_append]
      omega
  · simp [inHand, hs, ht, Request.packets, hpan0]
  · rw [ha]
    simp only [List.append_assoc, hpk]

/-- The host publishes the request it has written. -/
theorem Sched.publish {mb : Nat} {rq rq' : Nat → Option (Request D)} {w : Worker} {p : Nat}
    {published executed pend : List (Request D)} {n : Request D} {next : Nat}
    (S : Sched mb rq w published executed pend next)
    (h' : ∀ q, rq' q = if q = p then some n else rq q) (hp : rq p = none)
    (hnew : ∀ r ∈ published, r.sequence < n.sequence) (hn : n.sequence < next)
    (hfit : Fits mb n)
    (hok : ∀ i best, w = .scan i best → i ≤ p →
      (∃ v, Visible rq i best v) ∨ ∀ j r, j < i → rq j ≠ some r) :
    Sched mb rq' w (published ++ [n]) executed (pend ++ [n]) next := by
  have hlt : ∀ q r, rq q = some r → r.sequence < n.sequence :=
    fun q r hr => hnew r (S.known q r hr).1
  have hdone : w.done ≠ some p := by
    intro hd
    have hw := S.worker
    cases w <;> simp only [Worker.done, Option.some.injEq, reduceCtorEq] at hd
    all_goals
      subst hd
      obtain ⟨r, hr⟩ := hw
      rw [hp] at hr
      cases hr
  have hkeep : ∀ q r, rq q = some r → rq' q = some r := by
    intro q r hr
    have : q ≠ p := by rintro rfl; rw [hp] at hr; cases hr
    rw [h', if_neg this]
    exact hr
  refine ⟨?_, ?_, by rw [S.split, List.append_assoc], ?_, ?_, ?_, ?_, ?_⟩
  · rw [List.map_append, List.pairwise_append]
    refine ⟨S.sorted, List.pairwise_singleton _ _, ?_⟩
    intro a ha b hb
    obtain ⟨r, hr, rfl⟩ := List.mem_map.mp ha
    simp only [List.map_cons, List.map_nil, List.mem_singleton] at hb
    rw [hb]
    exact hnew r hr
  · intro r hr
    rcases List.mem_append.mp hr with hr | hr
    · exact S.bound r hr
    · rw [List.mem_singleton.mp hr]
      exact hn
  · intro r hr
    rcases List.mem_append.mp hr with hr | hr
    · obtain ⟨q, hq, hrq⟩ := S.held r hr
      exact ⟨q, hq, hkeep q r hrq⟩
    · rw [List.mem_singleton.mp hr]
      exact ⟨p, hdone, by rw [h', if_pos rfl]⟩
  · intro q r hq hr
    rw [h'] at hr
    split at hr
    · cases hr
      exact List.mem_append_right _ (List.mem_singleton.mpr rfl)
    · exact List.mem_append_left _ (S.pending q r hq hr)
  · intro q r hr
    rw [h'] at hr
    split at hr
    · cases hr
      exact ⟨List.mem_append_right _ (List.mem_singleton.mpr rfl), hfit⟩
    · obtain ⟨hm, hf⟩ := S.known q r hr
      exact ⟨List.mem_append_left _ hm, hf⟩
  · intro q q' r t hr ht heq
    rw [h'] at hr ht
    split at hr
    · split at ht
      · rename_i hq hq'
        rw [hq, hq']
      · cases hr
        have := hlt q' t ht
        omega
    · split at ht
      · cases ht
        have := hlt q r hr
        omega
      · exact S.distinct q q' r t hr ht heq
  · have hw := S.worker
    cases w with
    | scan i best =>
      exact ⟨bestOk_publish h' hp hw.1, ordered_publish h' hp hlt hw.1 hw.2 (hok i best rfl)⟩
    | key i best =>
      obtain ⟨hb, ho, r, hr⟩ := hw
      exact ⟨bestOk_publish h' hp hb, ordered_publish h' hp hlt hb ho
        fun _ => .inl ⟨_, .inr ⟨i, r, Nat.le_refl _, hr, rfl⟩⟩, r, hkeep i r hr⟩
    | load b => exact lowest_publish h' hp hlt hw
    | run b => exact lowest_publish h' hp hlt hw
    | ready b | fail b =>
      obtain ⟨r, hr⟩ := hw
      exact ⟨r, hkeep b r hr⟩
    | reject b => exact hw
    | idle => trivial
    | dead => trivial

/-- Where the host does not overtake, the scan has found or will find a
request, or has passed none. -/
theorem visible_of_not_overtakes {s : St D O} {p i : Nat} {best : Option (Nat × Nat)}
    (hu : s.client = .publish p) (hw : s.worker = .scan i best) (hp : i ≤ p)
    (h : overtakes s (.client : Lbl D O) = false) :
    (∃ v, Visible (req s) i best v) ∨ ∀ j r, j < i → req s j ≠ some r := by
  cases best with
  | some b => exact .inl ⟨b.2, .inl ⟨b.1, rfl⟩⟩
  | none =>
    simp only [overtakes, hu, hw, hp, decide_true, Bool.true_and, Bool.and_eq_false_iff,
      Bool.not_eq_false'] at h
    rcases h with h | h
    · right
      intro j r hj hr
      rw [passed_eq_true hj hr] at h
      cases h
    · obtain ⟨k, r, hk, hr⟩ := exists_of_ahead h
      exact .inl ⟨r.sequence, .inr ⟨k, r, hk, hr, rfl⟩⟩

theorem inv_publish {mb : Nat} {s : St D O} {i : Nat} {slot : Slot D O} (I : Inv mb s)
    (hu : s.client = .publish i) (hs : s.slots[i]? = some slot)
    (hok : overtakes s (.client : Lbl D O) = false) :
    Inv mb { setState s i .requested with
      client := .idle, published := s.published ++ [slot.request] } := by
  obtain ⟨pend, S⟩ := I.sched
  have hc := I.client
  have ht := I.taken
  rw [hu] at hc
  obtain ⟨slot', hs', hst, hfit, hseq, hlt⟩ := hc
  rw [hs] at hs'
  cases hs'
  have hp : req s i = none := req_of_state hs (by rw [hst]; nofun)
  have h' : ∀ q, req (setState s i .requested) q = if q = i then some slot.request else req s q := by
    intro q
    rw [req_modify rfl, hs]
    rfl
  refine ⟨⟨pend ++ [slot.request], ?_⟩, trivial, ?_, I.arrived⟩
  · exact S.publish h' hp hlt (by omega) hfit
      fun b best hw hle => visible_of_not_overtakes hu hw hle hok
  · simp only [inHand, hu, hs] at ht
    simp [inHand, ht, setState]

theorem inv_clientStep {mb : Nat} {s s' : St D O} (I : Inv mb s)
    (hok : overtakes s (.client : Lbl D O) = false) (hst : clientStep s s.client = some s') :
    Inv mb s' := by
  have hc := I.client
  have q := Quiet.refl s
  cases hu : s.client with
  | idle => simp [hu, clientStep] at hst
  | readState j i =>
    have h0 : inHand s = [] := inHand_eq_nil hu nofun nofun
    rw [hu] at hst hc
    simp only [clientStep] at hst
    split at hst
    · simp only [Option.some.injEq] at hst; subst hst
      exact inv_finishRead I q hc h0 rfl rfl rfl
    · rename_i slot hi
      simp only [Option.some.injEq] at hst; subst hst
      split
      · rename_i hr
        exact I.reads { q with } h0 rfl ⟨hc, slot, hi, hr⟩ rfl rfl rfl
      · exact I.reads { q with } h0 rfl hc rfl rfl rfl
  | readSequence j i =>
    have h0 : inHand s = [] := inHand_eq_nil hu nofun nofun
    rw [hu] at hst hc
    simp only [clientStep, Option.map_eq_some_iff] at hst
    obtain ⟨slot, -, rfl⟩ := hst
    split
    · exact I.reads { q with } h0 rfl hc rfl rfl rfl
    · split
      · exact I.reads { q with } h0 rfl hc.1 rfl rfl rfl
      · exact I.reads { q with } h0 rfl hc rfl rfl rfl
  | readFrames j i =>
    have h0 : inHand s = [] := inHand_eq_nil hu nofun nofun
    rw [hu] at hst hc
    simp only [clientStep, Option.map_eq_some_iff] at hst
    obtain ⟨slot, -, rfl⟩ := hst
    split <;> exact I.reads { q with } h0 rfl hc rfl rfl rfl
  | discard j i =>
    have h0 : inHand s = [] := inHand_eq_nil hu nofun nofun
    rw [hu] at hst hc
    obtain ⟨hj, slot, hs, hsl⟩ := hc
    simp only [clientStep, Option.some.injEq] at hst; subst hst
    have q' := quiet_setState hs (by rw [hsl]; nofun) (nofun : SlotState.empty ≠ .requested)
    exact I.reads { q' with } h0 rfl hj rfl rfl rfl
  | mismatch j i =>
    have h0 : inHand s = [] := inHand_eq_nil hu nofun nofun
    rw [hu] at hst hc
    obtain ⟨hj, slot, hs, hsl⟩ := hc
    simp only [clientStep, Option.some.injEq] at hst; subst hst
    have q' := quiet_setState hs (by rw [hsl]; nofun) (nofun : SlotState.empty ≠ .requested)
    exact inv_finishRead I q' hj h0 rfl rfl rfl
  | take j i =>
    have h0 : inHand s = [] := inHand_eq_nil hu nofun nofun
    rw [hu] at hst hc
    obtain ⟨hj, slot, hs, hsl⟩ := hc
    simp only [clientStep, hs, Option.map_some, Option.some.injEq] at hst; subst hst
    have q' := quiet_setState hs (by rw [hsl]; nofun) (nofun : SlotState.empty ≠ .requested)
    exact inv_finishRead I { q' with } hj h0 rfl rfl rfl
  | findEmpty j i =>
    have h0 : inHand s = [] := inHand_eq_nil hu nofun nofun
    rw [hu] at hst hc
    simp only [clientStep] at hst
    split at hst
    · simp only [Option.some.injEq] at hst; subst hst
      exact I.reads { q with } h0 rfl trivial rfl rfl rfl
    · rename_i slot hi
      simp only [Option.some.injEq] at hst; subst hst
      split
      · rename_i he
        exact I.reads { q with } h0 rfl ⟨hc, slot, hi, he⟩ rfl rfl rfl
      · exact I.reads { q with } h0 rfl hc rfl rfl rfl
  | fill j i =>
    have hf := inv_fillSlot I hu
    rw [hu] at hst
    simp only [clientStep, Option.some.injEq] at hst; subst hst
    exact hf
  | storeSequence i =>
    have ht := I.taken
    obtain ⟨pend, S⟩ := I.sched
    rw [hu] at hst hc
    obtain ⟨slot, hs, hsl, hfit⟩ := hc
    simp only [clientStep, Option.some.injEq] at hst; subst hst
    refine I.quiet ⟨req_quiet rfl hs (by rw [hsl]; nofun) (by rw [hsl]; nofun), rfl, rfl, rfl,
      Nat.le_succ _⟩ ?_ ?_ I.arrived
    · refine ⟨{ slot with request := { slot.request with sequence := s.nextSequence } }, ?_, hsl,
        hfit, rfl, S.bound⟩
      simp [hs]
    · simp only [inHand, hu, hs] at ht
      simp [inHand, hs, ht, Request.packets]
  | publish i =>
    have hp := fun slot hs => @inv_publish D O mb s i slot I hu hs hok
    rw [hu] at hst
    simp only [clientStep, Option.map_eq_some_iff] at hst
    obtain ⟨slot, hs, rfl⟩ := hst
    exact hp slot hs

/-- Blocks fit and no request overtakes the scan. -/
def inOrder (maxBlock : Nat) (s : St D O) (l : Lbl D O) : Prop :=
  fits maxBlock l = true ∧ overtakes s l = false

instance (maxBlock : Nat) (s : St D O) (l : Lbl D O) : Decidable (inOrder maxBlock s l) :=
  inferInstanceAs (Decidable (_ ∧ _))

theorem inv_step {mb : Nat} {s s' : St D O} {l : Lbl D O} (I : Inv mb s) (hok : inOrder mb s l)
    (hst : step mb s l = some s') : Inv mb s' := by
  have q := Quiet.refl s
  have ht := I.taken
  have ha := I.arrived
  obtain ⟨hfits, hover⟩ := hok
  cases l with
  | enqueue p =>
    simp only [step, Option.some.injEq] at hst; subst hst
    exact I.quiet { q with } I.client ht (by rw [ha, List.append_assoc])
  | clearQueue =>
    simp only [step] at hst
    split at hst
    · simp only [Option.some.injEq] at hst; subst hst
      exact I.quiet { q with } I.client ht (by simp)
    · cases hst
  | panicAllNotes =>
    simp only [step] at hst
    split at hst
    · simp only [Option.some.injEq] at hst; subst hst
      exact I.quiet { q with } I.client ht ha
    · cases hst
  | process frames sourceEndUs nextIngressUs =>
    simp only [step] at hst
    split at hst
    · rename_i hu
      split at hst
      · simp only [Option.some.injEq] at hst; subst hst
        exact I.quiet { q with } I.client ht ha
      · rename_i hf
        simp only [Option.some.injEq] at hst; subst hst
        have hle : frames ≤ mb := of_decide_eq_true hfits
        have h0 : inHand s = [] := inHand_eq_nil hu nofun nofun
        refine I.reads { q with } h0 rfl ⟨?_, hle⟩ rfl rfl rfl
        intro h
        exact hf (.inl h)
    · cases hst
  | client => exact inv_clientStep I hover hst
  | cycle =>
    simp only [step] at hst
    split at hst
    · rename_i hu
      simp only [Option.some.injEq] at hst; subst hst
      exact I.moves (by rw [hu]; rfl) (scan_start _)
    · cases hst
  | worker => exact inv_workerStep I hst
  | executed ok output => exact inv_executed I hst

theorem inv_init (D O : Type) (mb n sampleRate : Nat) : Inv mb (init D O n sampleRate) := by
  have hreq : ∀ p, req (init D O n sampleRate) p = none := by
    intro p
    simp only [req, init, Option.bind_eq_none_iff]
    intro slot hs
    rw [List.eq_of_mem_replicate (List.mem_of_getElem? hs)]
    rfl
  refine ⟨⟨[], List.Pairwise.nil, nofun, rfl, nofun, ?_, ?_, ?_, trivial⟩, trivial, rfl, rfl⟩
  · intro p r _ hr
    rw [hreq] at hr
    cases hr
  · intro p r hr
    rw [hreq] at hr
    cases hr
  · intro p q r t hr
    rw [hreq] at hr
    cases hr

theorem inv_inductive (D O : Type) (mb : Nat) :
    ((lts D O mb).restrict (inOrder mb)).Inductive (Inv mb) where
  init := by
    rintro s ⟨sampleRate, rfl⟩
    exact inv_init D O mb bridgeSlots sampleRate
  step _ _ _ I hst := inv_step I hst.1 hst.2

/-! ## Headline property -/

/-- In every run where no published request overtakes the scan, the worker
executes the published requests in strictly increasing order, each once, and
the packets queued are those it has executed, then those of the requests
still in a slot, of the slot being written, and of the queue. -/
theorem requests_in_order (D O : Type) (maxBlock : Nat) (s : St D O)
    (h : ((lts D O maxBlock).restrict (inOrder maxBlock)).Reachable s) :
    ∃ pend, s.published = s.executed ++ pend ∧
      (∀ r ∈ pend, ∃ slot ∈ s.slots, slot.state = .requested ∧ slot.request = r) ∧
      (s.executed.map Request.sequence).Pairwise (· < ·) ∧
      s.arrived = s.executed.flatMap Request.packets ++ pend.flatMap Request.packets ++
        inHand s ++ s.midi := by
  obtain ⟨⟨pend, S⟩, -, ht, ha⟩ := (inv_inductive D O maxBlock).reachable s h
  refine ⟨pend, S.split, ?_, ?_, ?_⟩
  · intro r hr
    obtain ⟨p, -, hp⟩ := S.held r hr
    obtain ⟨slot, hs, hst, hreq⟩ := req_eq_some.mp hp
    exact ⟨slot, List.mem_of_getElem? hs, hst, hreq⟩
  · have hsorted := S.sorted
    rw [S.split, List.map_append, List.pairwise_append] at hsorted
    exact hsorted.1
  · rw [ha, ht, S.split, List.flatMap_append]

/-! ## Non-vacuity and the overtaking run -/

def noteRequest (k : Nat) : Request Nat := ⟨k, 64, [.midi ⟨0, k⟩ 0]⟩

def twoCalls : St Nat Nat :=
  { init Nat Nat 3 48000 with
    nextSequence := 3, published := [noteRequest 1, noteRequest 2],
    arrived := [⟨0, 1⟩, ⟨0, 2⟩], taken := [⟨0, 1⟩, ⟨0, 2⟩], returned := [.primed, .ramp none 64] }

/-- The worker has seen request 1 when request 2 is published. -/
def traceServe : List (Lbl Nat Nat) :=
  [.enqueue ⟨0, 1⟩, .process 64 0 none] ++ List.replicate 8 .client ++
    [.cycle, .worker, .worker, .enqueue ⟨0, 2⟩, .process 64 0 none] ++ List.replicate 9 .client ++
    List.replicate 5 .worker ++ [.executed true 5] ++ List.replicate 7 .worker ++ [.executed true 6]

def served : St Nat Nat :=
  { twoCalls with
    slots := [⟨.ready, noteRequest 1, some 5⟩, ⟨.requested, noteRequest 2, some 6⟩,
      ⟨.empty, ⟨0, 0, []⟩, none⟩],
    worker := .ready 1, executed := [noteRequest 1, noteRequest 2] }

theorem traceServe_result :
    LTS.execOk (inOrder 512) (step 512) (init Nat Nat 3 48000) traceServe = some served := by
  decide +kernel

theorem served_in_order : ∃ pend, served.published = served.executed ++ pend ∧
    served.arrived = served.executed.flatMap Request.packets ++ pend.flatMap Request.packets ++
      inHand served ++ served.midi :=
  have ⟨pend, h, _, _, ha⟩ := requests_in_order Nat Nat 512 served
    (LTS.reachable_of_execOk traceServe ⟨48000, rfl⟩ traceServe_result)
  ⟨pend, h, ha⟩

/-- The worker looks at slot 0, two calls publish requests 1 and 2 into
slots 0 and 1, and the worker looks on. -/
def traceOvertake : List (Lbl Nat Nat) :=
  [.enqueue ⟨0, 1⟩, .cycle, .worker, .process 64 0 none] ++ List.replicate 8 .client ++
    [.enqueue ⟨0, 2⟩, .process 64 0 none] ++ List.replicate 9 .client ++
    List.replicate 5 .worker ++ [.executed true 5] ++ List.replicate 7 .worker ++ [.executed true 6]

def overtaken : St Nat Nat :=
  { twoCalls with
    slots := [⟨.requested, noteRequest 1, some 6⟩, ⟨.ready, noteRequest 2, some 5⟩,
      ⟨.empty, ⟨0, 0, []⟩, none⟩],
    worker := .ready 0, executed := [noteRequest 2, noteRequest 1] }

theorem traceOvertake_result :
    LTS.execOk (fun _ l => fits 512 l = true) (step 512) (init Nat Nat 3 48000) traceOvertake =
      some overtaken := by
  decide +kernel

/-- The second request reaches the plugin before the first. -/
theorem overtaken_out_of_order :
    ¬∀ s, ((lts Nat Nat 512).restrict (fun _ l => fits 512 l = true)).Reachable s →
      (s.executed.map Request.sequence).Pairwise (· < ·) := by
  intro h
  have := h overtaken (LTS.reachable_of_execOk traceOvertake ⟨48000, rfl⟩ traceOvertake_result)
  exact absurd this (by decide)

end RtpOscMidi.L5.BridgeRequests
