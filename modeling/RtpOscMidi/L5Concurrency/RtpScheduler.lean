import RtpOscMidi.Core.LTS
import RtpOscMidi.Core.Lists
import RtpOscMidi.Core.Agenda
import RtpOscMidi.L1Encoding.MidiMessage
import RtpOscMidi.L2Machine.MidiQueue

/-!
# The RTP scheduler

The listeners of a session stamp each frame with the MIDI generation and then
with the recovery epoch of its source, and put it into a channel. A peer that
lost packets or left has its source's epoch raised and a reset requested. One
task takes the requests, drops what the source has waiting and dispatches
`[0xFF]` for it; dispatches the frames that are due; and then admits what the
channel holds.

Any number of listeners are under way. A step is one read or write of shared
state: by a listener, by the task (with what follows up to its next one), or by
another thread that raises the generation. Whether the channel has room, and in
what order the map of requests is walked, is part of the step. Times are in
milliseconds.

`received` are the frames taken from the channel, `log` what the task did with
them, `final` the epochs when it began to end.
-/
namespace RtpOscMidi.L5.RtpScheduler

open Core Core.Agenda L1.MidiMessage L2.MidiQueue

def rtpPendingCapacity : Nat := 4096

def rtpMaxScheduleAhead : Nat := 10000

/-- `order` is the number that the schedule gives the frame.
mirrors src-tauri/src/rtp/rtp_server.rs:590-597 -/
structure TimedRtpFrame where
  sourceEpoch : Nat
  critical : Bool
  frame : MidiFrame
  deadline : Nat
  generation : Nat
  deriving DecidableEq, Repr

/-- A listener between its reads; `stamped`: the epoch too has been read. -/
structure Listener where
  frame : TimedRtpFrame
  stamped : Bool
  deriving DecidableEq, Repr

/-- A source with its epoch. -/
abbrev Request := String × Nat

/-- `received e n` and `admitting e n`: `e` is the `n`th frame of this turn.
mirrors src-tauri/src/rtp/rtp_server.rs:718-785 -/
inductive Pc where
  | start
  | top
  | faults
  | recover (left : List Request)
  | pop (n now : Nat)
  | wait (wake : Nat)
  | received (e : TimedRtpFrame) (n : Nat)
  | admitting (e : TimedRtpFrame) (n : Nat)
  | drain (n : Nat)
  | flush (left : List Request)
  | stopped
  deriving DecidableEq, Repr

/-- A reset with its epoch and the generation that the task had seen; a frame
with the time and the generation that were read for it. -/
inductive Event where
  | reset (source : String) (cutoff seen : Nat)
  | frame (taken : Taken Nat TimedRtpFrame) (now generation : Nat)
  | refused (e : TimedRtpFrame)
  deriving DecidableEq

/-- A source without an epoch or a cutoff has 0. -/
structure St where
  generation : Nat
  now : Nat
  epochs : String → Nat
  faults : AList fun _ : String => Nat
  queue : List TimedRtpFrame
  listeners : List Listener
  pc : Pc
  cutoffs : String → Nat
  pending : Schedule Nat TimedRtpFrame
  seen : Nat
  log : List Event
  received : List TimedRtpFrame
  final : Option (String → Nat)

inductive Label where
  | tick (ms : Nat)
  | midiReset
  | request (source : String)
  | begin (source : String) (data : List UInt8) (deadline : Nat) (critical : Bool)
  | stamp (i : Nat)
  | send (i : Nat) (room : Bool)
  | take (faults : List Request)
  | turn
  | receive
  | wake
  | stop (faults : List Request)
  deriving DecidableEq, Repr

def requests (faults : AList fun _ : String => Nat) : List Request :=
  faults.entries.map fun e => (e.1, e.2)

/-- mirrors src-tauri/src/rtp/rtp_server.rs:629-635 -/
def St.request (s : St) (source : String) : St :=
  let epoch := s.epochs source + 1
  { s with
    epochs := Function.update s.epochs source epoch
    faults := s.faults.insert source epoch }

/-- mirrors src-tauri/src/rtp/rtp_server.rs:657-661 -/
def sourceFrameIsStale (e : TimedRtpFrame) (cutoffs : String → Nat) : Bool :=
  e.sourceEpoch < cutoffs e.frame.source

/-- mirrors src-tauri/src/rtp/rtp_server.rs:663-674 -/
def St.recoverScheduledSource (s : St) (source : String) (cutoff : Nat) : St :=
  { s with
    pending := s.pending.keep fun e => e.frame.source ≠ source ∨ cutoff ≤ e.sourceEpoch
    cutoffs := Function.update s.cutoffs source cutoff
    log := s.log ++ [.reset source cutoff s.seen] }

/-- The frames of the loop after the first; the loop ends after 256. -/
def afterFrame (n : Nat) : Pc := if n + 1 < 256 then .drain (n + 1) else .top

/-- `continue`: of the outer loop for the first frame of a turn. -/
def skipFrame (n : Nat) : Pc := if n = 0 then .top else afterFrame n

/-- mirrors src-tauri/src/rtp/rtp_server.rs:756 -/
def limit (critical : Bool) : Nat :=
  if critical then rtpPendingCapacity else rtpPendingCapacity - reserve rtpPendingCapacity

/-- mirrors src-tauri/src/rtp/rtp_server.rs:718-785 -/
def St.turn (s : St) : Option St :=
  match s.pc with
  | .start => some { s with seen := s.generation, pc := .top }
  | .top =>
    some <|
      if s.generation ≠ s.seen then
        { s with
          pending := s.pending.clear, cutoffs := fun _ => 0, seen := s.generation, pc := .faults }
      else { s with pc := .faults }
  | .recover [] => some { s with pc := .pop 256 s.now }
  | .recover ((source, cutoff) :: left) =>
    some { s.recoverScheduledSource source cutoff with pc := .recover left }
  | .pop n now =>
    match n, s.pending.entries with
    | n + 1, e :: _ =>
      some <|
        if now < e.key then { s with pc := .wait (min e.key (now + 10)) }
        else
          let s' := { s with pending := s.pending.tail, pc := .pop n now }
          if e.item.generation ≠ s.generation then s'
          else { s' with log := s.log ++ [.frame ⟨e, s.pending.next⟩ now s.generation] }
    | 0, e :: _ => some { s with pc := .wait (min e.key (now + 10)) }
    | _, [] => some { s with pc := .wait (now + 10) }
  | .received e n =>
    some <|
      if e.generation ≠ s.generation ∨ sourceFrameIsStale e s.cutoffs = true then
        { s with pc := skipFrame n }
      else if e.generation ≠ s.seen then
        { s with pending := s.pending.clear, seen := e.generation, pc := .admitting e n }
      else { s with pc := .admitting e n }
  | .admitting e n =>
    some <|
      if limit e.critical ≤ s.pending.entries.length ∨ s.now + rtpMaxScheduleAhead < e.deadline then
        { s with
          generation := if e.critical then s.generation + 1 else s.generation
          log := s.log ++ [.refused e]
          pc := skipFrame n }
      else { s with pending := s.pending.push e.deadline e, pc := afterFrame n }
  | .drain n =>
    match s.queue with
    | [] => some { s with pc := .top }
    | e :: queue => some { s with queue, received := s.received ++ [e], pc := .received e n }
  | .flush ((source, cutoff) :: left) =>
    some { s with log := s.log ++ [.reset source cutoff s.seen], pc := .flush left }
  | .flush [] => some { s with pc := .stopped }
  | _ => none

/-- `begin`, `stamp` and `send` are a listener for MIDI or SysEx, `request` one
for a fault, a loss or a peer that leaves; `stop` is the end of the channel or
of the session.
mirrors src-tauri/src/rtp/rtp_server.rs:254-366,689-704 -/
def St.step (s : St) : Label → Option St
  | .tick ms => some { s with now := s.now + ms }
  | .midiReset => some { s with generation := s.generation + 1 }
  | .request source => some (s.request source)
  | .begin source data deadline critical =>
    let frame : TimedRtpFrame :=
      ⟨0, critical, ⟨s.generation, source, data⟩, deadline, s.generation⟩
    some { s with listeners := s.listeners ++ [⟨frame, false⟩] }
  | .stamp i =>
    match s.listeners[i]? with
    | some ⟨frame, false⟩ =>
      let frame := { frame with sourceEpoch := s.epochs frame.frame.source }
      some { s with listeners := s.listeners.set i ⟨frame, true⟩ }
    | _ => none
  | .send i room =>
    match s.listeners[i]? with
    | some ⟨frame, true⟩ =>
      let s := { s with listeners := s.listeners.eraseIdx i }
      some <|
        if room then { s with queue := s.queue ++ [frame] }
        else if frame.critical then { s with generation := s.generation + 1 }
        else s
    | _ => none
  | .take faults =>
    if s.pc = .faults ∧ faults.Perm (requests s.faults) then
      some { s with faults := ∅, pc := .recover faults }
    else none
  | .turn => s.turn
  | .receive =>
    match s.pc, s.queue with
    | .wait _, e :: queue =>
      some { s with queue, received := s.received ++ [e], pc := .received e 0 }
    | _, _ => none
  | .wake =>
    match s.pc with
    | .wait wake => if wake ≤ s.now then some { s with pc := .top } else none
    | _ => none
  | .stop faults =>
    match s.pc with
    | .wait _ =>
      if faults.Perm (requests s.faults) then
        some { s with faults := ∅, final := some s.epochs, pc := .flush faults }
      else none
    | _ => none

def start (generation : Nat) : St where
  generation := generation
  now := 0
  epochs := fun _ => 0
  faults := ∅
  queue := []
  listeners := []
  pc := .start
  cutoffs := fun _ => 0
  pending := .empty
  seen := 0
  log := []
  received := []
  final := none

def system : LTS St Label := .ofStep (fun s => ∃ generation, s = start generation) St.step


/-! ## What a step can do -/

/-- The requests that the task has taken and not yet answered. -/
def Pc.inHand : Pc → List Request
  | .recover left | .flush left => left
  | _ => []

/-- The frame that the task has taken and not yet admitted. -/
def Pc.handed : Pc → List TimedRtpFrame
  | .received e _ | .admitting e _ => [e]
  | _ => []

/-- Between the answers to requests and the end of the frames that are due. -/
def Pc.settling : Pc → Bool
  | .recover _ | .pop _ _ => true
  | _ => false

def Pc.ended : Pc → Bool
  | .flush _ | .stopped => true
  | _ => false

/-- The task moves on with nothing in hand. -/
structure Moves (pc pc' : Pc) : Prop where
  inHand : pc.inHand = []
  inHand' : pc'.inHand = []
  handed : pc.handed = []
  handed' : pc'.handed = []
  settling : pc'.settling = true → pc.settling = true
  ended : pc'.ended = pc.ended
  start : pc' ≠ .start

inductive Step (s : St) : St → Prop where
  | tick (ms : Nat) : Step s { s with now := s.now + ms }
  | midiReset : Step s { s with generation := s.generation + 1 }
  | request (source : String) : Step s (s.request source)
  | begin (source : String) (data : List UInt8) (deadline : Nat) (critical : Bool) : Step s
      { s with listeners := s.listeners ++
        [⟨⟨0, critical, ⟨s.generation, source, data⟩, deadline, s.generation⟩, false⟩] }
  | stamp (i : Nat) (frame : TimedRtpFrame) (hi : s.listeners[i]? = some ⟨frame, false⟩) : Step s
      { s with listeners :=
        s.listeners.set i ⟨{ frame with sourceEpoch := s.epochs frame.frame.source }, true⟩ }
  | sent (i : Nat) (frame : TimedRtpFrame) (hi : s.listeners[i]? = some ⟨frame, true⟩) : Step s
      { s with listeners := s.listeners.eraseIdx i, queue := s.queue ++ [frame] }
  | lost (i : Nat) (critical : Bool) : Step s
      { s with
        listeners := s.listeners.eraseIdx i
        generation := if critical then s.generation + 1 else s.generation }
  | start (hpc : s.pc = .start) : Step s { s with seen := s.generation, pc := .top }
  | renew (hpc : s.pc = .top) (hseen : s.generation ≠ s.seen) : Step s
      { s with
        pending := s.pending.clear, cutoffs := fun _ => 0, seen := s.generation, pc := .faults }
  | moves (pc : Pc) (h : Moves s.pc pc) : Step s { s with pc }
  | take (faults : List Request) (hpc : s.pc = .faults) (hperm : faults.Perm (requests s.faults)) :
      Step s { s with faults := ∅, pc := .recover faults }
  | recover (source : String) (cutoff : Nat) (left : List Request)
      (hpc : s.pc = .recover ((source, cutoff) :: left)) :
      Step s { s.recoverScheduledSource source cutoff with pc := .recover left }
  | outdated (n now : Nat) (e : Entry Nat TimedRtpFrame) (rest : List (Entry Nat TimedRtpFrame))
      (hpc : s.pc = .pop (n + 1) now) (he : s.pending.entries = e :: rest)
      (hold : e.item.generation ≠ s.generation) :
      Step s { s with pending := s.pending.tail, pc := .pop n now }
  | dispatch (n now : Nat) (e : Entry Nat TimedRtpFrame) (rest : List (Entry Nat TimedRtpFrame))
      (hpc : s.pc = .pop (n + 1) now) (he : s.pending.entries = e :: rest) (hdue : e.key ≤ now)
      (hgeneration : e.item.generation = s.generation) :
      Step s { s with
        pending := s.pending.tail
        pc := .pop n now
        log := s.log ++ [.frame ⟨e, s.pending.next⟩ now s.generation] }
  | discard (e : TimedRtpFrame) (n : Nat) (hpc : s.pc = .received e n)
      (hold : e.generation ≠ s.generation ∨ e.sourceEpoch < s.cutoffs e.frame.source) :
      Step s { s with pc := skipFrame n }
  | newer (e : TimedRtpFrame) (n : Nat) (hpc : s.pc = .received e n)
      (hgeneration : e.generation = s.generation)
      (hepoch : s.cutoffs e.frame.source ≤ e.sourceEpoch) (hseen : e.generation ≠ s.seen) :
      Step s { s with pending := s.pending.clear, seen := e.generation, pc := .admitting e n }
  | pass (e : TimedRtpFrame) (n : Nat) (hpc : s.pc = .received e n)
      (hgeneration : e.generation = s.generation)
      (hepoch : s.cutoffs e.frame.source ≤ e.sourceEpoch) (hseen : e.generation = s.seen) :
      Step s { s with pc := .admitting e n }
  | refused (e : TimedRtpFrame) (n : Nat) (hpc : s.pc = .admitting e n) : Step s
      { s with
        generation := if e.critical then s.generation + 1 else s.generation
        log := s.log ++ [.refused e]
        pc := skipFrame n }
  | pushed (e : TimedRtpFrame) (n : Nat) (hpc : s.pc = .admitting e n)
      (hroom : s.pending.entries.length < limit e.critical) :
      Step s { s with pending := s.pending.push e.deadline e, pc := afterFrame n }
  | receive (e : TimedRtpFrame) (queue : List TimedRtpFrame) (n : Nat)
      (hqueue : s.queue = e :: queue) (hhanded : s.pc.handed = []) (hinHand : s.pc.inHand = [])
      (hended : s.pc.ended = false) :
      Step s { s with queue, received := s.received ++ [e], pc := .received e n }
  | flush (source : String) (cutoff : Nat) (left : List Request)
      (hpc : s.pc = .flush ((source, cutoff) :: left)) :
      Step s { s with log := s.log ++ [.reset source cutoff s.seen], pc := .flush left }
  | stop (faults : List Request) (hhanded : s.pc.handed = []) (hinHand : s.pc.inHand = [])
      (hended : s.pc.ended = false) (hperm : faults.Perm (requests s.faults)) :
      Step s { s with faults := ∅, final := some s.epochs, pc := .flush faults }

theorem stale_iff {e : TimedRtpFrame} {cutoffs : String → Nat} :
    sourceFrameIsStale e cutoffs = true ↔ e.sourceEpoch < cutoffs e.frame.source :=
  decide_eq_true_iff

/-- The moves of the task that change nothing else. -/
theorem moves_faults : Moves .top .faults :=
  ⟨rfl, rfl, rfl, rfl, (fun h => by cases h), rfl, fun h => by cases h⟩

theorem moves_pop (now : Nat) : Moves (.recover []) (.pop 256 now) :=
  ⟨rfl, rfl, rfl, rfl, fun _ => rfl, rfl, fun h => by cases h⟩

theorem moves_wait (n now wake : Nat) : Moves (.pop n now) (.wait wake) :=
  ⟨rfl, rfl, rfl, rfl, (fun h => by cases h), rfl, fun h => by cases h⟩

theorem moves_wake (wake : Nat) : Moves (.wait wake) .top :=
  ⟨rfl, rfl, rfl, rfl, (fun h => by cases h), rfl, fun h => by cases h⟩

theorem moves_drained (n : Nat) : Moves (.drain n) .top :=
  ⟨rfl, rfl, rfl, rfl, (fun h => by cases h), rfl, fun h => by cases h⟩

theorem moves_stopped : Moves (.flush []) .stopped :=
  ⟨rfl, rfl, rfl, rfl, (fun h => by cases h), rfl, fun h => by cases h⟩

theorem step_pop {s s' : St} {n now : Nat} (hpc : s.pc = .pop n now) (h : s.turn = some s') :
    Step s s' := by
  unfold St.turn at h
  rw [hpc] at h
  have hwait (wake : Nat) : Step s { s with pc := .wait wake } :=
    .moves _ (hpc ▸ moves_wait n now wake)
  cases n with
  | zero =>
    cases he : s.pending.entries with
    | nil =>
      simp only [he] at h
      exact Option.some.inj h ▸ hwait _
    | cons e rest =>
      simp only [he] at h
      exact Option.some.inj h ▸ hwait _
  | succ n =>
    cases he : s.pending.entries with
    | nil =>
      simp only [he] at h
      exact Option.some.inj h ▸ hwait _
    | cons e rest =>
      simp only [he] at h
      obtain rfl := Option.some.inj h
      split
      · exact hwait _
      · rename_i hdue
        split
        · rename_i hold
          exact .outdated n now e rest hpc he hold
        · rename_i hgeneration
          exact .dispatch n now e rest hpc he (Nat.not_lt.mp hdue) (not_not.mp hgeneration)

theorem step_received {s s' : St} {e : TimedRtpFrame} {n : Nat} (hpc : s.pc = .received e n)
    (h : s.turn = some s') : Step s s' := by
  unfold St.turn at h
  rw [hpc] at h
  obtain rfl := Option.some.inj h
  split
  · rename_i hold
    exact .discard e n hpc (hold.imp_right stale_iff.mp)
  · rename_i hcurrent
    rw [not_or, not_not, stale_iff, Nat.not_lt] at hcurrent
    split
    · rename_i hseen
      exact .newer e n hpc hcurrent.1 hcurrent.2 hseen
    · rename_i hseen
      exact .pass e n hpc hcurrent.1 hcurrent.2 (not_not.mp hseen)

theorem step_admitting {s s' : St} {e : TimedRtpFrame} {n : Nat} (hpc : s.pc = .admitting e n)
    (h : s.turn = some s') : Step s s' := by
  unfold St.turn at h
  rw [hpc] at h
  obtain rfl := Option.some.inj h
  split
  · exact .refused e n hpc
  · rename_i hroom
    exact .pushed e n hpc (Nat.not_le.mp fun hfull => hroom (.inl hfull))

theorem step_turn {s s' : St} (h : s.turn = some s') : Step s s' := by
  cases hpc : s.pc with
  | pop n now => exact step_pop hpc h
  | received e n => exact step_received hpc h
  | admitting e n => exact step_admitting hpc h
  | start =>
    rw [St.turn, hpc] at h
    exact Option.some.inj h ▸ .start hpc
  | top =>
    rw [St.turn, hpc] at h
    obtain rfl := Option.some.inj h
    split
    · rename_i hseen
      exact .renew hpc hseen
    · exact .moves _ (hpc ▸ moves_faults)
  | recover left =>
    rw [St.turn, hpc] at h
    cases left with
    | nil => exact Option.some.inj h ▸ .moves _ (hpc ▸ moves_pop s.now)
    | cons r left => exact Option.some.inj h ▸ .recover r.1 r.2 left hpc
  | drain n =>
    rw [St.turn, hpc] at h
    dsimp only at h
    split at h
    · exact Option.some.inj h ▸ .moves _ (hpc ▸ moves_drained n)
    · rename_i e queue hq
      exact Option.some.inj h ▸ .receive e queue n hq (by rw [hpc]; rfl) (by rw [hpc]; rfl)
        (by rw [hpc]; rfl)
  | flush left =>
    rw [St.turn, hpc] at h
    cases left with
    | nil => exact Option.some.inj h ▸ .moves _ (hpc ▸ moves_stopped)
    | cons r left => exact Option.some.inj h ▸ .flush r.1 r.2 left hpc
  | faults | wait | stopped =>
    rw [St.turn, hpc] at h
    cases h

theorem step_cases {s s' : St} {l : Label} (h : s.step l = some s') : Step s s' := by
  cases l with
  | tick ms => exact Option.some.inj h ▸ .tick ms
  | midiReset => exact Option.some.inj h ▸ .midiReset
  | request source => exact Option.some.inj h ▸ .request source
  | begin source data deadline critical =>
    exact Option.some.inj h ▸ .begin source data deadline critical
  | turn => exact step_turn h
  | stamp i =>
    simp only [St.step] at h
    split at h
    · rename_i frame hi
      exact Option.some.inj h ▸ .stamp i frame hi
    · cases h
  | send i room =>
    simp only [St.step] at h
    split at h
    · rename_i frame hi
      obtain rfl := Option.some.inj h
      cases room with
      | true => exact .sent i frame hi
      | false =>
        cases hcritical : frame.critical with
        | true => exact .lost i true
        | false => exact .lost i false
    · cases h
  | take faults =>
    simp only [St.step] at h
    split at h
    · rename_i hpc
      exact Option.some.inj h ▸ .take faults hpc.1 hpc.2
    · cases h
  | receive =>
    simp only [St.step] at h
    split at h
    · rename_i wake e queue hpc hq
      exact Option.some.inj h ▸ .receive e queue 0 hq (by rw [hpc]; rfl) (by rw [hpc]; rfl)
        (by rw [hpc]; rfl)
    · cases h
  | wake =>
    simp only [St.step] at h
    split at h
    · rename_i wake hpc
      split at h
      · exact Option.some.inj h ▸ .moves _ (hpc ▸ moves_wake wake)
      · cases h
    · cases h
  | stop faults =>
    simp only [St.step] at h
    split at h
    · rename_i wake hpc
      split at h
      · rename_i hperm
        exact Option.some.inj h ▸ .stop faults (by rw [hpc]; rfl) (by rw [hpc]; rfl)
          (by rw [hpc]; rfl) hperm
      · cases h
    · cases h

end RtpOscMidi.L5.RtpScheduler
