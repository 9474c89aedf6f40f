import RtpOscMidi.Core.LTS
import RtpOscMidi.Core.Lists
import RtpOscMidi.L1Encoding.MidiMessage
import RtpOscMidi.L2Machine.MidiQueue

/-!
# The RTP output

`RtpOutputRoute::send` queues frames for the task `run` while thru is enabled;
disabling it and a release that cannot be queued advance the route generation
of the queue, a reset advances the MIDI generation. The task transmits a frame
only when its two stamps are the generations it has handled and they are still
the current ones; when a generation has moved it sends a panic first, if it has
transmitted anything since the last one, and again until the panic goes out.

A step is one access of `send`, `set_thru_enabled` or the task to what they
share; a frame and a panic go out in one step, and whether they do is left to
the run (`result`), as is whether the queue takes a frame (`Admission`). One
server is followed, so the route holds its sender or not. `wire` records what
the task sends; `shut` that thru has been disabled while the route held the
sender, and not been enabled since.
-/
namespace RtpOscMidi.L5.RtpOutput

open Core L1.MidiMessage L2.MidiQueue

/-- mirrors src-tauri/src/rtp/rtp_output.rs:21-25 -/
structure OutgoingFrame where
  frame : MidiFrame
  generation : Nat
  routeGeneration : Nat
  deriving DecidableEq, Repr

/-- The stamps, in the order of `generation_action`. -/
def OutgoingFrame.stamp (f : OutgoingFrame) : Nat × Nat := (f.generation, f.routeGeneration)

/-- mirrors src-tauri/src/rtp/rtp_output.rs:53-55 -/
def isRtp (f : MidiFrame) : Bool := "RTP:".toList.isPrefixOf f.source.toList

/-- Where a call of `send` stands.
mirrors src-tauri/src/rtp/rtp_output.rs:52-86 -/
inductive SendPc where
  | lock
  | enabled
  | sender
  | copy
  | stamp
  | trySend (routeGeneration : Nat)
  | requestReset
  | unlock
  | done
  deriving DecidableEq, Repr

/-- Where a call of `set_thru_enabled` stands; `requested`: it has asked for a
reset.
mirrors src-tauri/src/rtp/rtp_output.rs:40-48 -/
inductive ThruPc where
  | lock
  | read
  | sender
  | requestReset
  | store (requested : Bool)
  | unlock
  | done
  deriving DecidableEq, Repr

inductive Op where
  | send (frame : MidiFrame) (pc : SendPc)
  | setThru (enabled : Bool) (pc : ThruPc)
  deriving DecidableEq, Repr

/-- Where the task stands. -/
inductive Pc where
  | start
  | startRoute
  | checkGeneration
  | checkRoute
  | observeRoute
  | observeGeneration
  | branch
  | panicking
  | panicFailed
  | select
  | taken (f : OutgoingFrame)
  /-- the MIDI generation is read; before the route generation -/
  | compared (f : OutgoingFrame) (generation : Nat)
  | ready (f : OutgoingFrame)
  | sending
  | sendFailed
  | stopping
  | done
  deriving DecidableEq, Repr

/-- mirrors src-tauri/src/rtp/rtp_output.rs:94-100 -/
structure Task where
  pc : Pc
  generation : Nat
  routeGeneration : Nat
  pending : Option OutgoingFrame
  used : Bool
  resetPending : Bool
  deriving DecidableEq, Repr

def Task.handled (t : Task) : Nat × Nat := (t.generation, t.routeGeneration)

/-- What the task sends: a frame, or a panic for the generations it handles. -/
inductive Event where
  | frame (f : OutgoingFrame)
  | panic (handled : Nat × Nat) (ok : Bool)
  deriving DecidableEq, Repr

structure St where
  /-- `MIDI_RESET_GENERATION` -/
  generation : Nat
  /-- `recovery().generation` of the queue -/
  routeGeneration : Nat
  enabled : Bool
  /-- the call that holds the lock of `enabled` -/
  lock : Option Nat
  /-- the route holds the sender -/
  sender : Bool
  queue : List OutgoingFrame
  /-- every sender of the queue is gone -/
  closed : Bool
  stopSent : Bool
  ops : List Op
  task : Task
  wire : List Event
  shut : Bool
  deriving DecidableEq, Repr

def init : St :=
  ⟨0, 0, true, none, false, [], false, false, [], ⟨.start, 0, 0, none, false, false⟩, [], false⟩

def St.setOp (s : St) (i : Nat) (o : Op) : St := { s with ops := s.ops.set i o }

/-- `ok`: the frame can be copied, the queue takes it.
mirrors src-tauri/src/rtp/rtp_output.rs:52-86 -/
def sendStep (s : St) (i : Nat) (f : MidiFrame) (ok : Bool) : SendPc → Option St
  | .lock =>
    if s.lock = none then some { s.setOp i (.send f .enabled) with lock := some i } else none
  | .enabled => some (s.setOp i (.send f (if s.enabled then .sender else .unlock)))
  | .sender => some (s.setOp i (.send f (if s.sender then .copy else .unlock)))
  | .copy =>
    some (s.setOp i (.send f (
      if ok then .stamp
      else if isCriticalReleaseMessage f.data then .requestReset
      else .unlock)))
  | .stamp => some (s.setOp i (.send f (.trySend s.routeGeneration)))
  | .trySend r =>
    if ok then
      some { s.setOp i (.send f .unlock) with queue := s.queue ++ [⟨f, f.generation, r⟩] }
    else
      some (s.setOp i (.send f (
        if isCriticalReleaseMessage f.data then .requestReset else .unlock)))
  | .requestReset =>
    some { s.setOp i (.send f .unlock) with routeGeneration := s.routeGeneration + 1 }
  | .unlock => some { s.setOp i (.send f .done) with lock := none }
  | .done => none

/-- mirrors src-tauri/src/rtp/rtp_output.rs:40-48 -/
def thruStep (s : St) (i : Nat) (enabled : Bool) : ThruPc → Option St
  | .lock =>
    if s.lock = none then some { s.setOp i (.setThru enabled .read) with lock := some i } else none
  | .read =>
    some (s.setOp i (.setThru enabled (if s.enabled ∧ ¬enabled then .sender else .store false)))
  | .sender => some (s.setOp i (.setThru enabled (if s.sender then .requestReset else .store false)))
  | .requestReset =>
    some { s.setOp i (.setThru enabled (.store true)) with
      routeGeneration := s.routeGeneration + 1 }
  | .store requested =>
    some { s.setOp i (.setThru enabled .unlock) with
      enabled, shut := !enabled && (s.shut || requested) }
  | .unlock => some { s.setOp i (.setThru enabled .done) with lock := none }
  | .done => none

/-- How the task goes on. -/
inductive Choice where
  | next
  /-- a branch of `select!` -/
  | stop | tick | frame | hungUp
  /-- how a transmission ends -/
  | result (ok : Bool)
  deriving DecidableEq, Repr

def St.setTask (s : St) (t : Task) : St := { s with task := t }

/-- mirrors src-tauri/src/rtp/rtp_output.rs:89-146 -/
def taskStep (s : St) (c : Choice) : Option St :=
  let t := s.task
  match t.pc, c with
  | .start, .next => some (s.setTask { t with generation := s.generation, pc := .startRoute })
  | .startRoute, .next =>
    some (s.setTask { t with routeGeneration := s.routeGeneration, pc := .checkGeneration })
  | .checkGeneration, .next =>
    some (s.setTask { t with pc := if t.generation ≠ s.generation then .observeRoute else .checkRoute })
  | .checkRoute, .next =>
    some (s.setTask { t with
      pc := if t.routeGeneration ≠ s.routeGeneration then .observeRoute else .branch })
  | .observeRoute, .next =>
    some (s.setTask { t with routeGeneration := s.routeGeneration, pc := .observeGeneration })
  | .observeGeneration, .next =>
    some (s.setTask { t with
      generation := s.generation, resetPending := t.resetPending || t.used, pc := .branch })
  | .branch, .next =>
    some (s.setTask { t with pc := if t.resetPending then .panicking else .select })
  | .panicking, .result ok =>
    some { s.setTask (if ok then { t with used := false, resetPending := false, pc := .select }
        else { t with pc := .panicFailed }) with
      wire := s.wire ++ [.panic t.handled ok] }
  | .panicFailed, .stop => if s.stopSent then some (s.setTask { t with pc := .stopping }) else none
  | .panicFailed, .tick =>
    if s.stopSent then none else some (s.setTask { t with pc := .checkGeneration })
  -- `biased`: the other branches run only while no stop has come
  | .select, .stop => if s.stopSent then some (s.setTask { t with pc := .stopping }) else none
  | .select, .tick =>
    if s.stopSent then none else some (s.setTask { t with pc := .checkGeneration })
  | .select, .frame =>
    if s.stopSent then none
    else match t.pending, s.queue with
      | some f, _ => some (s.setTask { t with pending := none, pc := .taken f })
      | none, f :: queue => some { s.setTask { t with pc := .taken f } with queue }
      | none, [] => none
  | .select, .hungUp =>
    if ¬s.stopSent ∧ t.pending = none ∧ s.queue = [] ∧ s.closed then
      some (s.setTask { t with pc := .stopping })
    else none
  | .taken f, .next => some (s.setTask { t with pc := .compared f s.generation })
  | .compared f generation, .next =>
    match generationAction f.stamp t.handled (generation, s.routeGeneration) with
    | .discard => some (s.setTask { t with pc := .checkGeneration })
    | .defer => some (s.setTask { t with pending := some f, pc := .checkGeneration })
    | .ready => some (s.setTask { t with pc := .ready f })
  | .ready f, .next =>
    some { s.setTask { t with used := true, pc := .sending } with wire := s.wire ++ [.frame f] }
  | .sending, .result ok =>
    some (s.setTask { t with pc := if ok then .checkGeneration else .sendFailed })
  | .sendFailed, .next =>
    some { s.setTask { t with pc := .checkGeneration } with
      routeGeneration := s.routeGeneration + 1 }
  | .stopping, .result ok =>
    if t.used then
      some { s.setTask { t with pc := .done } with wire := s.wire ++ [.panic t.handled ok] }
    else some (s.setTask { t with pc := .done })
  | _, _ => none

inductive Lbl where
  | submit (f : MidiFrame)
  | setThru (enabled : Bool)
  | op (i : Nat) (ok : Bool)
  /-- `RtpOutputRoute::set` with the sender of this server, or without -/
  | setRoute (sender : Bool)
  /-- the MIDI generation is advanced -/
  | reset
  | stop
  | hangUp
  | task (c : Choice)
  deriving DecidableEq, Repr

def step (s : St) : Lbl → Option St
  | .submit f => some { s with ops := s.ops ++ [.send f (if isRtp f then .done else .lock)] }
  | .setThru enabled => some { s with ops := s.ops ++ [.setThru enabled .lock] }
  | .op i ok => s.ops[i]?.bind fun
    | .send f pc => sendStep s i f ok pc
    | .setThru enabled pc => thruStep s i enabled pc
  | .setRoute sender => some { s with sender }
  | .reset => some { s with generation := s.generation + 1 }
  | .stop => some { s with stopSent := true }
  | .hangUp => some { s with closed := true }
  | .task c => taskStep s c

def system : LTS St Lbl := LTS.ofStep (· = init) step

/-! ## What the wire says -/

def Event.isPanic : Event → Bool
  | .panic _ _ => true
  | .frame _ => false

def Event.succeeded : Event → Bool
  | .panic _ ok => ok
  | .frame _ => false

/-- The frames on the wire after the last event that meets `p`. -/
def framesSince (p : Event → Bool) (w : List Event) : List OutgoingFrame :=
  w.foldl (fun fs e => if p e then [] else match e with
    | .frame f => fs ++ [f]
    | .panic _ _ => fs) []

/-- The frames that no panic has answered yet. -/
def unreleased (w : List Event) : List OutgoingFrame := framesSince Event.succeeded w

/-- The frames after which no panic has been tried. -/
def unanswered (w : List Event) : List OutgoingFrame := framesSince Event.isPanic w

theorem framesSince_concat (p : Event → Bool) (w : List Event) (e : Event) :
    framesSince p (w ++ [e]) = if p e then [] else match e with
      | .frame f => framesSince p w ++ [f]
      | .panic _ _ => framesSince p w := by
  simp only [framesSince, List.foldl_append, List.foldl_cons, List.foldl_nil]

theorem unreleased_frame (w : List Event) (f : OutgoingFrame) :
    unreleased (w ++ [.frame f]) = unreleased w ++ [f] := by
  rw [unreleased, framesSince_concat]
  rfl

theorem unreleased_panic (w : List Event) (g : Nat × Nat) (ok : Bool) :
    unreleased (w ++ [.panic g ok]) = if ok then [] else unreleased w := by
  rw [unreleased, framesSince_concat]
  rfl

theorem unanswered_panic (w : List Event) (g : Nat × Nat) (ok : Bool) :
    unanswered (w ++ [.panic g ok]) = [] := by
  rw [unanswered, framesSince_concat]
  rfl

theorem unanswered_of_unreleased {w : List Event} (h : unreleased w = []) : unanswered w = [] := by
  induction w using List.reverseRecOn with
  | nil => rfl
  | append_singleton w e ih =>
    cases e with
    | frame f =>
      rw [unreleased_frame] at h
      simp at h
    | panic g ok => exact unanswered_panic w g ok

/-! ## What a step of the task does -/

/-- The steps that move nothing but the place of the task. -/
inductive Goes (s : St) : Pc → Pc → Prop
  | sameGeneration : s.task.generation = s.generation → Goes s .checkGeneration .checkRoute
  | newGeneration : s.task.generation ≠ s.generation → Goes s .checkGeneration .observeRoute
  | sameRoute : s.task.routeGeneration = s.routeGeneration → Goes s .checkRoute .branch
  | newRoute : s.task.routeGeneration ≠ s.routeGeneration → Goes s .checkRoute .observeRoute
  | owing : s.task.resetPending = true → Goes s .branch .panicking
  | settled : s.task.resetPending = false → Goes s .branch .select
  | stopRetry : s.stopSent = true → Goes s .panicFailed .stopping
  | retry : s.stopSent = false → Goes s .panicFailed .checkGeneration
  | stop : s.stopSent = true → Goes s .select .stopping
  | tick : s.stopSent = false → Goes s .select .checkGeneration
  | hungUp : s.stopSent = false → Goes s .select .stopping
  | compare (f : OutgoingFrame) : Goes s (.taken f) (.compared f s.generation)
  | discard (f : OutgoingFrame) (g : Nat) : Goes s (.compared f g) .checkGeneration
  | ready (f : OutgoingFrame) (g : Nat) : f.stamp = s.task.handled →
      s.task.handled = (g, s.routeGeneration) → Goes s (.compared f g) (.ready f)
  | sent : Goes s .sending .checkGeneration
  | failed : Goes s .sending .sendFailed
  | finish : s.task.used = false → Goes s .stopping .done

inductive Moves (s : St) : St → Prop
  | go (pc : Pc) : Goes s s.task.pc pc → Moves s (s.setTask { s.task with pc })
  | start : s.task.pc = .start →
      Moves s (s.setTask { s.task with generation := s.generation, pc := .startRoute })
  | startRoute : s.task.pc = .startRoute →
      Moves s (s.setTask { s.task with routeGeneration := s.routeGeneration, pc := .checkGeneration })
  | observeRoute : s.task.pc = .observeRoute →
      Moves s (s.setTask
        { s.task with routeGeneration := s.routeGeneration, pc := .observeGeneration })
  | observeGeneration : s.task.pc = .observeGeneration →
      Moves s (s.setTask { s.task with
        generation := s.generation, resetPending := s.task.resetPending || s.task.used, pc := .branch })
  | panicked : s.task.pc = .panicking →
      Moves s { s.setTask { s.task with used := false, resetPending := false, pc := .select } with
        wire := s.wire ++ [.panic s.task.handled true] }
  | panicFailed : s.task.pc = .panicking →
      Moves s { s.setTask { s.task with pc := .panicFailed } with
        wire := s.wire ++ [.panic s.task.handled false] }
  | takePending (f : OutgoingFrame) : s.task.pc = .select → s.stopSent = false →
      s.task.pending = some f → Moves s (s.setTask { s.task with pending := none, pc := .taken f })
  | takeQueue (f : OutgoingFrame) (queue : List OutgoingFrame) : s.task.pc = .select →
      s.stopSent = false → s.queue = f :: queue →
      Moves s { s.setTask { s.task with pc := .taken f } with queue }
  | defer (f : OutgoingFrame) (g : Nat) : s.task.pc = .compared f g →
      Moves s (s.setTask { s.task with pending := some f, pc := .checkGeneration })
  | transmit (f : OutgoingFrame) : s.task.pc = .ready f →
      Moves s { s.setTask { s.task with used := true, pc := .sending } with
        wire := s.wire ++ [.frame f] }
  | request : s.task.pc = .sendFailed →
      Moves s { s.setTask { s.task with pc := .checkGeneration } with
        routeGeneration := s.routeGeneration + 1 }
  | lastPanic (ok : Bool) : s.task.pc = .stopping → s.task.used = true →
      Moves s { s.setTask { s.task with pc := .done } with
        wire := s.wire ++ [.panic s.task.handled ok] }

variable {s s' : St} {i : Nat}

theorem Moves.of_goes {p pc : Pc} (hpc : s.task.pc = p) (h : Goes s p pc) :
    Moves s (s.setTask { s.task with pc }) := .go pc (hpc ▸ h)

theorem moves {c : Choice} (h : taskStep s c = some s') : Moves s s' := by
  unfold taskStep at h
  simp only at h
  split at h
  · rename_i hpc
    cases h
    exact .start hpc
  · rename_i hpc
    cases h
    exact .startRoute hpc
  · rename_i hpc
    cases h
    split
    · rename_i hne
      exact .of_goes hpc (.newGeneration hne)
    · rename_i heq
      exact .of_goes hpc (.sameGeneration (Decidable.not_not.mp heq))
  · rename_i hpc
    cases h
    split
    · rename_i hne
      exact .of_goes hpc (.newRoute hne)
    · rename_i heq
      exact .of_goes hpc (.sameRoute (Decidable.not_not.mp heq))
  · rename_i hpc
    cases h
    exact .observeRoute hpc
  · rename_i hpc
    cases h
    exact .observeGeneration hpc
  · rename_i hpc
    cases h
    split
    · rename_i hr
      exact .of_goes hpc (.owing hr)
    · rename_i hr
      exact .of_goes hpc (.settled (Bool.eq_false_iff.mpr hr))
  · rename_i ok hpc
    cases h
    cases ok with
    | true => exact .panicked hpc
    | false => exact .panicFailed hpc
  · rename_i hpc
    split at h
    · rename_i hs
      cases h
      exact .of_goes hpc (.stopRetry hs)
    · cases h
  · rename_i hpc
    split at h
    · cases h
    · rename_i hs
      cases h
      exact .of_goes hpc (.retry (Bool.eq_false_iff.mpr hs))
  · rename_i hpc
    split at h
    · rename_i hs
      cases h
      exact .of_goes hpc (.stop hs)
    · cases h
  · rename_i hpc
    split at h
    · cases h
    · rename_i hs
      cases h
      exact .of_goes hpc (.tick (Bool.eq_false_iff.mpr hs))
  · rename_i hpc
    split at h
    · cases h
    · rename_i hs
      split at h
      · rename_i f hp
        cases h
        exact .takePending f hpc (Bool.eq_false_iff.mpr hs) hp
      · rename_i f queue _ hq
        cases h
        exact .takeQueue f queue hpc (Bool.eq_false_iff.mpr hs) hq
      · cases h
  · rename_i hpc
    split at h
    · rename_i hs
      cases h
      exact .of_goes hpc (.hungUp (Bool.eq_false_iff.mpr hs.1))
    · cases h
  · rename_i f hpc
    cases h
    exact .of_goes hpc (.compare f)
  · rename_i f g hpc
    split at h
    · cases h
      exact .of_goes hpc (.discard f g)
    · cases h
      exact .defer f g hpc
    · rename_i hr
      cases h
      obtain ⟨he, hh⟩ := generationAction_ready.mp hr
      exact .of_goes hpc (.ready f g he hh)
  · rename_i f hpc
    cases h
    exact .transmit f hpc
  · rename_i ok hpc
    cases h
    cases ok with
    | true => exact .of_goes hpc .sent
    | false => exact .of_goes hpc .failed
  · rename_i hpc
    cases h
    exact .request hpc
  · rename_i ok hpc
    split at h
    · rename_i hu
      cases h
      exact .lastPanic ok hpc hu
    · rename_i hu
      cases h
      exact .of_goes hpc (.finish (Bool.eq_false_iff.mpr hu))
  · cases h

/-- What the steps of the others leave to the task. -/
structure Others (s s' : St) : Prop where
  task : s'.task = s.task
  wire : s'.wire = s.wire
  generation : s.generation ≤ s'.generation
  routeGeneration : s.routeGeneration ≤ s'.routeGeneration
  stopSent : s.stopSent = true → s'.stopSent = true

theorem others_send {f : MidiFrame} {ok : Bool} {pc : SendPc} (h : sendStep s i f ok pc = some s') :
    Others s s' := by
  have hle := Nat.le_refl s.routeGeneration
  cases pc with
  | lock =>
    simp only [sendStep] at h
    split at h
    · cases h
      exact ⟨rfl, rfl, Nat.le_refl _, hle, id⟩
    · cases h
  | trySend r =>
    simp only [sendStep] at h
    split at h
    · cases h
      exact ⟨rfl, rfl, Nat.le_refl _, hle, id⟩
    · cases h
      exact ⟨rfl, rfl, Nat.le_refl _, hle, id⟩
  | requestReset =>
    cases h
    exact ⟨rfl, rfl, Nat.le_refl _, Nat.le_succ _, id⟩
  | enabled | sender | copy | stamp | unlock =>
    cases h
    exact ⟨rfl, rfl, Nat.le_refl _, hle, id⟩
  | done => cases h

theorem others_thru {enabled : Bool} {pc : ThruPc} (h : thruStep s i enabled pc = some s') :
    Others s s' := by
  have hle := Nat.le_refl s.routeGeneration
  cases pc with
  | lock =>
    simp only [thruStep] at h
    split at h
    · cases h
      exact ⟨rfl, rfl, Nat.le_refl _, hle, id⟩
    · cases h
  | requestReset =>
    cases h
    exact ⟨rfl, rfl, Nat.le_refl _, Nat.le_succ _, id⟩
  | read | sender | store _ | unlock =>
    cases h
    exact ⟨rfl, rfl, Nat.le_refl _, hle, id⟩
  | done => cases h

def Lbl.isTask : Lbl → Bool
  | .task _ => true
  | _ => false

theorem step_cases {l : Lbl} (h : step s l = some s') :
    (l.isTask = false ∧ Others s s') ∨ (l.isTask = true ∧ Moves s s') := by
  have hle := Nat.le_refl s.routeGeneration
  cases l with
  | task c => exact .inr ⟨rfl, moves h⟩
  | op i ok =>
    obtain ⟨o, -, h⟩ := Option.bind_eq_some_iff.mp h
    cases o with
    | send f pc => exact .inl ⟨rfl, others_send h⟩
    | setThru enabled pc => exact .inl ⟨rfl, others_thru h⟩
  | reset =>
    cases h
    exact .inl ⟨rfl, rfl, rfl, Nat.le_succ _, hle, id⟩
  | stop =>
    cases h
    exact .inl ⟨rfl, rfl, rfl, Nat.le_refl _, hle, fun _ => rfl⟩
  | submit _ | setThru _ | setRoute _ | hangUp =>
    cases h
    exact .inl ⟨rfl, rfl, rfl, Nat.le_refl _, hle, id⟩

end RtpOscMidi.L5.RtpOutput
