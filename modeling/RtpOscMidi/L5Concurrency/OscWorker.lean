import RtpOscMidi.Core.LTS
import RtpOscMidi.Core.Lists
import RtpOscMidi.Core.Backoff
import RtpOscMidi.L2Machine.MidiQueue
import RtpOscMidi.L2Machine.OscOutput

/-!
# The OSC worker

One thread takes frames from the fan-out queue, follows with `OscOutputState`
what their sources hold, and sends the switches that change to an OSC target.
Other threads may move the MIDI generation, the route's generation and the
configuration between any two of its reads; it then forgets what the sources
hold and sends nothing until a reset of the target has succeeded.

A step is at most one read of shared state by the worker (what follows it up to
the next such read included), or one move of another thread. The queue may hand
out any frame. What a socket answers is part of the step: a send that returns
`Ok` is applied at the target and one that fails is not; a reset that fails has
switched off some of the switches. The end of the worker is not modelled.

`log` records what the worker did, `handled` the frames since it last forgot
the sources, `flushed` how the last flush ended.

* `osc_worker`: once a reset has succeeded, or from the start where nothing is
  on there, the target of the client follows the sources; no switch is sent
  before a reset that is due; and the retries back off.

The client of the spawn may be for another target than the one the worker
finds in its first configuration, so `osc_worker` speaks of the client's
target; they are one from the first change of the target on.
-/
namespace RtpOscMidi.L5.OscWorker

open Core Core.Backoff L1.MidiMessage L2.MidiQueue L2.OscOutput

/-! ## Retries -/

/-- Times in milliseconds.
mirrors src-tauri/src/bridge/processing.rs:774-777 -/
structure RetrySchedule where
  next : Nat
  delay : Nat
  deriving DecidableEq, Repr

/-- `reset` is this too.
mirrors src-tauri/src/bridge/processing.rs:780-785,791-793 -/
def RetrySchedule.new (now : Nat) : RetrySchedule := ⟨now, 500⟩

/-- mirrors src-tauri/src/bridge/processing.rs:787-789 -/
def RetrySchedule.ready (r : RetrySchedule) (now : Nat) : Bool := r.next ≤ now

/-- mirrors src-tauri/src/bridge/processing.rs:795-798 -/
def RetrySchedule.failed (r : RetrySchedule) (now : Nat) : RetrySchedule :=
  ⟨now + r.delay, min (r.delay * 2) 10000⟩

/-- The wait after a failure that `n` others came before. -/
def wait (n : Nat) : Nat := doubling 500 10000 n

/-- The failures since the schedule was last new are at least the wait apart. -/
structure BacksOff (r : RetrySchedule) (failures : List Nat) : Prop where
  delay : r.delay = wait failures.length
  spaced : Spaced wait r.next failures

theorem backsOff_new (now : Nat) : BacksOff (.new now) [] := ⟨rfl, spaced_nil wait now⟩

theorem BacksOff.failed {r : RetrySchedule} {failures : List Nat} {now : Nat}
    (h : BacksOff r failures) (hready : r.ready now = true) :
    BacksOff (r.failed now) (failures ++ [now]) where
  delay := by
    rw [List.length_append, List.length_singleton]
    show min (r.delay * 2) 10000 = doubling 500 10000 (failures.length + 1)
    rw [h.delay]
    exact doubling_succ 500 10000 _
  spaced := by
    have hspaced := h.spaced.failed (of_decide_eq_true hready)
    rw [← h.delay] at hspaced
    exact hspaced

/-! ## The worker -/

abbrev Target := String × Nat

/-- The part of a configuration that the worker reads; `profiles` is what
`same_profiles` compares. -/
structure Config (P : Type) where
  enabled : Bool
  targetIp : String
  targetPort : Nat
  channelFilter : Option UInt8
  profiles : P
  deriving DecidableEq, Repr

variable {P : Type}

def Config.target (config : Config P) : Target := (config.targetIp, config.targetPort)

/-- mirrors src-tauri/src/bridge/processing.rs:323-329 -/
def oscOutputRouteChanged [DecidableEq P] (previous next : Config P) : Bool :=
  previous.enabled ≠ next.enabled ∨ previous.targetIp ≠ next.targetIp ∨
    previous.targetPort ≠ next.targetPort ∨ previous.channelFilter ≠ next.channelFilter ∨
    previous.profiles ≠ next.profiles

/-- `renewed`: a generation, the route or the configuration has made the worker
forget the sources. -/
inductive Event where
  | renewed
  | target (t : Target)
  | connected (t : Target)
  | clientFailed (now : Nat)
  | suspended
  | reset (t : Target)
  | resetFailed (now : Nat)
  | switch (t : Target) (c : Call)
  deriving DecidableEq, Repr

/-- The variables that the output depends on (the client by its target), and
the targets. -/
structure Output (P : Type) where
  snapshot : Config P
  client : Option Target
  currentTarget : Target
  sustain : OscOutputState
  resetPending : Bool
  resetRetry : RetrySchedule
  clientRetry : RetrySchedule
  devices : Target → Switch → Bool
  log : List Event
  handled : List MidiFrame
  flushed : Option Bool

/-- What the sockets and the queue answer in one step. -/
structure Answers where
  connect : Bool
  reset : Bool
  off : Switch → Bool
  send : List Call → Call → Except String Unit
  frame : Option FanoutFrame

def applyCalls (device : Switch → Bool) (calls : List Call) : Switch → Bool :=
  calls.foldl (fun d c => Function.update d c.1 c.2) device

/-- What `send_reset_all` does at the target.
mirrors src-tauri/src/osc.rs:90-106 -/
def resetDevice (device : Switch → Bool) (a : Answers) : Switch → Bool := fun w =>
  if a.reset then false else device w && !a.off w

def Flushed.isOk (r : Flushed) : Bool :=
  match r.result with
  | .ok () => true
  | .error _ => false

namespace Output

/-- `flush` with the sends of the client for `t`. -/
def flushTo (o : Output P) (t : Target) (send : List Call → Call → Except String Unit) : Output P :=
  let r := flush send o.sustain
  { o with
    sustain := r.st
    devices := Function.update o.devices t (applyCalls (o.devices t) r.successes)
    log := o.log ++ r.calls.map (.switch t)
    flushed := some (Flushed.isOk r) }

/-- A release that is not sent asks for a reset of the route.
mirrors src-tauri/src/bridge/pipeline.rs:470-482 -/
def releaseFailed (send : List Call → Call → Except String Unit) (st : OscOutputState) : Bool :=
  let r := flush send st
  !Flushed.isOk r && r.calls.getLast?.any fun c => !c.2

/-- The sources after a frame. -/
def follow (o : Output P) (frame : MidiFrame) : Output P :=
  { o with sustain := observe o.sustain frame, handled := o.handled ++ [frame] }

/-- Also whether it asks for a reset of the route. `deliver_osc_ui` holds for
frames that are not a stress test's.
mirrors src-tauri/src/bridge/pipeline.rs:359-364,458-504 -/
def handleMidiFrame (o : Output P) (send : List Call → Call → Except String Unit)
    (frame : MidiFrame) : Output P × Bool :=
  if !acceptsChannel o.snapshot.channelFilter frame.data then (o, false)
  else if startsWith "StressTest" frame.source then (o, false)
  else if !o.snapshot.enabled || startsWith "OSC:" frame.source then (o, false)
  else
    let o := o.follow frame
    match o.client with
    | none => (o, false)
    | some t =>
      if o.resetPending then (o, false) else (o.flushTo t send, releaseFailed send o.sustain)

/-- The sources are forgotten, and a reset is due. -/
def renew (o : Output P) (now : Nat) : Output P :=
  { o with
    resetPending := true
    resetRetry := .new now
    sustain := o.sustain.clear
    handled := []
    log := o.log ++ [.renewed] }

/-- mirrors src-tauri/src/bridge/processing.rs:582-593 -/
def configure [DecidableEq P] (o : Output P) (now : Nat) (config : Config P) (a : Answers) :
    Output P :=
  if oscOutputRouteChanged o.snapshot config then
    let devices :=
      match o.client with
      | some t => Function.update o.devices t (resetDevice (o.devices t) a)
      | none => o.devices
    { { o with devices }.renew now with snapshot := config }
  else { o with snapshot := config }

/-- mirrors src-tauri/src/bridge/processing.rs:740-747 -/
def followTarget (o : Output P) (now : Nat) : Output P :=
  if o.currentTarget ≠ o.snapshot.target then
    { o with
      currentTarget := o.snapshot.target
      clientRetry := .new now
      log := o.log ++ [.target o.snapshot.target] }
  else o

/-- mirrors src-tauri/src/bridge/processing.rs:734-772 -/
def updateOscClient (o : Output P) (now : Nat) (a : Answers) : Output P :=
  let targetChanged : Bool := o.currentTarget ≠ o.snapshot.target
  let o := o.followTarget now
  if o.snapshot.enabled then
    if targetChanged || (o.client.isNone && o.clientRetry.ready now) then
      if a.connect then
        { o with
          client := some o.snapshot.target
          clientRetry := .new now
          log := o.log ++ [.connected o.snapshot.target] }
      else
        { o with
          client := none
          clientRetry := o.clientRetry.failed now
          log := o.log ++ [.clientFailed now] }
    else o
  else { o with client := none, clientRetry := .new now, log := o.log ++ [.suspended] }

/-- A reset has succeeded.
mirrors src-tauri/src/bridge/processing.rs:616-620 -/
def resetDone (o : Output P) (now : Nat) (t : Target) (a : Answers) : Output P :=
  { o with
    resetPending := false
    resetRetry := .new now
    sustain := o.sustain.resetSent
    devices := Function.update o.devices t (resetDevice (o.devices t) a)
    log := o.log ++ [Event.reset t] }

/-- What the sources hold is sent again.
mirrors src-tauri/src/bridge/processing.rs:616-632 -/
def resume (o : Output P) (now : Nat) (t : Target) (a : Answers) : Output P :=
  let o := (o.resetDone now t a).flushTo t a.send
  if o.flushed = some true then o
  else
    { o with
      resetPending := true
      resetRetry := o.resetRetry.failed now
      log := o.log ++ [.resetFailed now] }

/-- mirrors src-tauri/src/bridge/processing.rs:611-640 -/
def tryReset (o : Output P) (now : Nat) (a : Answers) : Output P :=
  if o.resetPending && o.resetRetry.ready now then
    if !o.snapshot.enabled then { o with resetPending := false }
    else
      match o.client with
      | none => o
      | some t =>
        if a.reset then o.resume now t a
        else
          { o with
            devices := Function.update o.devices t (resetDevice (o.devices t) a)
            resetRetry := o.resetRetry.failed now
            log := o.log ++ [.resetFailed now] }
  else o

end Output

/-- Where the worker is. `taken e n`: it has taken `e`, as the `n`th of a batch.
mirrors src-tauri/src/bridge/processing.rs:556-721 -/
inductive Pc where
  | start
  | startGeneration
  | startRoute
  | generation
  | route (generation : Nat)
  | renew (generation : Nat)
  | revision
  | load (revision : Nat)
  | client
  | reset
  | receive
  | taken (envelope : FanoutFrame) (n : Nat)
  | takenRoute (envelope : FanoutFrame) (n generation : Nat)
  | batch (n : Nat)
  | batchRoute (n : Nat)
  | batchReceive (n : Nat)
  deriving DecidableEq, Repr

structure St (P : Type) where
  config : Config P
  configRev : Nat
  midiGeneration : Nat
  recovery : Nat
  now : Nat
  pc : Pc
  cachedRev : Nat
  cachedGeneration : Nat
  routeGeneration : Nat
  pending : Option FanoutFrame
  osc : Output P

inductive Label (P : Type) where
  | tick (ms : Nat)
  | midiReset
  | routeReset
  | write (config : Config P)
  | publish
  | worker (answers : Answers)

def batchLimit : Nat := 256

/-- The turn of the batch after `n` of them, or the top of the loop. -/
def afterTurn (n : Nat) : Pc := if n + 1 < batchLimit then .batch (n + 1) else .generation

/-- A frame is taken, with the generation read before the route's.
mirrors src-tauri/src/bridge/processing.rs:645-676,691-717 -/
def St.take (s : St P) (a : Answers) (envelope : FanoutFrame) (n generation : Nat) : St P :=
  match generationAction (envelope.generation, envelope.routeGeneration)
      (s.cachedGeneration, s.routeGeneration) (generation, s.recovery) with
  | .discard => { s with pc := if n = 0 then .generation else afterTurn n }
  | .defer => { s with pending := some envelope, pc := .generation }
  | .ready =>
    let r := s.osc.handleMidiFrame a.send envelope.frame
    { s with osc := r.1, recovery := if r.2 then s.recovery + 1 else s.recovery, pc := afterTurn n }

/-- mirrors src-tauri/src/bridge/processing.rs:556-721 -/
def St.worker [DecidableEq P] (s : St P) (a : Answers) : St P :=
  match s.pc with
  | .start =>
    { s with
      osc := { s.osc with snapshot := s.config, currentTarget := s.config.target }
      pc := .startGeneration }
  | .startGeneration => { s with cachedGeneration := s.midiGeneration, pc := .startRoute }
  | .startRoute => { s with routeGeneration := s.recovery, pc := .generation }
  | .generation => { s with pc := .route s.midiGeneration }
  | .route generation =>
    if s.cachedGeneration ≠ generation ∨ s.routeGeneration ≠ s.recovery then
      { s with pc := .renew generation }
    else { s with pc := .revision }
  | .renew generation =>
    { s with
      routeGeneration := s.recovery
      cachedGeneration := generation
      osc := s.osc.renew s.now
      pc := .revision }
  | .revision =>
    { s with pc := if s.configRev = s.cachedRev then .client else .load s.configRev }
  | .load revision =>
    { s with osc := s.osc.configure s.now s.config a, cachedRev := revision, pc := .client }
  | .client => { s with osc := s.osc.updateOscClient s.now a, pc := Pc.reset }
  | .reset => { s with osc := s.osc.tryReset s.now a, pc := Pc.receive }
  | .receive =>
    match s.pending.orElse fun _ => a.frame with
    | none => { s with pc := .generation }
    | some envelope => { s with pending := none, pc := .taken envelope 0 }
  | .taken envelope n => { s with pc := .takenRoute envelope n s.midiGeneration }
  | .takenRoute envelope n generation => s.take a envelope n generation
  | .batch n =>
    { s with pc := if s.midiGeneration ≠ s.cachedGeneration then .generation else .batchRoute n }
  | .batchRoute n =>
    { s with pc := if s.recovery ≠ s.routeGeneration then .generation else .batchReceive n }
  | .batchReceive n =>
    match a.frame with
    | none => { s with pc := .generation }
    | some envelope => { s with pc := .taken envelope n }

/-- `write` and `publish` are an update of the configuration.
mirrors src-tauri/src/bridge/runtime.rs:253-260 -/
def St.step [DecidableEq P] (s : St P) : Label P → St P
  | .tick ms => { s with now := s.now + ms }
  | .midiReset => { s with midiGeneration := s.midiGeneration + 1 }
  | .routeReset => { s with recovery := s.recovery + 1 }
  | .write config => { s with config }
  | .publish => { s with configRev := s.configRev + 1 }
  | .worker a => s.worker a

/-- The worker is spawned with a client for the configuration of then; one for
another address stands in where OSC is off and there is none.
mirrors src-tauri/src/bridge/lifecycle.rs:125-139
and src-tauri/src/osc.rs:63-69 and src-tauri/src/bridge/processing.rs:556-570 -/
structure Spawned (s : St P) : Prop where
  pc : s.pc = .start
  configRev : s.configRev = 1
  cachedRev : s.cachedRev = 0
  client : s.osc.client = some s.config.target ∨
    s.config.enabled = false ∧ s.osc.client = some ("127.0.0.1", 9000)
  sustain : s.osc.sustain = .default
  pending : s.pending = none
  resetPending : s.osc.resetPending = false
  resetRetry : s.osc.resetRetry = .new s.now
  clientRetry : s.osc.clientRetry = .new s.now
  log : s.osc.log = []
  handled : s.osc.handled = []
  flushed : s.osc.flushed = none

def system (P : Type) [DecidableEq P] : LTS (St P) (Label P) where
  init := Spawned
  step s l s' := s' = s.step l

/-! ## What a flush does at the target -/

theorem applyCalls_recordAll (calls : List Call) :
    ∀ {device : Switch → Bool} {st : OscOutputState}, (∀ w, device w = st.sent w) →
      ∀ w, applyCalls device calls w = (recordAll st calls).sent w := by
  induction calls with
  | nil => exact fun h => h
  | cons c calls ih =>
    intro device st h
    refine @ih (Function.update device c.1 c.2) (st.record c.1 c.2) ?_
    intro w
    rw [sent_record, Function.update_apply, h w]

theorem isOk_iff (r : Flushed) : Flushed.isOk r = true ↔ r.result = .ok () := by
  unfold Flushed.isOk
  cases r.result with
  | ok _ => exact ⟨fun _ => rfl, fun _ => rfl⟩
  | error e => exact ⟨(fun h => by cases h), fun h => by cases h⟩

section FlushTo

variable (o : Output P) (t : Target) (send : List Call → Call → Except String Unit)

theorem flushTo_sources : (o.flushTo t send).sustain.sources = o.sustain.sources :=
  sources_flush send o.sustain

theorem flushTo_sent (h : ∀ w, o.devices t w = o.sustain.sent w) (w : Switch) :
    (o.flushTo t send).devices t w = (o.flushTo t send).sustain.sent w := by
  simp only [Output.flushTo, Function.update_self]
  rw [recorded_successes]
  exact applyCalls_recordAll _ h w

theorem flushTo_wanted (hok : (o.flushTo t send).flushed = some true) (w : Switch) :
    (o.flushTo t send).sustain.sent w = wanted (o.flushTo t send).sustain w := by
  have hresult := (isOk_iff _).mp (Option.some.inj hok)
  obtain ⟨_, _, _, hleft⟩ | ⟨e, _, _, _, herror, _⟩ := flush_spec send o.sustain
  · exact sent_of_changes_nil hleft w
  · rw [hresult] at herror
    cases herror

end FlushTo

theorem wanted_congr {st st' : OscOutputState} (h : st.sources = st'.sources) :
    wanted st = wanted st' := by
  unfold wanted
  rw [h]

/-- What is recorded as sent does not touch the sources. -/
theorem observe_congr {st st' : OscOutputState} (h : st.sources = st'.sources) (frame : MidiFrame) :
    (observe st frame).sources = (observe st' frame).sources := by
  unfold observe
  cases frame.data with
  | nil => exact h
  | cons status data =>
    simp only
    split
    · split
      · simp only [h]
      · rfl
    · split
      · exact h
      · split
        · simp only [h]
        · rw [h]
          split
          · rfl
          · rfl

/-! ## What the log says -/

def Event.barrier : Event → Bool
  | .renewed | .target _ => true
  | _ => false

/-- No reset is due, or the target has been reset since. -/
def Clean (log : List Event) (t : Target) : Prop :=
  (∀ e ∈ log, e.barrier = false) ∨ Since (· = .reset t) (·.barrier = true) log

theorem Clean.append {log more : List Event} {t : Target} (h : Clean log t)
    (hmore : ∀ e ∈ more, e.barrier = false) : Clean (log ++ more) t := by
  cases h with
  | inl hnone =>
    refine .inl fun e he => ?_
    cases List.mem_append.mp he with
    | inl he => exact hnone e he
    | inr he => exact hmore e he
  | inr hsince =>
    refine .inr (hsince.append fun e he hbarrier => ?_)
    rw [hmore e he] at hbarrier
    cases hbarrier

theorem clean_reset (log : List Event) (t : Target) : Clean (log ++ [.reset t]) t :=
  .inr (since_concat log rfl)

def Guarded (log : List Event) : Prop :=
  AtEach (fun before e => ∀ t c, e = .switch t c → Clean before t) log

theorem Guarded.concat {log : List Event} (h : Guarded log) {e : Event}
    (he : ∀ t c, e ≠ .switch t c) : Guarded (log ++ [e]) :=
  AtEach.concat h fun t c hc => absurd hc (he t c)

theorem Guarded.switches {log : List Event} {t : Target} (h : Guarded log) (hclean : Clean log t)
    (calls : List Call) : Guarded (log ++ calls.map (.switch t)) := by
  refine AtEach.append h fun xs e ys hsplit t' c he => ?_
  have hbarrier : ∀ x ∈ calls.map (Event.switch t), x.barrier = false := by
    intro x hx
    obtain ⟨c, _, rfl⟩ := List.mem_map.mp hx
    rfl
  have hmem : e ∈ calls.map (Event.switch t) := by
    rw [hsplit]
    exact List.mem_append_right _ List.mem_cons_self
  obtain ⟨c', _, hc'⟩ := List.mem_map.mp hmem
  rw [he] at hc'
  cases hc'
  refine hclean.append fun x hx => hbarrier x ?_
  rw [hsplit]
  exact List.mem_append_left _ hx

/-- The failed resets since one succeeded or became due anew. -/
def resetFailures (log : List Event) : List Nat :=
  log.foldl (fun times e =>
    match e with
    | .resetFailed now => times ++ [now]
    | .reset _ | .renewed => []
    | _ => times) []

/-- The failed clients since one succeeded, the target changed or OSC was off. -/
def clientFailures (log : List Event) : List Nat :=
  log.foldl (fun times e =>
    match e with
    | .clientFailed now => times ++ [now]
    | .connected _ | .suspended | .target _ => []
    | _ => times) []

theorem resetFailures_switches (log : List Event) (t : Target) (calls : List Call) :
    resetFailures (log ++ calls.map (.switch t)) = resetFailures log := by
  unfold resetFailures
  rw [List.foldl_append]
  generalize List.foldl _ [] log = times
  induction calls with
  | nil => rfl
  | cons c calls ih => exact ih

theorem clientFailures_switches (log : List Event) (t : Target) (calls : List Call) :
    clientFailures (log ++ calls.map (.switch t)) = clientFailures log := by
  unfold clientFailures
  rw [List.foldl_append]
  generalize List.foldl _ [] log = times
  induction calls with
  | nil => rfl
  | cons c calls ih => exact ih


/-! ## The invariant -/

/-- What holds all along, whatever the worker does. -/
structure Kept (o : Output P) : Prop where
  guarded : Guarded o.log
  sources : o.sustain.sources = (o.handled.foldl observe .default).sources
  resets : BacksOff o.resetRetry (resetFailures o.log)
  clients : BacksOff o.clientRetry (clientFailures o.log)

/-- OSC is on and no reset is due: the client for `t` can be sent to. `quiet`:
nothing was on at the target of the client that the worker started with. -/
structure Current (quiet : Prop) (o : Output P) (t : Target) : Prop where
  client : o.client = some t
  target : o.snapshot.target = o.currentTarget
  clean : Clean o.log t
  device : (quiet ∨ ∃ t', Event.reset t' ∈ o.log) → ∀ w, o.devices t w = o.sustain.sent w
  wanted : o.flushed = some true → ∀ w, o.sustain.sent w = wanted o.sustain w

def Served (quiet : Prop) (o : Output P) : Prop :=
  o.snapshot.enabled = true → o.resetPending = false → ∃ t, Current quiet o t

theorem Served.of_pending {quiet : Prop} {o : Output P} (h : o.resetPending = true) :
    Served quiet o := fun _ hno => by rw [h] at hno; cases hno

theorem Served.of_disabled {quiet : Prop} {o : Output P} (h : o.snapshot.enabled = false) :
    Served quiet o := fun hon => by rw [h] at hon; cases hon

/-! ### A frame -/

theorem reset_mem_switches {log : List Event} {t t' : Target} {calls : List Call} :
    Event.reset t' ∈ log ++ calls.map (.switch t) ↔ Event.reset t' ∈ log := by
  rw [List.mem_append]
  refine ⟨fun h => ?_, .inl⟩
  cases h with
  | inl h => exact h
  | inr h =>
    obtain ⟨c, _, hc⟩ := List.mem_map.mp h
    cases hc

theorem clean_switches {log : List Event} {t t' : Target} {calls : List Call} (h : Clean log t) :
    Clean (log ++ calls.map (.switch t')) t := by
  refine h.append fun e he => ?_
  obtain ⟨c, _, rfl⟩ := List.mem_map.mp he
  rfl

theorem Kept.flushTo {o : Output P} {t : Target} (h : Kept o) (hclean : Clean o.log t)
    (send : List Call → Call → Except String Unit) : Kept (o.flushTo t send) where
  guarded := h.guarded.switches hclean _
  sources := (flushTo_sources o t send).trans h.sources
  resets := by
    show BacksOff o.resetRetry (resetFailures (o.log ++ _))
    rw [resetFailures_switches]
    exact h.resets
  clients := by
    show BacksOff o.clientRetry (clientFailures (o.log ++ _))
    rw [clientFailures_switches]
    exact h.clients

/-- The target is at what is recorded, so it is so after the flush. -/
theorem Current.flushTo {quiet : Prop} (o : Output P) {t : Target} (hclient : o.client = some t)
    (htarget : o.snapshot.target = o.currentTarget) (hclean : Clean o.log t)
    (hdevice : (quiet ∨ ∃ t', Event.reset t' ∈ o.log) → ∀ w, o.devices t w = o.sustain.sent w)
    (send : List Call → Call → Except String Unit) : Current quiet (o.flushTo t send) t where
  client := hclient
  target := htarget
  clean := clean_switches hclean
  device hreset := by
    refine flushTo_sent o t send (hdevice ?_)
    exact hreset.imp_right fun ⟨t', ht'⟩ => ⟨t', reset_mem_switches.mp ht'⟩
  wanted := flushTo_wanted o t send

/-- The target, its client and the configuration are as they were. -/
structure SameClient (o o' : Output P) : Prop where
  client : o'.client = o.client
  snapshot : o'.snapshot = o.snapshot
  currentTarget : o'.currentTarget = o.currentTarget
  targets : ∀ t, Event.target t ∈ o'.log → Event.target t ∈ o.log

theorem SameClient.refl (o : Output P) : SameClient o o := ⟨rfl, rfl, rfl, fun _ => id⟩

theorem target_mem_switches {log : List Event} {t t' : Target} {calls : List Call}
    (h : Event.target t' ∈ log ++ calls.map (.switch t)) : Event.target t' ∈ log := by
  cases List.mem_append.mp h with
  | inl h => exact h
  | inr h =>
    obtain ⟨c, _, hc⟩ := List.mem_map.mp h
    cases hc

theorem target_mem_concat {log : List Event} {t : Target} {e : Event}
    (h : Event.target t ∈ log ++ [e]) (he : ∀ t', e ≠ .target t') : Event.target t ∈ log := by
  cases List.mem_append.mp h with
  | inl h => exact h
  | inr h => exact absurd (List.mem_singleton.mp h).symm (he t)

theorem sameClient_handleMidiFrame (o : Output P) (send : List Call → Call → Except String Unit)
    (frame : MidiFrame) : SameClient o (o.handleMidiFrame send frame).1 := by
  unfold Output.handleMidiFrame
  split
  · exact .refl o
  split
  · exact .refl o
  split
  · exact .refl o
  dsimp only
  split
  · exact ⟨rfl, rfl, rfl, fun _ => id⟩
  split
  · exact ⟨rfl, rfl, rfl, fun _ => id⟩
  · exact ⟨rfl, rfl, rfl, fun _ => target_mem_switches⟩

section Frame

variable {quiet : Prop} {o : Output P} {frame : MidiFrame}

theorem Kept.follow (h : Kept o) : Kept (o.follow frame) where
  guarded := h.guarded
  sources := by
    show _ = ((o.handled ++ [frame]).foldl observe .default).sources
    rw [List.foldl_append]
    exact observe_congr h.sources frame
  resets := h.resets
  clients := h.clients

theorem handleMidiFrame_kept (h : Kept o) (hs : Served quiet o)
    (send : List Call → Call → Except String Unit) :
    Kept (o.handleMidiFrame send frame).1 ∧ Served quiet (o.handleMidiFrame send frame).1 := by
  unfold Output.handleMidiFrame
  split
  · exact ⟨h, hs⟩
  split
  · exact ⟨h, hs⟩
  split
  · exact ⟨h, hs⟩
  · rename_i hon
    have hon : o.snapshot.enabled = true := by
      cases he : o.snapshot.enabled with
      | true => rfl
      | false => simp [he] at hon
    dsimp only
    split
    · rename_i hclient
      refine ⟨h.follow, fun _ hno => ?_⟩
      obtain ⟨t, ht⟩ := hs hon hno
      cases hclient.symm.trans ht.client
    · rename_i t hclient
      split
      · rename_i hpending
        exact ⟨h.follow, .of_pending hpending⟩
      · rename_i hno
        obtain ⟨t', ht⟩ := hs hon (Bool.eq_false_iff.mpr hno)
        obtain rfl : t = t' := Option.some.inj (hclient.symm.trans ht.client)
        have hdevice (hquiet : quiet ∨ ∃ t', Event.reset t' ∈ o.log) (w : Switch) :
            (o.follow frame).devices t w = (o.follow frame).sustain.sent w :=
          (ht.device hquiet w).trans (sent_observe o.sustain frame w).symm
        have hcurrent : Current quiet ((o.follow frame).flushTo t send) t :=
          .flushTo (o.follow frame) ht.client ht.target ht.clean hdevice send
        exact ⟨h.follow.flushTo ht.clean send, fun _ _ => ⟨t, hcurrent⟩⟩

end Frame

/-! ### Renewing and configuring -/

theorem Kept.renew {o : Output P} (h : Kept o) (now : Nat) : Kept (o.renew now) where
  guarded := h.guarded.concat fun t c he => by cases he
  sources := rfl
  resets := by
    show BacksOff _ (resetFailures (o.log ++ _))
    rw [resetFailures, List.foldl_append]
    exact backsOff_new now
  clients := by
    show BacksOff o.clientRetry (clientFailures (o.log ++ _))
    rw [clientFailures, List.foldl_append]
    exact h.clients

/-- Neither the configuration nor the targets' answers to a reset matter. -/
theorem Kept.with {o : Output P} (h : Kept o) (devices : Target → Switch → Bool)
    (config : Config P) : Kept { o with devices, snapshot := config } :=
  ⟨h.guarded, h.sources, h.resets, h.clients⟩

theorem target_eq_of_unchanged [DecidableEq P] {previous next : Config P}
    (h : oscOutputRouteChanged previous next = false) :
    next.target = previous.target ∧ next.enabled = previous.enabled := by
  simp only [oscOutputRouteChanged, decide_eq_false_iff_not, not_or, ne_eq, not_not] at h
  exact ⟨by rw [Config.target, ← h.2.1, ← h.2.2.1, Config.target], h.1.symm⟩

section Configure

variable [DecidableEq P] {quiet : Prop} {o : Output P}

theorem configure_kept (h : Kept o) (now : Nat) (config : Config P) (a : Answers) :
    Kept (o.configure now config a) := by
  unfold Output.configure
  split
  · split
    · exact ((h.with _ o.snapshot).renew now).with _ config
    · exact (h.renew now).with _ config
  · exact h.with _ config

theorem configure_served (hs : Served quiet o) (now : Nat) (config : Config P) (a : Answers) :
    Served quiet (o.configure now config a) := by
  unfold Output.configure
  split
  · exact .of_pending rfl
  · rename_i hchanged
    obtain ⟨htarget, henabled⟩ := target_eq_of_unchanged (Bool.eq_false_iff.mpr hchanged)
    intro hon hno
    obtain ⟨t, ht⟩ := hs (henabled ▸ hon) hno
    exact ⟨t, ht.client, htarget.trans ht.target, ht.clean, ht.device, ht.wanted⟩

/-- Where the target changes, a reset is due. -/
theorem configure_target (ht : o.snapshot.target = o.currentTarget) (now : Nat) (config : Config P)
    (a : Answers) : (o.configure now config a).resetPending = true ∨
      (o.configure now config a).snapshot.target = (o.configure now config a).currentTarget := by
  unfold Output.configure
  split
  · exact .inl rfl
  · rename_i hchanged
    exact .inr ((target_eq_of_unchanged (Bool.eq_false_iff.mpr hchanged)).1.trans ht)

end Configure

/-! ### The client -/

section Client

variable {quiet : Prop} {o : Output P} {now : Nat}

theorem Kept.target (h : Kept o) (t : Target) : Kept { o with
    currentTarget := t, clientRetry := .new now, log := o.log ++ [.target t] } where
  guarded := h.guarded.concat fun t c he => by cases he
  sources := h.sources
  resets := by
    rw [resetFailures, List.foldl_append]
    exact h.resets
  clients := by
    rw [clientFailures, List.foldl_append]
    exact backsOff_new now

theorem Kept.connected (h : Kept o) (t : Target) : Kept { o with
    client := some t, clientRetry := .new now, log := o.log ++ [.connected t] } where
  guarded := h.guarded.concat fun t c he => by cases he
  sources := h.sources
  resets := by
    rw [resetFailures, List.foldl_append]
    exact h.resets
  clients := by
    rw [clientFailures, List.foldl_append]
    exact backsOff_new now

theorem Kept.clientFailed (h : Kept o) (hready : o.clientRetry.ready now = true) : Kept { o with
    client := none, clientRetry := o.clientRetry.failed now,
    log := o.log ++ [.clientFailed now] } where
  guarded := h.guarded.concat fun t c he => by cases he
  sources := h.sources
  resets := by
    rw [resetFailures, List.foldl_append]
    exact h.resets
  clients := by
    rw [clientFailures, List.foldl_append]
    exact h.clients.failed hready

theorem Kept.suspended (h : Kept o) : Kept { o with
    client := none, clientRetry := .new now, log := o.log ++ [.suspended] } where
  guarded := h.guarded.concat fun t c he => by cases he
  sources := h.sources
  resets := by
    rw [resetFailures, List.foldl_append]
    exact h.resets
  clients := by
    rw [clientFailures, List.foldl_append]
    exact backsOff_new now

theorem followTarget_kept (h : Kept o) (now : Nat) : Kept (o.followTarget now) := by
  unfold Output.followTarget
  split
  · exact h.target _
  · exact h

theorem followTarget_ready (now : Nat) (h : o.currentTarget ≠ o.snapshot.target) :
    (o.followTarget now).clientRetry.ready now = true := by
  unfold Output.followTarget
  rw [if_pos h]
  exact decide_eq_true (Nat.le_refl now)

theorem updateOscClient_kept (h : Kept o) (now : Nat) (a : Answers) :
    Kept (o.updateOscClient now a) := by
  have ht := followTarget_kept h now
  unfold Output.updateOscClient
  dsimp only
  split
  · split
    · rename_i hdue
      split
      · exact ht.connected _
      · refine ht.clientFailed ?_
        rw [Bool.or_eq_true, decide_eq_true_eq, Bool.and_eq_true] at hdue
        cases hdue with
        | inl hchanged => exact followTarget_ready now hchanged
        | inr hready => exact hready.2
    · exact ht
  · exact ht.suspended

theorem followTarget_frame (o : Output P) (now : Nat) :
    (o.followTarget now).snapshot = o.snapshot ∧ (o.followTarget now).client = o.client ∧
      (o.followTarget now).resetPending = o.resetPending ∧
      (o.followTarget now).currentTarget = o.snapshot.target := by
  unfold Output.followTarget
  split
  · exact ⟨rfl, rfl, rfl, rfl⟩
  · rename_i hsame
    exact ⟨rfl, rfl, rfl, not_not.mp hsame⟩

theorem updateOscClient_frame (o : Output P) (now : Nat) (a : Answers) :
    (o.updateOscClient now a).snapshot = o.snapshot ∧
      (o.updateOscClient now a).resetPending = o.resetPending ∧
      (o.updateOscClient now a).currentTarget = o.snapshot.target := by
  obtain ⟨hs, _, hp, ht⟩ := followTarget_frame o now
  unfold Output.updateOscClient
  dsimp only
  split
  · split
    · split
      · exact ⟨hs, hp, ht⟩
      · exact ⟨hs, hp, ht⟩
    · exact ⟨hs, hp, ht⟩
  · exact ⟨hs, hp, ht⟩

/-- With the target as it was and a client, nothing changes. -/
theorem updateOscClient_current {t : Target} (hon : o.snapshot.enabled = true)
    (hcurrent : Current quiet o t) (now : Nat) (a : Answers) : o.updateOscClient now a = o := by
  have hsame : ¬o.currentTarget ≠ o.snapshot.target := not_not.mpr hcurrent.target.symm
  unfold Output.updateOscClient Output.followTarget
  simp [hsame, hon, hcurrent.client]

theorem updateOscClient_served (hs : Served quiet o) (now : Nat) (a : Answers) :
    Served quiet (o.updateOscClient now a) := by
  intro hon hno
  obtain ⟨hsnapshot, hpending, -⟩ := updateOscClient_frame o now a
  rw [hsnapshot] at hon
  rw [hpending] at hno
  obtain ⟨t, ht⟩ := hs hon hno
  rw [updateOscClient_current hon ht]
  exact ⟨t, ht⟩

end Client

/-! ### The reset -/

section Reset

variable {quiet : Prop} {o : Output P} {now : Nat}

theorem Kept.resetFailed (h : Kept o) (hready : o.resetRetry.ready now = true)
    (devices : Target → Switch → Bool) (resetPending : Bool) : Kept { o with
    devices, resetPending, resetRetry := o.resetRetry.failed now,
    log := o.log ++ [.resetFailed now] } where
  guarded := h.guarded.concat fun t c he => by cases he
  sources := h.sources
  resets := by
    rw [resetFailures, List.foldl_append]
    exact h.resets.failed hready
  clients := by
    rw [clientFailures, List.foldl_append]
    exact h.clients

theorem Kept.reset (h : Kept o) (now : Nat) (t : Target) (a : Answers) :
    Kept (o.resetDone now t a) where
  guarded := h.guarded.concat fun t c he => by cases he
  sources := h.sources
  resets := by
    show BacksOff _ (resetFailures (o.log ++ _))
    rw [resetFailures, List.foldl_append]
    exact backsOff_new now
  clients := by
    show BacksOff _ (clientFailures (o.log ++ _))
    rw [clientFailures, List.foldl_append]
    exact h.clients

theorem resume_kept (h : Kept o) (now : Nat) (t : Target) (a : Answers) :
    Kept (o.resume now t a) := by
  have hflushed := (h.reset now t a).flushTo (clean_reset o.log t) a.send
  unfold Output.resume
  dsimp only
  split
  · exact hflushed
  · exact hflushed.resetFailed (decide_eq_true (Nat.le_refl now)) _ true

theorem resume_served (htarget : o.snapshot.target = o.currentTarget) (now : Nat) {t : Target}
    (hclient : o.client = some t) {a : Answers} (hreset : a.reset = true) :
    Served quiet (o.resume now t a) := by
  unfold Output.resume
  dsimp only
  split
  · have hoff (w : Switch) : (o.resetDone now t a).devices t w =
        (o.resetDone now t a).sustain.sent w := by
      simp only [Output.resetDone, Function.update_self]
      rw [sent_resetSent, resetDevice, if_pos hreset]
    exact fun _ _ => ⟨t, .flushTo (o.resetDone now t a) hclient htarget (clean_reset o.log t)
      (fun _ => hoff) a.send⟩
  · exact .of_pending rfl

theorem resume_frame (o : Output P) (now : Nat) (t : Target) (a : Answers) :
    SameClient o (o.resume now t a) := by
  have htargets (t' : Target)
      (h : Event.target t' ∈ ((o.resetDone now t a).flushTo t a.send).log) :
      Event.target t' ∈ o.log :=
    target_mem_concat (target_mem_switches h) fun _ he => by cases he
  unfold Output.resume
  dsimp only
  split
  · exact ⟨rfl, rfl, rfl, htargets⟩
  · exact ⟨rfl, rfl, rfl, fun t' h => htargets t' (target_mem_concat h fun _ he => by cases he)⟩

theorem tryReset_kept (h : Kept o) (now : Nat) (a : Answers) : Kept (o.tryReset now a) := by
  unfold Output.tryReset
  split
  · rename_i hdue
    have hready := (Bool.and_eq_true_iff.mp hdue).2
    split
    · exact ⟨h.guarded, h.sources, h.resets, h.clients⟩
    · split
      · exact h
      · split
        · exact resume_kept h now _ a
        · exact h.resetFailed hready _ o.resetPending
  · exact h

theorem tryReset_served (hs : Served quiet o) (htarget : o.snapshot.target = o.currentTarget)
    (now : Nat) (a : Answers) : Served quiet (o.tryReset now a) := by
  unfold Output.tryReset
  split
  · rename_i hdue
    have hpending := (Bool.and_eq_true_iff.mp hdue).1
    split
    · rename_i hoff
      exact .of_disabled ((Bool.not_eq_true' _).mp hoff)
    · split
      · exact hs
      · rename_i t hclient
        split
        · rename_i hreset
          exact resume_served htarget now hclient hreset
        · exact .of_pending hpending
  · exact hs

theorem tryReset_frame (o : Output P) (now : Nat) (a : Answers) :
    SameClient o (o.tryReset now a) := by
  unfold Output.tryReset
  split
  · split
    · exact ⟨rfl, rfl, rfl, fun _ => id⟩
    · split
      · exact .refl o
      · split
        · exact resume_frame o now _ a
        · exact ⟨rfl, rfl, rfl, fun _ h => target_mem_concat h fun _ he => by cases he⟩
  · exact .refl o

end Reset

/-! ### The attempts -/

theorem resume_log (o : Output P) (now : Nat) (t : Target) (a : Answers) :
    ∃ rest, (o.resume now t a).log = o.log ++ Event.reset t :: rest := by
  have hflushed : ((o.resetDone now t a).flushTo t a.send).log =
      o.log ++ Event.reset t :: (flush a.send o.sustain.resetSent).calls.map (.switch t) :=
    List.append_assoc o.log [Event.reset t] _
  unfold Output.resume
  dsimp only
  split
  · exact ⟨_, hflushed⟩
  · exact ⟨_, (congrArg (· ++ [Event.resetFailed now]) hflushed).trans (List.append_assoc ..)⟩

/-- A reset that is due is tried. -/
theorem tryReset_tried {o : Output P} {now : Nat} {t : Target} (hpending : o.resetPending = true)
    (hready : o.resetRetry.ready now = true) (hon : o.snapshot.enabled = true)
    (hclient : o.client = some t) (a : Answers) :
    ∃ more, (o.tryReset now a).log = o.log ++ more ∧
      (Event.reset t ∈ more ∨ Event.resetFailed now ∈ more) := by
  unfold Output.tryReset
  rw [hpending, hready, hon, hclient]
  simp only [Bool.and_self, if_true, Bool.not_true, Bool.false_eq_true, if_false]
  split
  · obtain ⟨rest, hrest⟩ := resume_log o now t a
    exact ⟨_, hrest, .inl List.mem_cons_self⟩
  · exact ⟨_, rfl, .inr List.mem_cons_self⟩

/-- A client that is missing is made. -/
theorem updateOscClient_tried {o : Output P} {now : Nat} (hon : o.snapshot.enabled = true)
    (htarget : o.snapshot.target = o.currentTarget) (hnone : o.client = none)
    (hready : o.clientRetry.ready now = true) (a : Answers) :
    (o.updateOscClient now a).log = o.log ++
      [if a.connect then .connected o.currentTarget else .clientFailed now] := by
  have hsame : o.followTarget now = o := by
    unfold Output.followTarget
    rw [if_neg (not_not.mpr htarget.symm)]
  unfold Output.updateOscClient
  rw [hsame, ← htarget]
  cases a.connect with
  | true => simp [hon, hnone, hready]
  | false => simp [hon, hnone, hready]

/-! ## The runs -/

/-- Once the target has changed, the client is for the current one. -/
def Matched (o : Output P) : Prop :=
  ∀ t, Event.target t ∈ o.log → ∀ t', o.client = some t' → t' = o.currentTarget

theorem Matched.mono {o o' : Output P} (h : Matched o) (hclient : o'.client = o.client)
    (hcurrent : o'.currentTarget = o.currentTarget)
    (htargets : ∀ t, Event.target t ∈ o'.log → Event.target t ∈ o.log) : Matched o' :=
  fun t ht t' ht' => (h t (htargets t ht) t' (hclient ▸ ht')).trans hcurrent.symm

theorem SameClient.matched {o o' : Output P} (h : SameClient o o') (hm : Matched o) : Matched o' :=
  hm.mono h.client h.currentTarget h.targets

theorem configure_matched [DecidableEq P] {o : Output P} (h : Matched o) (now : Nat)
    (config : Config P) (a : Answers) : Matched (o.configure now config a) := by
  unfold Output.configure
  split
  · exact h.mono rfl rfl fun t ht => target_mem_concat ht fun _ he => by cases he
  · exact h.mono rfl rfl fun _ => id

theorem updateOscClient_matched {o : Output P} (h : Matched o) (now : Nat) (a : Answers) :
    Matched (o.updateOscClient now a) := by
  obtain ⟨hsnapshot, hclient, -, hcurrent⟩ := followTarget_frame o now
  unfold Output.updateOscClient
  dsimp only
  split
  · split
    · split
      · intro t _ t' ht'
        obtain rfl := Option.some.inj ht'
        exact (congrArg Config.target hsnapshot).trans hcurrent.symm
      · intro t _ t' ht'
        cases ht'
    · rename_i hno
      rw [Bool.or_eq_true, not_or, decide_eq_true_eq, not_not] at hno
      unfold Output.followTarget
      rw [if_neg (not_not.mpr hno.1)]
      exact h
  · intro t _ t' ht'
    cases ht'

/-- What the worker starts with. -/
structure Fresh (quiet : Prop) (o : Output P) : Prop where
  client : ∃ t, o.client = some t ∧ (quiet → ∀ w, o.devices t w = false)
  sent : ∀ w, o.sustain.sent w = false
  log : o.log = []
  flushed : o.flushed = none

structure Inv (quiet : Prop) (s : St P) : Prop where
  kept : Kept s.osc
  matched : Matched s.osc
  fresh : s.pc = .start → Fresh quiet s.osc
  served : s.pc ≠ .start → Served quiet s.osc
  target : s.pc ≠ .start → s.osc.snapshot.target = s.osc.currentTarget ∨
    s.pc = .client ∧ s.osc.resetPending = true

/-- The worker moves on, with its output as it is. -/
theorem Inv.goto {quiet : Prop} {s s' : St P} (h : Inv quiet s) (hosc : s'.osc = s.osc)
    (hstart : s.pc ≠ .start) (hclient : s.pc ≠ .client) (hstart' : s'.pc ≠ .start) :
    Inv quiet s' := by
  refine ⟨hosc ▸ h.kept, hosc ▸ h.matched, fun hpc => absurd hpc hstart',
    fun _ => hosc ▸ h.served hstart, fun _ => ?_⟩
  cases h.target hstart with
  | inl ht => exact .inl (hosc ▸ ht)
  | inr hat => exact absurd hat.1 hclient

/-- Another thread moves. -/
theorem Inv.env {quiet : Prop} {s s' : St P} (h : Inv quiet s) (hosc : s'.osc = s.osc)
    (hpc : s'.pc = s.pc) : Inv quiet s' := by
  refine ⟨hosc ▸ h.kept, hosc ▸ h.matched, ?_, ?_, ?_⟩
  · rw [hpc, hosc]; exact h.fresh
  · rw [hpc, hosc]; exact h.served
  · rw [hpc, hosc]; exact h.target

theorem Inv.output {quiet : Prop} {s' : St P} (hkept : Kept s'.osc) (hmatched : Matched s'.osc)
    (hstart : s'.pc ≠ .start) (hserved : Served quiet s'.osc)
    (htarget : s'.osc.snapshot.target = s'.osc.currentTarget) : Inv quiet s' :=
  ⟨hkept, hmatched, fun hpc => absurd hpc hstart, fun _ => hserved, fun _ => .inl htarget⟩


section Worker

variable {quiet : Prop} {s : St P}

theorem afterTurn_ne (n : Nat) : afterTurn n ≠ .start := by
  unfold afterTurn
  split
  · exact fun he => by cases he
  · exact fun he => by cases he

theorem inv_take (h : Inv quiet s) {envelope : FanoutFrame} {n generation : Nat}
    (hpc : s.pc = .takenRoute envelope n generation) (a : Answers) :
    Inv quiet (s.take a envelope n generation) := by
  have hstart : s.pc ≠ .start := fun he => by rw [hpc] at he; cases he
  have hclient : s.pc ≠ .client := fun he => by rw [hpc] at he; cases he
  unfold St.take
  split
  · refine h.goto rfl hstart hclient ?_
    dsimp only
    split
    · exact fun he => by cases he
    · exact afterTurn_ne n
  · exact h.goto rfl hstart hclient fun he => by cases he
  · obtain ⟨hkept, hserved⟩ : Kept (s.osc.handleMidiFrame a.send envelope.frame).1 ∧ _ :=
      handleMidiFrame_kept h.kept (h.served hstart) a.send
    have hsame := sameClient_handleMidiFrame s.osc a.send envelope.frame
    refine .output hkept (hsame.matched h.matched) (afterTurn_ne n) hserved ?_
    cases h.target hstart with
    | inl ht =>
      show (s.osc.handleMidiFrame a.send envelope.frame).1.snapshot.target = _
      rw [hsame.snapshot, ht]
      exact hsame.currentTarget.symm
    | inr hat => exact absurd hat.1 hclient

theorem ne_of_pc {pc : Pc} (hpc : s.pc = pc) (hne : pc ≠ .start ∧ pc ≠ .client) :
    s.pc ≠ .start ∧ s.pc ≠ .client :=
  hpc ▸ hne

variable [DecidableEq P]

theorem inv_start (h : Inv quiet s) (hpc : s.pc = .start) (a : Answers) :
    Inv quiet (s.worker a) := by
  obtain ⟨⟨t, hclient, hoff⟩, hsent, hlog, hflushed⟩ := h.fresh hpc
  unfold St.worker
  rw [hpc]
  refine .output ⟨h.kept.guarded, h.kept.sources, h.kept.resets, h.kept.clients⟩
    (fun t' ht' => ?_) (fun he => by cases he) (fun _ _ => ⟨t, ?_⟩) rfl
  · rw [hlog] at ht'
    cases ht'
  refine ⟨hclient, rfl, .inl fun e he => ?_, fun hquiet w => ?_, fun hok => ?_⟩
  · rw [hlog] at he
    cases he
  · cases hquiet with
    | inl hquiet => exact (hoff hquiet w).trans (hsent w).symm
    | inr hreset =>
      obtain ⟨t', ht'⟩ := hreset
      rw [hlog] at ht'
      cases ht'
  · rw [hflushed] at hok
    cases hok

theorem inv_renew (h : Inv quiet s) {generation : Nat} (hpc : s.pc = .renew generation)
    (a : Answers) : Inv quiet (s.worker a) := by
  have htarget := h.target fun he => by rw [hpc] at he; cases he
  unfold St.worker
  rw [hpc] at htarget ⊢
  refine .output (h.kept.renew _)
    (h.matched.mono rfl rfl fun t ht => target_mem_concat ht fun _ he => by cases he)
    (fun he => by cases he) (.of_pending rfl) ?_
  cases htarget with
  | inl ht => exact ht
  | inr hat => cases hat.1

theorem inv_load (h : Inv quiet s) {revision : Nat} (hpc : s.pc = .load revision) (a : Answers) :
    Inv quiet (s.worker a) := by
  have hstart : s.pc ≠ .start := fun he => by rw [hpc] at he; cases he
  have htarget := h.target hstart
  have hserved := h.served hstart
  unfold St.worker
  rw [hpc] at htarget ⊢
  refine ⟨configure_kept h.kept .., configure_matched h.matched s.now s.config a,
    (fun he => by cases he), fun _ => configure_served hserved s.now s.config a, fun _ => ?_⟩
  cases htarget with
  | inl ht =>
    cases configure_target ht s.now s.config a with
    | inl hpending => exact .inr ⟨rfl, hpending⟩
    | inr hsame => exact .inl hsame
  | inr hat => cases hat.1

theorem inv_client (h : Inv quiet s) (hpc : s.pc = .client) (a : Answers) :
    Inv quiet (s.worker a) := by
  have hserved := h.served fun he => by rw [hpc] at he; cases he
  obtain ⟨hsnapshot, -, htarget⟩ := updateOscClient_frame s.osc s.now a
  unfold St.worker
  rw [hpc]
  refine .output (updateOscClient_kept h.kept ..) (updateOscClient_matched h.matched s.now a)
    (fun he => by cases he) (updateOscClient_served hserved s.now a) ?_
  rw [hsnapshot, htarget]

theorem inv_reset (h : Inv quiet s) (hpc : s.pc = .reset) (a : Answers) :
    Inv quiet (s.worker a) := by
  have hstart : s.pc ≠ .start := fun he => by rw [hpc] at he; cases he
  have htarget := h.target hstart
  have hserved := h.served hstart
  have hsame := tryReset_frame s.osc s.now a
  unfold St.worker
  rw [hpc] at htarget ⊢
  cases htarget with
  | inr hat => cases hat.1
  | inl ht =>
    refine .output (tryReset_kept h.kept ..) (hsame.matched h.matched) (fun he => by cases he)
      (tryReset_served hserved ht s.now a) ?_
    rw [hsame.snapshot, hsame.currentTarget]
    exact ht

theorem inv_worker (h : Inv quiet s) (a : Answers) : Inv quiet (s.worker a) := by
  cases hpc : s.pc with
  | start => exact inv_start h hpc a
  | renew generation => exact inv_renew h hpc a
  | load revision => exact inv_load h hpc a
  | client => exact inv_client h hpc a
  | reset => exact inv_reset h hpc a
  | takenRoute envelope n generation =>
    unfold St.worker
    rw [hpc]
    exact inv_take h hpc a
  | startGeneration | startRoute | generation | taken envelope n =>
    obtain ⟨hstart, hclient⟩ := ne_of_pc hpc ⟨(fun he => by cases he), fun he => by cases he⟩
    unfold St.worker
    rw [hpc]
    exact h.goto rfl hstart hclient fun he => by cases he
  | route generation | receive | batchReceive n =>
    obtain ⟨hstart, hclient⟩ := ne_of_pc hpc ⟨(fun he => by cases he), fun he => by cases he⟩
    unfold St.worker
    rw [hpc]
    dsimp only
    split
    · exact h.goto rfl hstart hclient fun he => by cases he
    · exact h.goto rfl hstart hclient fun he => by cases he
  | revision | batch n | batchRoute n =>
    obtain ⟨hstart, hclient⟩ := ne_of_pc hpc ⟨(fun he => by cases he), fun he => by cases he⟩
    unfold St.worker
    rw [hpc]
    refine h.goto rfl hstart hclient ?_
    dsimp only
    split
    · exact fun he => by cases he
    · exact fun he => by cases he

end Worker

/-- Nothing is on at the target of the client that the worker starts with. -/
def Quiet (s : St P) : Prop := ∀ t, s.osc.client = some t → ∀ w, s.osc.devices t w = false

theorem inv_spawned {s : St P} (h : Spawned s) : Inv (Quiet s) s where
  kept := by
    refine ⟨?_, ?_, ?_, ?_⟩
    · rw [h.log]
      exact atEach_nil _
    · rw [h.sustain, h.handled]
      rfl
    · rw [h.resetRetry, h.log]
      exact backsOff_new _
    · rw [h.clientRetry, h.log]
      exact backsOff_new _
  fresh _ := by
    refine ⟨?_, fun w => ?_, h.log, h.flushed⟩
    · cases h.client with
      | inl hclient => exact ⟨_, hclient, fun hquiet => hquiet _ hclient⟩
      | inr hclient => exact ⟨_, hclient.2, fun hquiet => hquiet _ hclient.2⟩
    · rw [h.sustain]
      cases w with
      | note i => exact BitVec.getLsbD_zero
      | sustain => rfl
  matched t ht := by
    rw [h.log] at ht
    cases ht
  served hpc := absurd h.pc hpc
  target hpc := absurd h.pc hpc

variable [DecidableEq P]

theorem inv_run {quiet : Prop} {s s' : St P} {ls : List (Label P)} (hr : (system P).Run s ls s') :
    Inv quiet s → Inv quiet s' := by
  induction hr with
  | nil => exact id
  | @cons s l s₁ _ _ hst _ ih =>
    intro h
    refine ih ?_
    rw [show s₁ = s.step l from hst]
    cases l with
    | worker a => exact inv_worker h a
    | tick | midiReset | routeReset | write | publish => exact h.env rfl rfl

/-- In every run: (1) with OSC on, no reset due and the last flush in order, the
client's target is at what the frames since the sources were last forgotten
hold, once a reset has succeeded or where nothing was on at the start; (2) the
client is for the current target once that has changed; (3) no switch is sent
to a new target, or after the sources were forgotten, before a reset of it has
succeeded; (4) failures in a row are at least the doubling delay apart, which
begins anew after a success or a new target, and the next attempt is due as
soon as it has passed; (5) what is due is tried in the pass that finds it so. -/
theorem osc_worker {s₀ s : St P} {ls : List (Label P)} (h₀ : Spawned s₀)
    (hr : (system P).Run s₀ ls s) :
    (s.osc.snapshot.enabled = true → s.osc.resetPending = false → s.osc.flushed = some true →
      ∃ t, s.osc.client = some t ∧ (Quiet s₀ ∨ (∃ t', Event.reset t' ∈ s.osc.log) →
        ∀ w, s.osc.devices t w = true ↔
          ∃ source c, pressed (s.osc.handled.foldl observe .default) source c w = true)) ∧
    (∀ t, Event.target t ∈ s.osc.log → ∀ t', s.osc.client = some t' → t' = s.osc.currentTarget) ∧
    Guarded s.osc.log ∧
    (BacksOff s.osc.resetRetry (resetFailures s.osc.log) ∧
      BacksOff s.osc.clientRetry (clientFailures s.osc.log)) ∧
    ∀ a, (s.pc = .reset → s.osc.resetPending = true → s.osc.resetRetry.next ≤ s.now →
        s.osc.snapshot.enabled = true → ∀ t, s.osc.client = some t →
          ∃ more, (s.worker a).osc.log = s.osc.log ++ more ∧
            (Event.reset t ∈ more ∨ Event.resetFailed s.now ∈ more)) ∧
      (s.pc = .client → s.osc.snapshot.enabled = true →
        s.osc.snapshot.target = s.osc.currentTarget → s.osc.client = none →
          s.osc.clientRetry.next ≤ s.now → (s.worker a).osc.log = s.osc.log ++
            [if a.connect then .connected s.osc.currentTarget else .clientFailed s.now]) := by
  have h := inv_run hr (inv_spawned h₀)
  refine ⟨fun hon hno hok => ?_, h.matched, h.kept.guarded, ⟨h.kept.resets, h.kept.clients⟩,
    fun a => ⟨?_, ?_⟩⟩
  · have hstart : s.pc ≠ .start := by
      intro hpc
      rw [(h.fresh hpc).flushed] at hok
      cases hok
    obtain ⟨t, ht⟩ := h.served hstart hon hno
    refine ⟨t, ht.client, fun hquiet w => ?_⟩
    rw [ht.device hquiet w, ht.wanted hok w, wanted_congr h.kept.sources]
    exact wanted_iff _ w
  · intro hpc hpending hready hon t hclient
    unfold St.worker
    rw [hpc]
    exact tryReset_tried hpending (decide_eq_true hready) hon hclient a
  · intro hpc hon htarget hnone hready
    unfold St.worker
    rw [hpc]
    exact updateOscClient_tried hon htarget hnone (decide_eq_true hready) a

/-- Every send succeeds. -/
def answering (frame : Option FanoutFrame) : Answers where
  connect := true
  reset := true
  off := fun _ => true
  send := fun _ _ => .ok ()
  frame := frame

/-- No send succeeds. -/
def silent (connect : Bool) (frame : Option FanoutFrame) : Answers where
  connect := connect
  reset := false
  off := fun _ => false
  send := fun _ _ => .error "unreachable"
  frame := frame

def noteOn (source : String) (key : UInt8) : FanoutFrame := ⟨⟨0, source, [0x90, key, 100]⟩, 0, 0⟩

def spawned : St Unit where
  config := ⟨true, "10.0.0.1", 9000, none, ()⟩
  configRev := 1
  midiGeneration := 0
  recovery := 0
  now := 0
  pc := .start
  cachedRev := 0
  cachedGeneration := 0
  routeGeneration := 0
  pending := none
  osc :=
    { snapshot := ⟨false, "", 0, none, ()⟩
      client := some ("10.0.0.1", 9000)
      currentTarget := ("", 0)
      sustain := .default
      resetPending := false
      resetRetry := .new 0
      clientRetry := .new 0
      devices := fun _ _ => false
      log := []
      handled := []
      flushed := none }

theorem spawned_ok : Spawned spawned :=
  ⟨rfl, rfl, rfl, .inl rfl, rfl, rfl, rfl, rfl, rfl, rfl, rfl, rfl⟩

/-- A note is played and the target moves. It is not reached at first; then it
is, but its reset fails while another source plays a note. The reset is tried
again half a second later, not before. -/
def moving : List (Label Unit) :=
  List.replicate 12 (.worker (answering (noteOn "RTP:a" 60))) ++
    [.write ⟨true, "10.0.0.2", 9000, none, ()⟩, .publish] ++
    List.replicate 10 (.worker (silent false none)) ++ [.tick 500] ++
    List.replicate 8 (.worker (silent true (noteOn "RTP:b" 64))) ++ [.tick 499] ++
    List.replicate 9 (.worker (answering none)) ++ [.tick 1] ++
    List.replicate 5 (.worker (answering none))

def moved : St Unit := moving.foldl St.step spawned

/-- The new target gets the note of the second source, after its reset. -/
theorem osc_worker_moved :
    moved.osc.log = [.switch ("10.0.0.1", 9000) (.note 39, true), .renewed,
        .target ("10.0.0.2", 9000), .clientFailed 0, .connected ("10.0.0.2", 9000),
        .resetFailed 500, .reset ("10.0.0.2", 9000),
        .switch ("10.0.0.2", 9000) (.note 43, true)] ∧
      Guarded moved.osc.log ∧ moved.osc.devices ("10.0.0.2", 9000) (.note 43) = true ∧
      moved.osc.devices ("10.0.0.2", 9000) (.note 39) = false := by
  obtain ⟨hfollows, -, hguarded, -⟩ := osc_worker spawned_ok
    (LTS.run_foldl (fun _ _ => rfl) moving spawned)
  obtain ⟨t, ht, hdevice⟩ := hfollows (by decide +kernel) (by decide +kernel) (by decide +kernel)
  obtain rfl : ("10.0.0.2", 9000) = t := Option.some.inj ht
  have hreset : Event.reset ("10.0.0.2", 9000) ∈ moved.osc.log := by decide +kernel
  refine ⟨by decide +kernel, hguarded,
    (hdevice (.inr ⟨_, hreset⟩) _).mpr ⟨"RTP:b", 0, by decide +kernel⟩, ?_⟩
  decide +kernel

end RtpOscMidi.L5.OscWorker
