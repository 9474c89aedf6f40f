import RtpOscMidi.Core.Lists
import RtpOscMidi.L2Machine.InputRouting

/-!
# A session of reliable playback

What a peer prepares, and the scheduler thread that offers the events of a
session to the queue when they are due. The scheduler goes by the flags
`cancel` and the server's `stop`, which are only ever raised; a step is at most
one access of it, and what the queue answers and the routing that is published
are part of the step. The clock is in microseconds.

* `validatePrepare` accepts what is `WellFormed`: numbered from 0, sorted by due
  time, every message already normal.
* `scheduled_step`: the events are offered in order, none before it is due, and
  what the scheduler has counted adds up.
-/
namespace RtpOscMidi.L5.ReliablePlayback

open Core L1.MidiMessage L2.InputRouting

/-! ## Preparation -/

/-- mirrors src-tauri/src/reliable_playback.rs:46-50 -/
structure PlaybackEvent where
  seq : Nat
  dueUs : Nat
  data : List UInt8
  deriving DecidableEq, Repr

/-- mirrors src-tauri/src/reliable_playback.rs:21-26 -/
def protocolVersion : Nat := 1
def maxEventBytes : Nat := 1024
def maxConnections : Nat := 8

/-- What `validate_prepare` lets through. -/
structure WellFormed (events : List PlaybackEvent) : Prop where
  numbered : ∀ (k : Nat) (e : PlaybackEvent), events[k]? = some e → e.seq = k
  sorted : events.Pairwise fun e e' => e.dueUs ≤ e'.dueUs
  bounded : ∀ e ∈ events, e.dueUs ≤ 86400000000
  normal : ∀ e ∈ events, normalizeMessage e.data = some e.data

/-- mirrors src-tauri/src/reliable_playback.rs:103-108 -/
structure PreparedSession where
  sessionId : String
  song : String
  events : List PlaybackEvent
  wellFormed : WellFormed events

/-- One turn of the loop over the events.
mirrors src-tauri/src/reliable_playback.rs:456-495 -/
def checkEvent (idx previousDue : Nat) (event : PlaybackEvent) : Except String PlaybackEvent :=
  if event.seq ≠ idx then .error s!"invalid seq {event.seq} at index {idx}"
  else if event.dueUs < previousDue then .error "events must be sorted by dueUs"
  else if 86400000000 < event.dueUs then
    .error s!"dueUs {event.dueUs} exceeds maximum allowed duration (24h)"
  else if event.data = [] then .error s!"empty MIDI data at seq {event.seq}"
  else if maxEventBytes < event.data.length then
    .error s!"MIDI data too large at seq {event.seq}"
  else match normalizeMessage event.data with
    | none => .error s!"invalid MIDI message at seq {event.seq}"
    | some data => .ok { event with data }

def checkEvents (idx previousDue : Nat) :
    List PlaybackEvent → Except String (List PlaybackEvent)
  | [] => .ok []
  | event :: events =>
    match checkEvent idx previousDue event with
    | .error message => .error message
    | .ok event =>
      match checkEvents (idx + 1) event.dueUs events with
      | .error message => .error message
      | .ok events => .ok (event :: events)

theorem checkEvent_ok {idx previousDue : Nat} {event event' : PlaybackEvent}
    (h : checkEvent idx previousDue event = .ok event') : event'.seq = idx ∧
      previousDue ≤ event'.dueUs ∧ event'.dueUs ≤ 86400000000 ∧
      normalizeMessage event'.data = some event'.data := by
  unfold checkEvent at h
  split at h
  · cases h
  split at h
  · cases h
  split at h
  · cases h
  split at h
  · cases h
  split at h
  · cases h
  split at h
  · cases h
  · rename_i hseq hdue hmax _ _ _ data hdata
    cases h
    exact ⟨not_not.mp hseq, Nat.le_of_not_lt hdue, Nat.le_of_not_lt hmax,
      normalizeMessage_idempotent hdata⟩

/-- The events from the `idx`th on; the one before is due at `previousDue`. -/
theorem checkEvents_ok : ∀ {events events' : List PlaybackEvent} {idx previousDue : Nat},
    checkEvents idx previousDue events = .ok events' →
      (∀ (k : Nat) (e : PlaybackEvent), events'[k]? = some e → e.seq = idx + k) ∧
      (previousDue :: events'.map (·.dueUs)).Pairwise (· ≤ ·) ∧
      ∀ e ∈ events', e.dueUs ≤ 86400000000 ∧ normalizeMessage e.data = some e.data
  | [], _, _, _, h => by
    cases h
    refine ⟨fun k e he => ?_, List.pairwise_singleton _ _, fun e he => ?_⟩
    · cases he
    · cases he
  | event :: events, events', idx, previousDue, h => by
    rw [checkEvents] at h
    split at h
    · cases h
    rename_i first hfirst
    split at h
    · cases h
    rename_i rest hrest
    cases h
    obtain ⟨hseq, hdue, hmax, hnormal⟩ := checkEvent_ok hfirst
    obtain ⟨hnumbered, hsorted, hevents⟩ := checkEvents_ok hrest
    refine ⟨fun k e he => ?_, ?_, fun e he => ?_⟩
    · cases k with
      | zero =>
        cases he
        omega
      | succ k =>
        have := hnumbered k e he
        omega
    · refine List.pairwise_cons.mpr ⟨fun due hmem => ?_, hsorted⟩
      cases List.mem_cons.mp hmem with
      | inl hd => exact hd ▸ hdue
      | inr hmem =>
        have := (List.pairwise_cons.mp hsorted).1 due hmem
        omega
    · cases List.mem_cons.mp he with
      | inl he => exact he ▸ ⟨hmax, hnormal⟩
      | inr he => exact hevents e he

theorem checkEvents_wellFormed {events events' : List PlaybackEvent}
    (h : checkEvents 0 0 events = .ok events') : WellFormed events' := by
  obtain ⟨hnumbered, hsorted, hevents⟩ := checkEvents_ok h
  refine ⟨fun k e he => ?_, ?_, fun e he => (hevents e he).1, fun e he => (hevents e he).2⟩
  · have := hnumbered k e he
    omega
  · exact List.pairwise_map.mp (List.pairwise_cons.mp hsorted).2

/-- mirrors src-tauri/src/reliable_playback.rs:435-502 -/
def validatePrepare (version : Nat) (sessionId song : String) (total : Nat)
    (events : List PlaybackEvent) : Except (Option String × String) PreparedSession :=
  if version ≠ protocolVersion then
    .error (some sessionId, s!"unsupported reliable playback version {version}")
  else if total ≠ events.length then
    .error (some sessionId, s!"total {total} does not match event count {events.length}")
  else
    match h : checkEvents 0 0 events with
    | .error message => .error (some sessionId, message)
    | .ok events => .ok ⟨sessionId, song, events, checkEvents_wellFormed h⟩

/-- mirrors src-tauri/src/reliable_playback.rs:54-73 -/
inductive ClientFrame where
  | prepare (version : Nat) (sessionId song : String) (total : Nat) (events : List PlaybackEvent)
  | start (sessionId : String) (startDelayMs : Nat)
  | stop (sessionId : String)
  deriving DecidableEq, Repr

/-- mirrors src-tauri/src/reliable_playback.rs:77-101 -/
inductive ServerFrame where
  | prepared (sessionId : String) (received : Nat)
  | completed (sessionId : String) (processed maxLateUs dropped : Nat)
  | stopped (sessionId : String)
  | error (sessionId : Option String) (message : String)
  deriving DecidableEq, Repr

/-! ## The scheduler of a session -/

/-- mirrors src-tauri/src/reliable_playback.rs:504-508 -/
structure PlaybackCompletion where
  processed : Nat
  dropped : Nat
  maxLateUs : Nat
  deriving DecidableEq, Repr

/-- An event is offered to the queue. -/
structure Try where
  index : Nat
  enqueue : Enqueue
  now : Nat
  deriving DecidableEq, Repr

/-- What the threads of a connection do to the queue and to the peer. -/
inductive Act where
  | tried (t : Try)
  | release (enqueue : Enqueue)
  | reply (frame : ServerFrame)
  deriving DecidableEq, Repr

/-- Where the scheduler is; `due` is the due time of the batch it is in.
mirrors src-tauri/src/reliable_playback.rs:510-598 -/
inductive SchedulerPc where
  | begin
  | check
  | wait (due : Nat)
  | waited (due : Nat)
  | late (due : Nat)
  | batch (due : Nat)
  | stamp (due : Nat)
  | offer (due generation : Nat)
  | done
  | ended
  deriving DecidableEq, Repr

structure Scheduler where
  pc : SchedulerPc
  delayMs : Nat
  start : Nat
  index : Nat
  processed : Nat
  dropped : Nat
  maxLateUs : Nat
  completion : Option PlaybackCompletion
  deriving DecidableEq, Repr

/-- mirrors src-tauri/src/reliable_playback.rs:517-524 -/
def Scheduler.spawned (delayMs : Nat) : Scheduler := ⟨.begin, delayMs, 0, 0, 0, 0, 0, none⟩

/-- What the threads share; the clock is in microseconds. -/
structure Shared where
  now : Nat
  generation : Nat
  stop : Bool
  active : Option (Nat × String)
  nextId : Nat
  deriving DecidableEq, Repr

/-- What a read of the socket gives. -/
inductive Read where
  | frame (frame : ClientFrame)
  | error (timedOut : Bool) (message : String)
  deriving DecidableEq, Repr

/-- What the socket and the queue answer in one step, and the routing that is
published; `setup` is whether the socket can be set up, `sent` whether the peer
takes a reply. -/
structure Answers where
  setup : Bool
  read : Read
  sent : Bool
  published : Option Preparation
  first : Option TrySendError
  retry : Option TrySendError

def Scheduler.finish (s : Scheduler) (completion : Option PlaybackCompletion) : Scheduler :=
  { s with completion, pc := .done }

/-- mirrors src-tauri/src/reliable_playback.rs:556-569 -/
def Scheduler.count (s : Scheduler) (due : Nat) : EnqueueResult → Scheduler
  | .enqueued => { s with processed := s.processed + 1, index := s.index + 1, pc := .batch due }
  | .filtered => { s with index := s.index + 1, pc := .batch due }
  | .disconnected => s.finish none
  | .droppedNonCritical | .invalidMessage | .criticalReleaseDropped =>
    { s with dropped := s.dropped + 1, index := s.index + 1, pc := .batch due }

/-- mirrors src-tauri/src/reliable_playback.rs:517 -/
def source (session : PreparedSession) : String := "ReliablePLV:" ++ session.song

/-- `cancelled` is whether `cancel` or `stop` has been raised. `true` as the
last value: `done` is raised.
mirrors src-tauri/src/reliable_playback.rs:510-598,361-366 -/
def Scheduler.step (s : Scheduler) (session : PreparedSession) (cancelled : Bool) (sh : Shared)
    (a : Answers) : Scheduler × List Act :=
  match s.pc with
  | .begin => ({ s with start := sh.now + min s.delayMs 60000 * 1000, pc := .check }, [])
  | .check =>
    match session.events[s.index]? with
    | none => (s.finish (some ⟨s.processed, s.dropped, s.maxLateUs⟩), [])
    | some event =>
      if cancelled then (s.finish none, []) else ({ s with pc := .wait event.dueUs }, [])
  | .wait due =>
    if cancelled ∨ s.start + due ≤ sh.now then ({ s with pc := .waited due }, []) else (s, [])
  | .waited due => if cancelled then (s.finish none, []) else ({ s with pc := .late due }, [])
  | .late due =>
    ({ s with maxLateUs := max s.maxLateUs (sh.now - (s.start + due)), pc := .batch due }, [])
  | .batch due =>
    if session.events[s.index]?.any (·.dueUs = due) then
      if cancelled then (s.finish none, []) else ({ s with pc := .stamp due }, [])
    else ({ s with pc := .check }, [])
  | .stamp due => ({ s with pc := .offer due sh.generation }, [])
  | .offer due generation =>
    match session.events[s.index]? with
    | none => (s, [])
    | some event =>
      let e := tryEnqueueMidiFrame a.published ⟨generation, source session, event.data⟩ a.first
        a.retry
      (s.count due e.result, [.tried ⟨s.index, e, sh.now⟩])
  | .done => ({ s with pc := .ended }, [])
  | .ended => (s, [])

/-! ## What the scheduler offers -/

def triesOf (acts : List Act) : List Try :=
  acts.filterMap fun act =>
    match act with
    | .tried t => some t
    | _ => none

def releasesOf (acts : List Act) : List Enqueue :=
  acts.filterMap fun act =>
    match act with
    | .release e => some e
    | _ => none

def isDropped : EnqueueResult → Bool
  | .droppedNonCritical | .invalidMessage | .criticalReleaseDropped => true
  | .enqueued | .filtered | .disconnected => false

/-- The event of the session, offered no sooner than it is due. -/
def Offered (session : PreparedSession) (start : Nat) (t : Try) : Prop :=
  ∃ e : PlaybackEvent, session.events[t.index]? = some e ∧ start + e.dueUs ≤ t.now ∧
    ∃ published generation first retry, t.enqueue =
      tryEnqueueMidiFrame published ⟨generation, source session, e.data⟩ first retry

/-- What the scheduler counts. -/
structure Counted (s : Scheduler) (tries : List Try) : Prop where
  index : tries.length = s.index
  processed : (tries.countP fun t => t.enqueue.result = .enqueued) = s.processed
  dropped : (tries.countP fun t => isDropped t.enqueue.result) = s.dropped
  connected : ∀ t ∈ tries, t.enqueue.result ≠ .disconnected

def SchedulerPc.running : SchedulerPc → Bool
  | .done | .ended => false
  | _ => true

/-- The due time of the batch whose events are being offered. -/
def SchedulerPc.due : SchedulerPc → Option Nat
  | .late due | .batch due | .stamp due | .offer due _ => some due
  | _ => none

structure Scheduled (session : PreparedSession) (cancelled : Bool) (now : Nat) (s : Scheduler)
    (tries : List Try) : Prop where
  indices : tries.map (·.index) = List.range tries.length
  offered : ∀ t ∈ tries, Offered session s.start t
  counted : s.pc.running = true ∨ s.completion.isSome = true → Counted s tries
  fresh : s.pc = .begin → tries = []
  waited : ∀ due, s.pc = .waited due → cancelled = true ∨ s.start + due ≤ now
  due : ∀ due, s.pc.due = some due → s.start + due ≤ now
  batch : ∀ due, s.pc = .stamp due ∨ (∃ generation, s.pc = .offer due generation) →
    ∀ e, session.events[s.index]? = some e → e.dueUs = due
  completed : ∀ r, s.completion = some r → s.pc.running = false ∧
    r = ⟨s.processed, s.dropped, s.maxLateUs⟩ ∧ session.events.length ≤ s.index

section Scheduler

variable {session : PreparedSession} {cancelled : Bool} {now : Nat} {s : Scheduler}
  {tries : List Try}

theorem Scheduled.later {cancelled' : Bool} {now' : Nat}
    (h : Scheduled session cancelled now s tries)
    (hcancelled : cancelled = true → cancelled' = true) (hnow : now ≤ now') :
    Scheduled session cancelled' now' s tries :=
  { h with
    waited := fun due he => (h.waited due he).imp hcancelled hnow.trans'
    due := fun due he => (h.due due he).trans hnow }

theorem Scheduled.uncompleted (h : Scheduled session cancelled now s tries)
    (hrunning : s.pc.running = true) : s.completion = none := by
  cases hc : s.completion with
  | none => rfl
  | some r =>
    have := (h.completed r hc).1
    rw [hrunning] at this
    cases this

/-- The scheduler moves on and offers nothing. -/
theorem Scheduled.goto (h : Scheduled session cancelled now s tries)
    (hrunning : s.pc.running = true) {pc : SchedulerPc} (hpc : pc ≠ .begin)
    (hwaited : ∀ due, pc = .waited due → cancelled = true ∨ s.start + due ≤ now)
    (hdue : ∀ due, pc.due = some due → s.start + due ≤ now)
    (hbatch : ∀ due, pc = .stamp due ∨ (∃ generation, pc = .offer due generation) →
      ∀ e, session.events[s.index]? = some e → e.dueUs = due) :
    Scheduled session cancelled now { s with pc } tries where
  indices := h.indices
  offered := h.offered
  counted _ := { h.counted (.inl hrunning) with }
  fresh he := absurd he hpc
  waited := hwaited
  due := hdue
  batch := hbatch
  completed r hr := by
    rw [h.uncompleted hrunning] at hr
    cases hr

/-- The scheduler gives up. -/
theorem Scheduled.quit (h : Scheduled session cancelled now s tries) :
    Scheduled session cancelled now (s.finish none) tries where
  indices := h.indices
  offered := h.offered
  counted he := he.elim (fun he => by cases he) fun he => by cases he
  fresh he := by cases he
  waited due he := by cases he
  due due he := by cases he
  batch due he := he.elim (fun he => by cases he) fun ⟨_, he⟩ => by cases he
  completed r hr := by cases hr

theorem scheduled_spawned (delayMs : Nat) :
    Scheduled session cancelled now (.spawned delayMs) [] where
  indices := rfl
  offered t ht := by cases ht
  counted _ := ⟨rfl, rfl, rfl, fun t ht => by cases ht⟩
  fresh _ := rfl
  waited due he := by cases he
  due due he := by cases he
  batch due he := he.elim (fun he => by cases he) fun ⟨_, he⟩ => by cases he
  completed r hr := by cases hr

theorem Scheduled.offered_concat (h : Scheduled session cancelled now s tries) {t : Try}
    (hindex : t.index = tries.length) (ht : Offered session s.start t) :
    (tries ++ [t]).map (·.index) = List.range (tries ++ [t]).length ∧
      ∀ t' ∈ tries ++ [t], Offered session s.start t' := by
  constructor
  · rw [List.map_append, h.indices, List.length_append, List.length_singleton, List.range_succ,
      ← hindex]
    rfl
  · intro t' ht'
    cases List.mem_append.mp ht' with
    | inl ht' => exact h.offered t' ht'
    | inr ht' =>
      rw [List.mem_singleton.mp ht']
      exact ht

/-- The counts after one more offer, by what came of it. -/
theorem Counted.count {e : Enqueue} (h : Counted s tries) (due : Nat)
    (hresult : e.result ≠ .disconnected) :
    Counted (s.count due e.result) (tries ++ [⟨s.index, e, now⟩]) := by
  obtain ⟨hindex, hprocessed, hdropped, hconnected⟩ := h
  have hall : ∀ t ∈ tries ++ [⟨s.index, e, now⟩], t.enqueue.result ≠ .disconnected := by
    intro t ht
    cases List.mem_append.mp ht with
    | inl ht => exact hconnected t ht
    | inr ht =>
      rw [List.mem_singleton.mp ht]
      exact hresult
  refine ⟨?_, ?_, ?_, hall⟩
  · rw [List.length_append, List.length_singleton, hindex]
    cases hr : e.result with
    | disconnected => exact absurd hr hresult
    | _ => rfl
  · rw [List.countP_append, hprocessed, List.countP_singleton]
    cases hr : e.result with
    | disconnected => exact absurd hr hresult
    | _ => simp [Scheduler.count]
  · rw [List.countP_append, hdropped, List.countP_singleton]
    cases hr : e.result with
    | disconnected => exact absurd hr hresult
    | _ => simp [Scheduler.count, isDropped]

theorem Scheduled.count {due generation : Nat} {e : Enqueue}
    (h : Scheduled session cancelled now s tries) (hpc : s.pc = .offer due generation)
    (he : Offered session s.start ⟨s.index, e, now⟩) :
    Scheduled session cancelled now (s.count due e.result) (tries ++ [⟨s.index, e, now⟩]) := by
  have hcounted := h.counted (.inl (by rw [hpc]; rfl))
  have hdue := h.due due (by rw [hpc]; rfl)
  have hnone := h.uncompleted (by rw [hpc]; rfl)
  obtain ⟨hindices, hoffered⟩ := h.offered_concat hcounted.index.symm he
  by_cases hresult : e.result = .disconnected
  · rw [hresult]
    exact
      { indices := hindices
        offered := hoffered
        counted := fun he => he.elim (fun he => by cases he) fun he => by cases he
        fresh := fun he => by cases he
        waited := fun due he => by cases he
        due := fun due he => by cases he
        batch := fun due he => he.elim (fun he => by cases he) fun ⟨_, he⟩ => by cases he
        completed := fun r hr => by cases hr }
  · have hkept : (s.count due e.result).pc = .batch due ∧
        (s.count due e.result).start = s.start ∧ (s.count due e.result).completion = none := by
      cases hr : e.result with
      | disconnected => exact absurd hr hresult
      | _ => exact ⟨rfl, rfl, hnone⟩
    obtain ⟨hpc', hstart, hcompletion⟩ := hkept
    refine ⟨hindices, hstart.symm ▸ hoffered, fun _ => hcounted.count due hresult, fun he => ?_,
      fun d he => ?_, fun d he => ?_, fun d he => ?_, fun r hr => ?_⟩
    · rw [hpc'] at he
      cases he
    · rw [hpc'] at he
      cases he
    · rw [hpc'] at he
      cases he
      rw [hstart]
      exact hdue
    · rw [hpc'] at he
      exact he.elim (fun he => by cases he) fun ⟨_, he⟩ => by cases he
    · rw [hcompletion] at hr
      cases hr

/-- A step offers one event at most. -/
theorem step_acts (s : Scheduler) (session : PreparedSession) (cancelled : Bool) (sh : Shared)
    (a : Answers) : (s.step session cancelled sh a).2 = [] ∨
      ∃ t, (s.step session cancelled sh a).2 = [.tried t] := by
  unfold Scheduler.step
  split
  · exact .inl rfl
  · split
    · exact .inl rfl
    · split
      · exact .inl rfl
      · exact .inl rfl
  · split
    · exact .inl rfl
    · exact .inl rfl
  · split
    · exact .inl rfl
    · exact .inl rfl
  · exact .inl rfl
  · split
    · split
      · exact .inl rfl
      · exact .inl rfl
    · exact .inl rfl
  · exact .inl rfl
  · split
    · exact .inl rfl
    · exact .inr ⟨_, rfl⟩
  · exact .inl rfl
  · exact .inl rfl

theorem scheduled_step {sh : Shared} (h : Scheduled session cancelled sh.now s tries)
    (a : Answers) : Scheduled session cancelled sh.now (s.step session cancelled sh a).1
      (tries ++ triesOf (s.step session cancelled sh a).2) := by
  have hsilent {s' : Scheduler} (h' : Scheduled session cancelled sh.now s' tries) :
      Scheduled session cancelled sh.now s' (tries ++ triesOf []) :=
    (List.append_nil tries).symm ▸ h'
  have hgoto (hrunning : s.pc.running = true) {pc : SchedulerPc} (hbegin : pc ≠ .begin)
      (hdue : pc.due = none) (hwaited : ∀ due, pc ≠ .waited due) :
      Scheduled session cancelled sh.now { s with pc } tries := by
    refine h.goto hrunning hbegin (fun due he => absurd he (hwaited due)) (fun due he => ?_)
      fun due he => ?_
    · rw [hdue] at he
      cases he
    · obtain he | ⟨generation, he⟩ := he
      · rw [he] at hdue
        cases hdue
      · rw [he] at hdue
        cases hdue
  unfold Scheduler.step
  cases hpc : s.pc with
  | begin =>
    apply hsilent
    have htries := h.fresh hpc
    subst htries
    exact
      { indices := rfl
        offered := fun t ht => by cases ht
        counted := fun _ => { h.counted (.inl (by rw [hpc]; rfl)) with }
        fresh := fun _ => rfl
        waited := fun due he => by cases he
        due := fun due he => by cases he
        batch := fun due he => he.elim (fun he => by cases he) fun ⟨_, he⟩ => by cases he
        completed := fun r hr => by
          rw [h.uncompleted (by rw [hpc]; rfl)] at hr
          cases hr }
  | check =>
    dsimp only
    split
    · rename_i hend
      apply hsilent
      exact
        { indices := h.indices
          offered := h.offered
          counted := fun _ => { h.counted (.inl (by rw [hpc]; rfl)) with }
          fresh := fun he => by cases he
          waited := fun due he => by cases he
          due := fun due he => by cases he
          batch := fun due he => he.elim (fun he => by cases he) fun ⟨_, he⟩ => by cases he
          completed := fun r hr =>
            ⟨rfl, (Option.some.inj hr).symm, List.getElem?_eq_none_iff.mp hend⟩ }
    · split
      · exact hsilent h.quit
      · exact hsilent (hgoto (by rw [hpc]; rfl) (fun he => by cases he) rfl fun _ he => by cases he)
  | wait due =>
    dsimp only
    split
    · rename_i hdue
      apply hsilent
      refine h.goto (by rw [hpc]; rfl) (fun he => by cases he) (fun d he => ?_)
        (fun d he => by cases he) fun d he => ?_
      · cases he
        exact hdue
      · exact he.elim (fun he => by cases he) fun ⟨_, he⟩ => by cases he
    · exact hsilent h
  | waited due =>
    dsimp only
    split
    · exact hsilent h.quit
    · rename_i hcancelled
      apply hsilent
      refine h.goto (by rw [hpc]; rfl) (fun he => by cases he) (fun d he => by cases he)
        (fun d he => ?_) fun d he => ?_
      · cases he
        exact (h.waited due hpc).resolve_left hcancelled
      · exact he.elim (fun he => by cases he) fun ⟨_, he⟩ => by cases he
  | late due =>
    apply hsilent
    exact
      { indices := h.indices
        offered := h.offered
        counted := fun _ => { h.counted (.inl (by rw [hpc]; rfl)) with }
        fresh := fun he => by cases he
        waited := fun due he => by cases he
        due := fun d he => h.due d (by rw [hpc]; exact he)
        batch := fun due he => he.elim (fun he => by cases he) fun ⟨_, he⟩ => by cases he
        completed := fun r hr => by
          rw [h.uncompleted (by rw [hpc]; rfl)] at hr
          cases hr }
  | batch due =>
    dsimp only
    split
    · rename_i hany
      split
      · exact hsilent h.quit
      · apply hsilent
        refine h.goto (by rw [hpc]; rfl) (fun he => by cases he) (fun d he => by cases he)
          (fun d he => h.due d (by rw [hpc]; exact he)) fun d he e hevent => ?_
        rw [hevent] at hany
        obtain he | ⟨generation, he⟩ := he
        · cases he
          exact of_decide_eq_true hany
        · cases he
    · exact hsilent (hgoto (by rw [hpc]; rfl) (fun he => by cases he) rfl fun _ he => by cases he)
  | stamp due =>
    apply hsilent
    refine h.goto (by rw [hpc]; rfl) (fun he => by cases he) (fun d he => by cases he)
      (fun d he => h.due d (by rw [hpc]; exact he)) fun d he => ?_
    obtain he | ⟨generation, he⟩ := he
    · cases he
    · cases he
      exact h.batch due (.inl hpc)
  | offer due generation =>
    dsimp only
    split
    · exact hsilent h
    · rename_i event hevent
      refine h.count hpc ⟨event, hevent, ?_, a.published, generation, a.first, a.retry, rfl⟩
      rw [h.batch due (.inr ⟨generation, hpc⟩) event hevent]
      exact h.due due (by rw [hpc]; rfl)
  | done =>
    apply hsilent
    exact
      { indices := h.indices
        offered := h.offered
        counted := fun he => { h.counted (he.imp_left fun he => by cases he) with }
        fresh := fun he => by cases he
        waited := fun due he => by cases he
        due := fun due he => by cases he
        batch := fun due he => he.elim (fun he => by cases he) fun ⟨_, he⟩ => by cases he
        completed := fun r hr => ⟨rfl, (h.completed r hr).2⟩ }
  | ended => exact hsilent h

end Scheduler

end RtpOscMidi.L5.ReliablePlayback
