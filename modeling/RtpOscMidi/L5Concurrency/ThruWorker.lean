import RtpOscMidi.Core.LTS
import RtpOscMidi.Core.Lists
import RtpOscMidi.Core.Backoff
import RtpOscMidi.L2Machine.InputRouting
import RtpOscMidi.L2Machine.MidiQueue
import RtpOscMidi.L2Machine.MidiOutput
import RtpOscMidi.L2Machine.OscOutput

/-!
# The MIDI Thru worker

One thread takes frames from the fan-out queue and sends them to a MIDI output.
Other threads may move the MIDI generation, the panic revision, the route's
generation and the configuration between any two of its reads. Whenever one of
them calls for it, and whenever an output is connected, the worker flushes the
output: it releases the notes that it has followed and resets every channel.

A step is at most one read of shared state by the worker (what follows it up to
the next such read included), or one move of another thread. The queue may hand
out any frame whose control changes are well formed, as those are that admission
lets through (`wellFormed_of_submitted`). Whether an output can be
opened, what sounds at it then and which sends fail is part of the step; a send
that fails does not reach the instrument. An output that a frame fails to reach
is dropped. The end of the worker is not modelled.

`out` is what sounds at the instrument that is connected, `played` what was
sent since the last flush, `silenced` whether that flush arrived whole, `taken`
the frames taken from the queue.

* `thru_worker`: every frame is sent after a flush for its own generations, in
  the order of the queue; what sounds is what was played since the flush and is
  followed by `ActiveNotes`; attempts to connect back off.
-/
namespace RtpOscMidi.L5.ThruWorker

open Core Core.Backoff L1.MidiMessage L2.MidiQueue L2.MidiOutput
open L2.InputRouting (MidiConfig TrySendError publish tryEnqueueMidiFrame submitted_valid)
open L2.OscOutput (startsWith)

/-! ## The output -/

/-- The part of a configuration that the worker reads; `profiles` is what
`same_profiles` compares. -/
structure Config (P : Type) where
  outputDevice : Option String
  thruEnabled : Bool
  channelFilter : Option UInt8
  profiles : P
  deriving DecidableEq, Repr

variable {P : Type}

/-- mirrors src-tauri/src/bridge/processing.rs:316-321 -/
def midiOutputRouteChanged [DecidableEq P] (previous next : Config P) : Bool :=
  previous.outputDevice ≠ next.outputDevice ∨ previous.channelFilter ≠ next.channelFilter ∨
    previous.thruEnabled ≠ next.thruEnabled ∨ previous.profiles ≠ next.profiles

/-- mirrors src-tauri/src/config.rs:419-420 -/
def vstInternalOutput : String := "VST (Interne)"
def vstInternalOutputLegacy : String := "VST (Keyzone interne)"

def isInternal (name : String) : Bool := name = vstInternalOutput ∨ name = vstInternalOutputLegacy

/-- `device`: an output is opened for a new device; `reconnect`: one is opened
again, at the time when that has ended. -/
inductive Event where
  | flush (generation routeGeneration : Nat)
  | sent (e : FanoutFrame)
  | failed (e : FanoutFrame)
  | device (opened : Bool)
  | reconnect (opened : Bool) (now : Nat)
  deriving DecidableEq, Repr

/-- What the outputs and the queue answer in one step; `reaches` is about the
sends to the output of before, `arrives` about those to one that is opened. -/
structure Answers where
  opened : Option (Held → Bool)
  reaches : Nat → Bool
  arrives : Nat → Bool
  frame : Option FanoutFrame

/-- What sounds after those of the messages that reach the instrument. -/
def deliver (reaches : Nat → Bool) (held : Held → Bool) (msgs : List (List UInt8)) : Held → Bool :=
  msgs.zipIdx.foldl (fun held m => if reaches m.2 then hear held m.1 else held) held

structure Output (P : Type) where
  snapshot : Config P
  name : Option String
  out : Option (Held → Bool)
  notes : ActiveNotes
  backoff : Nat
  nextReconnect : Nat
  cachedGeneration : Nat
  routeGeneration : Nat
  log : List Event
  played : List (List UInt8)
  silenced : Bool

namespace Output

/-- mirrors src-tauri/src/bridge/processing.rs:347-356 -/
def flush (o : Output P) (reaches : Nat → Bool) : Output P :=
  match o.out with
  | none => o
  | some held =>
    let msgs := flushMessages o.notes
    { o with
      out := some (deliver reaches held msgs)
      notes := .default
      log := o.log ++ [.flush o.cachedGeneration o.routeGeneration]
      played := []
      silenced := (List.range msgs.length).all reaches }

/-- Nothing is opened where the configuration names no device, or the internal
instrument.
mirrors src-tauri/src/bridge/midi_io.rs:156-193 -/
def openOutput (config : Config P) (a : Answers) : Option (Held → Bool) :=
  match config.outputDevice with
  | none => none
  | some name => if isInternal name then none else a.opened

/-- mirrors src-tauri/src/bridge/processing.rs:405-427 -/
def configure [DecidableEq P] (o : Output P) (now : Nat) (config : Config P) (a : Answers) :
    Output P :=
  let o := if midiOutputRouteChanged o.snapshot config then o.flush a.reaches else o
  let o := { o with snapshot := config }
  if config.outputDevice ≠ o.name then
    let out := openOutput config a
    { { o with out, name := config.outputDevice, log := o.log ++ [Event.device out.isSome] }.flush
        a.arrives with
      backoff := 500
      nextReconnect := now + 500 }
  else o

/-- mirrors src-tauri/src/bridge/processing.rs:428-434 -/
def wantsOutput (o : Output P) (now : Nat) : Bool :=
  o.out.isNone && o.snapshot.thruEnabled && o.name.any (fun name => !isInternal name) &&
    o.nextReconnect ≤ now

/-- mirrors src-tauri/src/bridge/processing.rs:436-448 -/
def reconnect (o : Output P) (now : Nat) (config : Config P) (a : Answers) : Output P :=
  let out := openOutput config a
  let o := { o with out, log := o.log ++ [Event.reconnect out.isSome now] }
  let backoff := if out.isSome then 500 else min (o.backoff * 2) 10000
  { o.flush a.arrives with backoff, nextReconnect := now + backoff }

/-- Also whether it asks for a reset of the route.
mirrors src-tauri/src/bridge/pipeline.rs:359-364,442-456 -/
def handleMidiFrame (o : Output P) (a : Answers) (e : FanoutFrame) : Output P × Bool :=
  if !acceptsChannel o.snapshot.channelFilter e.frame.data then (o, false)
  else if startsWith "StressTest" e.frame.source || !o.snapshot.thruEnabled then (o, false)
  else
    match o.out with
    | none => (o, false)
    | some held =>
      if a.reaches 0 then
        ({ o with
            out := some (play held e.frame.data)
            notes := observe o.notes e.frame.data
            log := o.log ++ [.sent e]
            played := o.played ++ [e.frame.data] }, false)
      else ({ o with out := none, log := o.log ++ [.failed e] }, true)

end Output

/-! ## The worker -/

/-- Where the worker is; `panic` stands for the panic revision that was read.
mirrors src-tauri/src/bridge/processing.rs:374-535 -/
inductive Pc where
  | start
  | startPanic
  | startGeneration
  | startRoute
  | panic
  | checkGeneration (panic : Nat)
  | checkRoute (panic : Nat)
  | renewGeneration (panic : Nat)
  | renewRoute (panic : Nat)
  | revision
  | load (revision : Nat)
  | reconnect
  | receive
  | taken (e : FanoutFrame) (n : Nat)
  | takenRoute (e : FanoutFrame) (n generation : Nat)
  | batch (n : Nat)
  | batchRoute (n : Nat)
  | batchReceive (n : Nat)
  deriving DecidableEq, Repr

structure St (P : Type) where
  config : Config P
  configRev : Nat
  midiGeneration : Nat
  panicRevision : Nat
  recovery : Nat
  now : Nat
  pc : Pc
  cachedRev : Nat
  cachedPanic : Nat
  pending : Option FanoutFrame
  taken : List FanoutFrame
  midi : Output P

inductive Label (P : Type) where
  | tick (ms : Nat)
  | midiReset
  | panic
  | routeReset
  | write (config : Config P)
  | publish
  | worker (answers : Answers)

def batchLimit : Nat := 256

/-- The turn of the batch after `n` of them, or the top of the loop. -/
def afterTurn (n : Nat) : Pc := if n + 1 < batchLimit then .batch (n + 1) else .panic

/-- A frame is taken, with the generation read before the route's.
mirrors src-tauri/src/bridge/processing.rs:454-530 -/
def St.take (s : St P) (a : Answers) (e : FanoutFrame) (n generation : Nat) : St P :=
  match generationAction (e.generation, e.routeGeneration)
      (s.midi.cachedGeneration, s.midi.routeGeneration) (generation, s.recovery) with
  | .discard => { s with pc := if n = 0 then .panic else afterTurn n }
  | .defer => { s with pending := some e, pc := .panic }
  | .ready =>
    let r := s.midi.handleMidiFrame a e
    { s with
      midi := r.1, recovery := if r.2 then s.recovery + 1 else s.recovery, pc := afterTurn n }

/-- mirrors src-tauri/src/bridge/processing.rs:374-535 -/
def St.worker [DecidableEq P] (s : St P) (a : Answers) : St P :=
  match s.pc with
  | .start =>
    { s with
      midi := { s.midi with snapshot := s.config, name := s.config.outputDevice }
      pc := .startPanic }
  | .startPanic =>
    { s with
      midi := { s.midi with nextReconnect := s.now }
      cachedPanic := s.panicRevision
      pc := .startGeneration }
  | .startGeneration =>
    { s with midi := { s.midi with cachedGeneration := s.midiGeneration }, pc := .startRoute }
  | .startRoute =>
    { s with midi := { s.midi with routeGeneration := s.recovery }.flush a.reaches, pc := .panic }
  | .panic => { s with pc := .checkGeneration s.panicRevision }
  | .checkGeneration panic =>
    { s with
      pc :=
        if panic ≠ s.cachedPanic ∨ s.midi.cachedGeneration ≠ s.midiGeneration then
          .renewGeneration panic
        else .checkRoute panic }
  | .checkRoute panic =>
    { s with
      pc := if s.midi.routeGeneration ≠ s.recovery then .renewGeneration panic else .revision }
  | .renewGeneration panic =>
    { s with
      midi := { s.midi with cachedGeneration := s.midiGeneration }
      pc := .renewRoute panic }
  | .renewRoute panic =>
    { s with
      midi := { s.midi with routeGeneration := s.recovery }.flush a.reaches
      cachedPanic := panic
      pc := .revision }
  | .revision =>
    { s with pc := if s.configRev = s.cachedRev then .reconnect else .load s.configRev }
  | .load revision =>
    { s with
      midi := s.midi.configure s.now s.config a, cachedRev := revision, pc := Pc.reconnect }
  | .reconnect =>
    { s with
      midi := if s.midi.wantsOutput s.now then s.midi.reconnect s.now s.config a else s.midi
      pc := .receive }
  | .receive =>
    match s.pending with
    | some e => { s with pending := none, pc := .taken e 0 }
    | none =>
      match a.frame with
      | none => { s with pc := .panic }
      | some e => { s with taken := s.taken ++ [e], pc := .taken e 0 }
  | .taken e n => { s with pc := .takenRoute e n s.midiGeneration }
  | .takenRoute e n generation => s.take a e n generation
  | .batch n =>
    { s with
      pc := if s.midiGeneration ≠ s.midi.cachedGeneration then .panic else .batchRoute n }
  | .batchRoute n =>
    { s with pc := if s.recovery ≠ s.midi.routeGeneration then .panic else .batchReceive n }
  | .batchReceive n =>
    match a.frame with
    | none => { s with pc := .panic }
    | some e => { s with taken := s.taken ++ [e], pc := .taken e n }

/-- `write` and `publish` are an update of the configuration.
mirrors src-tauri/src/bridge/runtime.rs:253-260 -/
def St.step [DecidableEq P] (s : St P) : Label P → St P
  | .tick ms => { s with now := s.now + ms }
  | .midiReset => { s with midiGeneration := s.midiGeneration + 1 }
  | .panic => { s with panicRevision := s.panicRevision + 1 }
  | .routeReset => { s with recovery := s.recovery + 1 }
  | .write config => { s with config }
  | .publish => { s with configRev := s.configRev + 1 }
  | .worker a => s.worker a

/-- The worker is spawned, with or without an output.
mirrors src-tauri/src/bridge/processing.rs:374-390 -/
structure Spawned (s : St P) : Prop where
  pc : s.pc = .start
  configRev : s.configRev = 1
  cachedRev : s.cachedRev = 0
  cachedGeneration : s.midi.cachedGeneration = 0
  routeGeneration : s.midi.routeGeneration = 0
  notes : s.midi.notes = .default
  backoff : s.midi.backoff = 500
  pending : s.pending = none
  taken : s.taken = []
  log : s.midi.log = []
  played : s.midi.played = []
  silenced : s.midi.silenced = false

def system (P : Type) [DecidableEq P] : LTS (St P) (Label P) where
  init := Spawned
  step s l s' := s' = s.step l ∧
    ∀ a e, l = .worker a → a.frame = some e → WellFormed e.frame.data

/-! ## What is logged -/

/-- An output is opened, or flushed. -/
def Event.renews : Event → Bool
  | .flush _ _ | .device true | .reconnect true _ => true
  | _ => false

/-- The last flush was for these generations, and of the output connected now. -/
def Flushed (log : List Event) (generation routeGeneration : Nat) : Prop :=
  Since (· = .flush generation routeGeneration) (·.renews = true) log

/-- The failed attempts to connect again since one succeeded or the device changed. -/
def failures (log : List Event) : List Nat :=
  log.foldl (fun times e =>
    match e with
    | .reconnect false now => times ++ [now]
    | .reconnect true _ | .device _ => []
    | _ => times) []

/-- The wait after a failure that `n` others came before. -/
def wait (n : Nat) : Nat := doubling 500 10000 (n + 1)

structure Logged (o : Output P) : Prop where
  sent : AtEach (fun before e => ∀ f, e = .sent f →
    Flushed before f.generation f.routeGeneration) o.log
  rising : AtEach (fun before e => ∀ g r, e = .flush g r →
    ∀ g' r', Event.flush g' r' ∈ before → g' ≤ g ∧ r' ≤ r) o.log
  seen : ∀ g r, Event.flush g r ∈ o.log → g ≤ o.cachedGeneration ∧ r ≤ o.routeGeneration
  backoff : o.backoff = doubling 500 10000 (failures o.log).length
  spaced : Spaced wait o.nextReconnect (failures o.log)

/-- What sounds is what was played since a flush that arrived whole. -/
def Sound (o : Output P) : Prop := ∀ held, o.out = some held → o.silenced = true →
  (∀ h, held h = o.played.foldl play (fun _ => false) h) ∧ Covers o.notes held

/-- The output has been flushed for the generations that the worker goes by. -/
def Ready (o : Output P) : Prop :=
  o.out.isSome = true → Flushed o.log o.cachedGeneration o.routeGeneration

theorem failures_concat (log : List Event) (e : Event) : failures (log ++ [e]) =
    match e with
    | .reconnect false now => failures log ++ [now]
    | .reconnect true _ | .device _ => []
    | _ => failures log := by
  unfold failures
  rw [List.foldl_append]
  rfl

theorem flush_mem_concat {log : List Event} {e : Event} {g r : Nat}
    (h : Event.flush g r ∈ log ++ [e]) (he : e ≠ .flush g r) : Event.flush g r ∈ log := by
  cases List.mem_append.mp h with
  | inl h => exact h
  | inr h => exact absurd (List.mem_singleton.mp h).symm he

/-! ### A flush -/

theorem deliver_all {reaches : Nat → Bool} (msgs : List (List UInt8)) :
    ∀ {k : Nat} {held : Held → Bool}, (∀ i < msgs.length, reaches (k + i) = true) →
      (msgs.zipIdx k).foldl (fun held m => if reaches m.2 then hear held m.1 else held) held =
        msgs.foldl hear held := by
  induction msgs with
  | nil => exact fun _ => rfl
  | cons m msgs ih =>
    intro k held hall
    have hfirst : reaches k = true := hall 0 (Nat.succ_pos _)
    rw [List.zipIdx_cons, List.foldl_cons, List.foldl_cons, if_pos hfirst]
    refine ih fun i hi => ?_
    have hnext := hall (i + 1) (Nat.succ_lt_succ hi)
    rwa [Nat.add_comm i 1, ← Nat.add_assoc] at hnext

section Flush

variable (o : Output P) (reaches : Nat → Bool)

theorem flush_sound : Sound (o.flush reaches) := by
  unfold Output.flush
  cases hout : o.out with
  | none =>
    intro held he
    rw [hout] at he
    cases he
  | some held =>
    intro held' he hall
    obtain rfl := Option.some.inj he
    have hreaches (i : Nat) (hi : i < (flushMessages o.notes).length) : reaches (0 + i) = true := by
      rw [Nat.zero_add]
      exact List.all_eq_true.mp hall i (List.mem_range.mpr hi)
    have hsilent (h : Held) : deliver reaches held (flushMessages o.notes) h = false := by
      unfold deliver
      rw [deliver_all (flushMessages o.notes) hreaches]
      exact flush_silences o.notes held h
    refine ⟨hsilent, fun c n hn => ?_⟩
    rw [hsilent] at hn
    cases hn

theorem flush_ready : Ready (o.flush reaches) := by
  unfold Output.flush
  cases hout : o.out with
  | none =>
    intro he
    rw [hout] at he
    cases he
  | some held => exact fun _ => since_concat o.log rfl

variable {o}

theorem flush_logged (h : Logged o) : Logged (o.flush reaches) := by
  unfold Output.flush
  split
  · exact h
  · refine ⟨?_, ?_, fun g r hmem => ?_, ?_, ?_⟩
    · exact h.sent.concat fun f he => by cases he
    · refine h.rising.concat fun g r he g' r' hmem => ?_
      cases he
      exact h.seen g' r' hmem
    · cases List.mem_append.mp hmem with
      | inl hmem => exact h.seen g r hmem
      | inr hmem =>
        cases List.mem_singleton.mp hmem
        exact ⟨Nat.le_refl _, Nat.le_refl _⟩
    · rw [failures_concat]
      exact h.backoff
    · rw [failures_concat]
      exact h.spaced

/-- What a flush leaves alone. -/
theorem flush_frame (o : Output P) : (o.flush reaches).snapshot = o.snapshot ∧
    (o.flush reaches).cachedGeneration = o.cachedGeneration ∧
    (o.flush reaches).routeGeneration = o.routeGeneration := by
  unfold Output.flush
  split
  · exact ⟨rfl, rfl, rfl⟩
  · exact ⟨rfl, rfl, rfl⟩

end Flush

/-! ### Opening an output -/

theorem Logged.opened {o : Output P} (h : Logged o) {log : List Event} {backoff next : Nat}
    {e : Event} (hlog : log = o.log ++ [e]) (hsent : ∀ f, e ≠ .sent f)
    (hflush : ∀ g r, e ≠ .flush g r) (out : Option (Held → Bool)) (name : Option String)
    (snapshot : Config P)
    (hbackoff : backoff = doubling 500 10000 (failures log).length)
    (hspaced : Spaced wait next (failures log)) :
    Logged { o with log, out, name, snapshot, backoff, nextReconnect := next } := by
  subst hlog
  refine ⟨?_, ?_, fun g r hmem => ?_, hbackoff, hspaced⟩
  · exact h.sent.concat fun f he => absurd he (hsent f)
  · exact h.rising.concat fun g r he => absurd he (hflush g r)
  · exact h.seen g r (flush_mem_concat hmem (hflush g r))

/-- The times of the attempts do not matter to a flush. -/
theorem flush_retry (o : Output P) (reaches : Nat → Bool) (backoff next : Nat) :
    { o.flush reaches with backoff, nextReconnect := next } =
      { o with backoff, nextReconnect := next }.flush reaches := by
  obtain ⟨snapshot, name, out, notes, _, _, generation, route, log, played, silenced⟩ := o
  cases out with
  | none => rfl
  | some held => rfl

theorem configure_kept [DecidableEq P] {o : Output P} (h : Logged o) (hs : Sound o) (hr : Ready o)
    (now : Nat) (config : Config P) (a : Answers) :
    Logged (o.configure now config a) ∧ Sound (o.configure now config a) ∧
      Ready (o.configure now config a) := by
  unfold Output.configure
  dsimp only
  generalize hfirst :
    (if midiOutputRouteChanged o.snapshot config then o.flush a.reaches else o) = o₁
  have hkept : Logged o₁ ∧ Sound o₁ ∧ Ready o₁ := by
    subst hfirst
    split
    · exact ⟨flush_logged _ h, flush_sound o _, flush_ready o _⟩
    · exact ⟨h, hs, hr⟩
  obtain ⟨h₁, hs₁, hr₁⟩ := hkept
  split
  · rw [flush_retry]
    have hnone : failures (o₁.log ++ [.device (Output.openOutput config a).isSome]) = [] :=
      failures_concat _ _
    have hspaced : Spaced wait (now + 500)
        (failures (o₁.log ++ [.device (Output.openOutput config a).isSome])) := by
      rw [hnone]
      exact spaced_nil _ _
    have hopened := h₁.opened rfl (fun f he => by cases he) (fun g r he => by cases he)
      (Output.openOutput config a) config.outputDevice config (by rw [hnone]) hspaced
    exact ⟨flush_logged _ hopened, flush_sound _ _, flush_ready _ _⟩
  · exact ⟨⟨h₁.sent, h₁.rising, h₁.seen, h₁.backoff, h₁.spaced⟩, hs₁, hr₁⟩

theorem reconnect_kept {o : Output P} (h : Logged o) {now : Nat} (hdue : o.nextReconnect ≤ now)
    (config : Config P) (a : Answers) : Logged (o.reconnect now config a) ∧
      Sound (o.reconnect now config a) ∧ Ready (o.reconnect now config a) := by
  unfold Output.reconnect
  dsimp only
  rw [flush_retry]
  refine ⟨flush_logged _ ?_, flush_sound _ _, flush_ready _ _⟩
  cases Output.openOutput config a with
  | some held =>
    exact h.opened rfl (fun f he => by cases he) (fun g r he => by cases he) _ o.name o.snapshot
      (by rw [failures_concat]; rfl) (by rw [failures_concat]; exact spaced_nil _ _)
  | none =>
    have hnext : min (o.backoff * 2) 10000 = wait (failures o.log).length := by
      rw [h.backoff]
      exact doubling_succ 500 10000 _
    refine h.opened rfl (fun f he => by cases he) (fun g r he => by cases he) _ o.name o.snapshot
      ?_ ?_
    · rw [failures_concat]
      show min (o.backoff * 2) 10000 = doubling 500 10000 (failures o.log ++ [now]).length
      rw [List.length_append]
      exact hnext
    · rw [failures_concat]
      show Spaced wait (now + min (o.backoff * 2) 10000) _
      rw [hnext]
      exact h.spaced.failed hdue

/-! ### A frame -/

theorem handleMidiFrame_kept {o : Output P} (h : Logged o) (hs : Sound o) (hr : Ready o)
    {e : FanoutFrame} (hgeneration : e.generation = o.cachedGeneration)
    (hroute : e.routeGeneration = o.routeGeneration) (hwf : WellFormed e.frame.data)
    (a : Answers) : Logged (o.handleMidiFrame a e).1 ∧ Sound (o.handleMidiFrame a e).1 ∧
      Ready (o.handleMidiFrame a e).1 := by
  unfold Output.handleMidiFrame
  split
  · exact ⟨h, hs, hr⟩
  split
  · exact ⟨h, hs, hr⟩
  split
  · exact ⟨h, hs, hr⟩
  · rename_i held hout
    have hflushed := hr (by rw [hout]; rfl)
    split
    · refine ⟨⟨?_, ?_, fun g r hmem => ?_, ?_, ?_⟩, ?_, fun _ => ?_⟩
      · refine h.sent.concat fun f he => ?_
        cases he
        rw [hgeneration, hroute]
        exact hflushed
      · exact h.rising.concat fun g r he => by cases he
      · exact h.seen g r (flush_mem_concat hmem fun he => by cases he)
      · rw [failures_concat]
        exact h.backoff
      · rw [failures_concat]
        exact h.spaced
      · intro held' he hall
        obtain rfl := Option.some.inj he
        obtain ⟨hplayed, hcovers⟩ := hs held hout hall
        refine ⟨fun x => ?_, observe_covers hcovers hwf⟩
        rw [List.foldl_append, ← funext hplayed]
        rfl
      · exact hflushed.append fun e' he' => by
          rw [List.mem_singleton.mp he']
          exact Bool.false_ne_true
    · refine ⟨⟨?_, ?_, fun g r hmem => ?_, ?_, ?_⟩, (fun held' he => by cases he),
        fun he => by cases he⟩
      · exact h.sent.concat fun f he => by cases he
      · exact h.rising.concat fun g r he => by cases he
      · exact h.seen g r (flush_mem_concat hmem fun he => by cases he)
      · rw [failures_concat]
        exact h.backoff
      · rw [failures_concat]
        exact h.spaced

/-! ## The runs -/

def sentOf (log : List Event) : List FanoutFrame :=
  log.filterMap fun e =>
    match e with
    | .sent f => some f
    | _ => none

def Pc.handed : Pc → List FanoutFrame
  | .taken e _ | .takenRoute e _ _ => [e]
  | _ => []

/-- Nothing has been done yet. -/
def Pc.begins : Pc → Bool
  | .start | .startPanic => true
  | _ => false

/-- The output may be connected but not flushed yet. -/
def Pc.settled : Pc → Bool
  | .start | .startPanic | .startGeneration | .startRoute | .renewRoute _ => false
  | _ => true

/-- In a batch, no frame has been put back. -/
def Pc.batching : Pc → Bool
  | .taken _ _ | .takenRoute _ _ _ | .batch _ | .batchRoute _ | .batchReceive _ => true
  | _ => false

def hand (s : St P) : List FanoutFrame := s.pending.toList ++ s.pc.handed

structure Inv (s : St P) : Prop where
  fresh : s.pc.begins = true → s.midi.log = []
  logged : Logged s.midi
  sound : Sound s.midi
  ready : s.pc.settled = true → Ready s.midi
  generation : s.midi.cachedGeneration ≤ s.midiGeneration
  route : s.midi.routeGeneration ≤ s.recovery
  order : (sentOf s.midi.log ++ hand s).Sublist s.taken
  batching : s.pc.batching = true → s.pending = none
  wellFormed : ∀ e ∈ hand s, WellFormed e.frame.data

/-- The worker goes by newer generations. -/
theorem Logged.newer {o : Output P} (h : Logged o) {generation route : Nat}
    (hg : o.cachedGeneration ≤ generation) (hr : o.routeGeneration ≤ route) :
    Logged { o with cachedGeneration := generation, routeGeneration := route } :=
  { h with seen := fun g r hmem => ⟨(h.seen g r hmem).1.trans hg, (h.seen g r hmem).2.trans hr⟩ }

theorem sentOf_concat (log : List Event) (e : Event) :
    sentOf (log ++ [e]) = sentOf log ++ sentOf [e] := List.filterMap_append ..

theorem flush_sentOf (o : Output P) (reaches : Nat → Bool) :
    sentOf (o.flush reaches).log = sentOf o.log := by
  unfold Output.flush
  split
  · rfl
  · rw [sentOf_concat]
    exact List.append_nil _

theorem configure_frame [DecidableEq P] (o : Output P) (now : Nat) (config : Config P)
    (a : Answers) : sentOf (o.configure now config a).log = sentOf o.log ∧
      (o.configure now config a).cachedGeneration = o.cachedGeneration ∧
      (o.configure now config a).routeGeneration = o.routeGeneration := by
  unfold Output.configure
  dsimp only
  generalize hfirst :
    (if midiOutputRouteChanged o.snapshot config then o.flush a.reaches else o) = o₁
  have hkept : sentOf o₁.log = sentOf o.log ∧ o₁.cachedGeneration = o.cachedGeneration ∧
      o₁.routeGeneration = o.routeGeneration := by
    subst hfirst
    split
    · exact ⟨flush_sentOf o _, (flush_frame _ o).2⟩
    · exact ⟨rfl, rfl, rfl⟩
  obtain ⟨hsent, hg, hr⟩ := hkept
  split
  · dsimp only
    obtain ⟨-, hg', hr'⟩ := flush_frame (P := P) a.arrives
      { o₁ with
        snapshot := config
        out := Output.openOutput config a
        name := config.outputDevice
        log := o₁.log ++ [Event.device (Output.openOutput config a).isSome] }
    rw [flush_sentOf, hg', hr', sentOf_concat]
    exact ⟨(List.append_nil _).trans hsent, hg, hr⟩
  · exact ⟨hsent, hg, hr⟩

theorem reconnect_frame (o : Output P) (now : Nat) (config : Config P) (a : Answers) :
    sentOf (o.reconnect now config a).log = sentOf o.log ∧
      (o.reconnect now config a).cachedGeneration = o.cachedGeneration ∧
      (o.reconnect now config a).routeGeneration = o.routeGeneration := by
  unfold Output.reconnect
  dsimp only
  obtain ⟨-, hg', hr'⟩ := flush_frame (P := P) a.arrives
    { o with
      out := Output.openOutput config a
      log := o.log ++ [Event.reconnect (Output.openOutput config a).isSome now] }
  rw [flush_sentOf, hg', hr', sentOf_concat]
  refine ⟨?_, rfl, rfl⟩
  cases (Output.openOutput config a).isSome with
  | true => exact List.append_nil _
  | false => exact List.append_nil _

theorem handleMidiFrame_frame (o : Output P) (a : Answers) (e : FanoutFrame) :
    (sentOf (o.handleMidiFrame a e).1.log).Sublist (sentOf o.log ++ [e]) ∧
      (o.handleMidiFrame a e).1.cachedGeneration = o.cachedGeneration ∧
      (o.handleMidiFrame a e).1.routeGeneration = o.routeGeneration := by
  have hsame : (sentOf o.log).Sublist (sentOf o.log ++ [e]) := List.sublist_append_left ..
  unfold Output.handleMidiFrame
  split
  · exact ⟨hsame, rfl, rfl⟩
  split
  · exact ⟨hsame, rfl, rfl⟩
  split
  · exact ⟨hsame, rfl, rfl⟩
  split
  · refine ⟨?_, rfl, rfl⟩
    rw [sentOf_concat]
    exact List.Sublist.refl _
  · refine ⟨?_, rfl, rfl⟩
    rw [sentOf_concat]
    exact (List.append_nil _).symm ▸ hsame

/-- The worker moves on, with what it has in hand or less. -/
theorem Inv.goto {s : St P} (h : Inv s) {pc : Pc} (hstart : pc.begins = false)
    (hsettled : pc.settled = true → s.pc.settled = true)
    (hbatching : pc.batching = true → s.pc.batching = true)
    (hhanded : pc.handed.Sublist s.pc.handed) : Inv { s with pc } :=
  { h with
    fresh := fun he => absurd (hstart.symm.trans he) Bool.false_ne_true
    ready := fun he => h.ready (hsettled he)
    order := ((List.Sublist.refl _).append ((List.Sublist.refl _).append hhanded)).trans h.order
    batching := fun he => h.batching (hbatching he)
    wellFormed := fun e he => h.wellFormed e <|
      (List.mem_append.mp he).elim (List.mem_append_left _)
        fun he => List.mem_append_right _ (hhanded.subset he) }

/-- The worker changes its output, between frames. -/
theorem Inv.output {s : St P} (h : Inv s) {midi : Output P} {pc : Pc} {rev panic : Nat}
    (hstart : pc.begins = false) (hpc : pc.batching = false) (hhanded : pc.handed = [])
    (hlogged : Logged midi) (hsound : Sound midi) (hready : pc.settled = true → Ready midi)
    (hgeneration : midi.cachedGeneration ≤ s.midiGeneration)
    (hroute : midi.routeGeneration ≤ s.recovery) (hsent : sentOf midi.log = sentOf s.midi.log) :
    Inv { s with midi, pc, cachedRev := rev, cachedPanic := panic } where
  fresh he := absurd (hstart.symm.trans he) Bool.false_ne_true
  logged := hlogged
  sound := hsound
  ready := hready
  generation := hgeneration
  route := hroute
  order := by
    show (sentOf midi.log ++ (s.pending.toList ++ pc.handed)).Sublist s.taken
    rw [hsent, hhanded, List.append_nil]
    exact ((List.Sublist.refl _).append (List.sublist_append_left _ _)).trans h.order
  batching he := by rw [hpc] at he; cases he
  wellFormed e he := by
    refine h.wellFormed e ?_
    cases List.mem_append.mp he with
    | inl he => exact List.mem_append_left _ he
    | inr he =>
      rw [hhanded] at he
      cases he

/-- A frame is taken from the queue. -/
theorem Inv.taken {s : St P} (h : Inv s) {e : FanoutFrame} {n : Nat}
    (hpending : s.pending = none) (hhanded : s.pc.handed = []) (hsettled : s.pc.settled = true)
    (hwf : WellFormed e.frame.data) :
    Inv { s with taken := s.taken ++ [e], pc := .taken e n } where
  fresh he := by cases he
  logged := h.logged
  sound := h.sound
  ready _ := h.ready hsettled
  generation := h.generation
  route := h.route
  order := by
    have horder := h.order
    unfold hand at horder ⊢
    rw [hhanded, hpending] at horder
    dsimp only
    rw [hpending]
    rw [Option.toList_none, List.append_nil, List.append_nil] at horder
    exact horder.append (List.Sublist.refl [e])
  batching _ := hpending
  wellFormed e' he := by
    unfold hand at he
    dsimp only at he
    rw [hpending] at he
    rw [List.mem_singleton.mp he]
    exact hwf

theorem afterTurn_cases (n : Nat) : afterTurn n = .panic ∨ afterTurn n = .batch (n + 1) := by
  unfold afterTurn
  split
  · exact .inr rfl
  · exact .inl rfl

theorem inv_take {s : St P} (h : Inv s) {e : FanoutFrame} {n generation : Nat}
    (hpc : s.pc = .takenRoute e n generation) (a : Answers) : Inv (s.take a e n generation) := by
  have hpending := h.batching (by rw [hpc]; rfl)
  have hhand : hand s = [e] := by rw [hand, hpending, hpc]; rfl
  have hready := h.ready (by rw [hpc]; rfl)
  have horder := h.order
  rw [hhand] at horder
  unfold St.take
  split
  · split
    · exact h.goto rfl (fun _ => by rw [hpc]; rfl)
        (fun he => by cases he) (List.nil_sublist _)
    · obtain hafter | hafter := afterTurn_cases n
      · rw [hafter]
        exact h.goto rfl (fun _ => by rw [hpc]; rfl)
          (fun he => by cases he) (List.nil_sublist _)
      · rw [hafter]
        exact h.goto rfl (fun _ => by rw [hpc]; rfl)
          (fun _ => by rw [hpc]; rfl) (List.nil_sublist _)
  · exact
      { h with
        fresh := fun he => by cases he
        ready := fun _ => hready
        order := horder
        batching := fun he => by cases he
        wellFormed := fun e' he => h.wellFormed e' (hhand ▸ he) }
  · rename_i haction
    obtain ⟨hgenerations, -⟩ := generationAction_ready.mp haction
    obtain ⟨hgeneration, hroute⟩ := Prod.mk.inj hgenerations
    obtain ⟨hlogged, hsound, hready'⟩ := handleMidiFrame_kept h.logged h.sound hready hgeneration
      hroute (h.wellFormed e (hhand ▸ List.mem_cons_self)) a
    obtain ⟨hsent, hg, hr⟩ := handleMidiFrame_frame s.midi a e
    have hrecovery : s.recovery ≤
        if (s.midi.handleMidiFrame a e).2 then s.recovery + 1 else s.recovery := by
      split
      · exact Nat.le_succ _
      · exact Nat.le_refl _
    obtain ⟨hstart, hhanded⟩ : (afterTurn n).begins = false ∧ (afterTurn n).handed = [] := by
      obtain hafter | hafter := afterTurn_cases n
      · rw [hafter]
        exact ⟨rfl, rfl⟩
      · rw [hafter]
        exact ⟨rfl, rfl⟩
    refine ⟨fun he => absurd (hstart.symm.trans he) Bool.false_ne_true, hlogged, hsound,
      fun _ => hready', hg.le.trans h.generation, hr.le.trans (h.route.trans hrecovery), ?_,
      fun _ => hpending, ?_⟩
    · show (sentOf (s.midi.handleMidiFrame a e).1.log ++
        (s.pending.toList ++ (afterTurn n).handed)).Sublist s.taken
      rw [hpending, hhanded]
      exact (List.append_nil _).symm ▸ hsent.trans horder
    · intro e' he
      unfold hand at he
      dsimp only at he
      rw [hpending, hhanded] at he
      cases he

section Worker

variable [DecidableEq P] {s : St P}

theorem inv_receive (h : Inv s) (hpc : s.pc = .receive) {a : Answers}
    (hwf : ∀ e, a.frame = some e → WellFormed e.frame.data) : Inv (s.worker a) := by
  unfold St.worker
  rw [hpc]
  dsimp only
  split
  · rename_i e hpending
    have horder := h.order
    have hwellFormed := h.wellFormed
    unfold hand at horder hwellFormed
    rw [hpending, hpc] at horder hwellFormed
    exact
      { h with
        fresh := fun he => by cases he
        ready := fun _ => h.ready (by rw [hpc]; rfl)
        order := horder
        batching := fun _ => rfl
        wellFormed := hwellFormed }
  · rename_i hpending
    split
    · exact h.goto rfl (fun _ => by rw [hpc]; rfl)
        (fun he => by cases he) (List.nil_sublist _)
    · rename_i e hframe
      exact h.taken hpending (by rw [hpc]; rfl) (by rw [hpc]; rfl) (hwf e hframe)

theorem inv_worker (h : Inv s) {a : Answers}
    (hwf : ∀ e, a.frame = some e → WellFormed e.frame.data) : Inv (s.worker a) := by
  cases hpc : s.pc with
  | receive => exact inv_receive h hpc hwf
  | takenRoute e n generation =>
    unfold St.worker
    rw [hpc]
    exact inv_take h hpc a
  | batchReceive n =>
    unfold St.worker
    rw [hpc]
    dsimp only
    split
    · exact h.goto rfl (fun _ => by rw [hpc]; rfl)
        (fun he => by cases he) (List.nil_sublist _)
    · rename_i e hframe
      exact h.taken (h.batching (by rw [hpc]; rfl)) (by rw [hpc]; rfl) (by rw [hpc]; rfl)
        (hwf e hframe)
  | start =>
    unfold St.worker
    rw [hpc]
    exact
      { h with
        fresh := fun _ => h.fresh (by rw [hpc]; rfl)
        logged := ⟨h.logged.sent, h.logged.rising, h.logged.seen, h.logged.backoff, h.logged.spaced⟩
        ready := fun he => by cases he
        order := by
          have horder := h.order
          rw [hand, hpc] at horder
          exact horder
        batching := fun he => by cases he
        wellFormed := by
          have hwellFormed := h.wellFormed
          rw [hand, hpc] at hwellFormed
          exact hwellFormed }
  | startPanic =>
    unfold St.worker
    rw [hpc]
    have hlog := h.fresh (by rw [hpc]; rfl)
    exact h.output rfl rfl rfl
      ⟨h.logged.sent, h.logged.rising, h.logged.seen, h.logged.backoff, by
        show Spaced wait s.now (failures s.midi.log)
        rw [hlog]
        exact spaced_nil _ _⟩
      h.sound (fun he => by cases he) h.generation h.route rfl
  | startGeneration =>
    unfold St.worker
    rw [hpc]
    exact h.output rfl rfl rfl
      (h.logged.newer h.generation (Nat.le_refl _)) h.sound (fun he => by cases he) (Nat.le_refl _)
      h.route rfl
  | startRoute =>
    unfold St.worker
    rw [hpc]
    have hlogged := h.logged.newer (Nat.le_refl _) h.route
    obtain ⟨-, hg, hr⟩ := flush_frame a.reaches { s.midi with routeGeneration := s.recovery }
    exact h.output rfl rfl rfl
      (flush_logged _ hlogged) (flush_sound _ _) (fun _ => flush_ready _ _)
      (hg.le.trans h.generation) hr.le (flush_sentOf _ _)
  | panic =>
    unfold St.worker
    rw [hpc]
    exact h.goto rfl (fun _ => by rw [hpc]; rfl) (fun he => by cases he) (List.nil_sublist _)
  | checkGeneration panic =>
    unfold St.worker
    rw [hpc]
    dsimp only
    split
    · exact h.goto rfl (fun _ => by rw [hpc]; rfl) (fun he => by cases he) (List.nil_sublist _)
    · exact h.goto rfl (fun _ => by rw [hpc]; rfl) (fun he => by cases he) (List.nil_sublist _)
  | checkRoute panic =>
    unfold St.worker
    rw [hpc]
    dsimp only
    split
    · exact h.goto rfl (fun _ => by rw [hpc]; rfl) (fun he => by cases he) (List.nil_sublist _)
    · exact h.goto rfl (fun _ => by rw [hpc]; rfl) (fun he => by cases he) (List.nil_sublist _)
  | renewGeneration panic =>
    unfold St.worker
    rw [hpc]
    exact h.output rfl rfl rfl (h.logged.newer h.generation (Nat.le_refl _)) h.sound
      (fun he => by cases he) (Nat.le_refl _) h.route rfl
  | renewRoute panic =>
    unfold St.worker
    rw [hpc]
    have hlogged := h.logged.newer (Nat.le_refl _) h.route
    obtain ⟨-, hg, hr⟩ := flush_frame a.reaches { s.midi with routeGeneration := s.recovery }
    exact h.output rfl rfl rfl (flush_logged _ hlogged) (flush_sound _ _) (fun _ => flush_ready _ _)
      (hg.le.trans h.generation) hr.le (flush_sentOf _ _)
  | revision =>
    unfold St.worker
    rw [hpc]
    dsimp only
    split
    · exact h.goto rfl (fun _ => by rw [hpc]; rfl) (fun he => by cases he) (List.nil_sublist _)
    · exact h.goto rfl (fun _ => by rw [hpc]; rfl) (fun he => by cases he) (List.nil_sublist _)
  | load revision =>
    unfold St.worker
    rw [hpc]
    obtain ⟨hlogged, hsound, hready⟩ := configure_kept h.logged h.sound (h.ready (by rw [hpc]; rfl))
      s.now s.config a
    obtain ⟨hsent, hg, hr⟩ := configure_frame s.midi s.now s.config a
    exact h.output rfl rfl rfl hlogged hsound (fun _ => hready) (hg.le.trans h.generation)
      (hr.le.trans h.route) hsent
  | reconnect =>
    unfold St.worker
    rw [hpc]
    dsimp only
    split
    · rename_i hwants
      unfold Output.wantsOutput at hwants
      have hdue : s.midi.nextReconnect ≤ s.now :=
        of_decide_eq_true ((Bool.and_eq_true_iff.mp hwants).2)
      obtain ⟨hlogged, hsound, hready⟩ := reconnect_kept h.logged hdue s.config a
      obtain ⟨hsent, hg, hr⟩ := reconnect_frame s.midi s.now s.config a
      exact h.output rfl rfl rfl hlogged hsound (fun _ => hready) (hg.le.trans h.generation)
        (hr.le.trans h.route) hsent
    · exact h.goto rfl (fun _ => by rw [hpc]; rfl) (fun he => by cases he) (List.nil_sublist _)
  | taken e n =>
    unfold St.worker
    rw [hpc]
    exact h.goto rfl (fun _ => by rw [hpc]; rfl) (fun _ => by rw [hpc]; rfl)
      (by rw [hpc]; exact List.Sublist.refl _)
  | batch n =>
    unfold St.worker
    rw [hpc]
    dsimp only
    split
    · exact h.goto rfl (fun _ => by rw [hpc]; rfl) (fun he => by cases he) (List.nil_sublist _)
    · exact h.goto rfl (fun _ => by rw [hpc]; rfl) (fun _ => by rw [hpc]; rfl) (List.nil_sublist _)
  | batchRoute n =>
    unfold St.worker
    rw [hpc]
    dsimp only
    split
    · exact h.goto rfl (fun _ => by rw [hpc]; rfl) (fun he => by cases he) (List.nil_sublist _)
    · exact h.goto rfl (fun _ => by rw [hpc]; rfl) (fun _ => by rw [hpc]; rfl) (List.nil_sublist _)

end Worker

theorem inv_spawned {s : St P} (h : Spawned s) : Inv s where
  fresh _ := h.log
  logged := by
    refine ⟨?_, ?_, fun g r hmem => ?_, ?_, ?_⟩
    · rw [h.log]
      exact atEach_nil _
    · rw [h.log]
      exact atEach_nil _
    · rw [h.log] at hmem
      cases hmem
    · rw [h.backoff, h.log]
      rfl
    · rw [h.log]
      exact spaced_nil _ _
  sound held _ hall := by
    rw [h.silenced] at hall
    cases hall
  ready he := by
    rw [h.pc] at he
    cases he
  generation := h.cachedGeneration.le.trans (Nat.zero_le _)
  route := h.routeGeneration.le.trans (Nat.zero_le _)
  order := by
    rw [hand, h.pending, h.pc, h.log]
    exact List.nil_sublist _
  batching _ := h.pending
  wellFormed e he := by
    rw [hand, h.pending, h.pc] at he
    cases he

variable [DecidableEq P]

theorem inv_inductive : (system P).Inductive Inv where
  init _ := inv_spawned
  step s l s' h hst := by
    obtain ⟨rfl, hwf⟩ := hst
    cases l with
    | worker a => exact inv_worker h fun e => hwf a e rfl
    | tick | panic | write | publish => exact { h with }
    | midiReset => exact { h with generation := h.generation.trans (Nat.le_succ _) }
    | routeReset => exact { h with route := h.route.trans (Nat.le_succ _) }

/-- In every state reached: (1) each frame was sent to an output flushed, since
it was connected, for the generations of the frame, and no flush is for older
generations than one before it; (2) where the last flush arrived whole, what
sounds is what the frames sent since leave sounding, and every note of it is
followed; (3) frames are sent in the order in which they were taken, none
twice; (4) failed attempts to connect again are at least the doubling delay
apart. -/
theorem thru_worker (s : St P) (h : (system P).Reachable s) :
    (AtEach (fun before e => ∀ f, e = .sent f → Flushed before f.generation f.routeGeneration)
        s.midi.log ∧
      AtEach (fun before e => ∀ g r, e = .flush g r →
        ∀ g' r', Event.flush g' r' ∈ before → g' ≤ g ∧ r' ≤ r) s.midi.log) ∧
    (∀ held, s.midi.out = some held → s.midi.silenced = true →
      (∀ h, held h = s.midi.played.foldl play (fun _ => false) h) ∧ Covers s.midi.notes held) ∧
    (sentOf s.midi.log).Sublist s.taken ∧
    s.midi.backoff = doubling 500 10000 (failures s.midi.log).length ∧
    Spaced wait s.midi.nextReconnect (failures s.midi.log) := by
  have hi := inv_inductive.reachable s h
  exact ⟨⟨hi.logged.sent, hi.logged.rising⟩, hi.sound,
    (List.sublist_append_left _ _).trans hi.order, hi.logged.backoff, hi.logged.spaced⟩

/-- Admission puts well-formed frames in the queue only. -/
theorem wellFormed_of_submitted {cfg : Option MidiConfig} {valid : Bool} {frame f : MidiFrame}
    {first retry : Option TrySendError}
    (h : (tryEnqueueMidiFrame (publish cfg valid) frame first retry).submitted = some f) :
    WellFormed f.data :=
  wellFormed_of_normalized (submitted_valid h)

def Label.frame : Label P → Option FanoutFrame
  | .worker a => a.frame
  | _ => none

/-- A list of labels is a run, if its frames have been admitted. -/
theorem run_foldl {ls : List (Label P)} :
    ∀ s : St P, (∀ e ∈ ls.filterMap Label.frame, WellFormed e.frame.data) →
      (system P).Run s ls (ls.foldl St.step s) := by
  induction ls with
  | nil => exact fun s _ => .nil s
  | cons l ls ih =>
    intro s hwf
    refine .cons ⟨rfl, ?_⟩ (ih (s.step l) fun e he => hwf e ?_)
    · rintro a e rfl he
      exact hwf e (List.mem_filterMap.mpr ⟨_, List.mem_cons_self, he⟩)
    · obtain ⟨l', hl', he'⟩ := List.mem_filterMap.mp he
      exact List.mem_filterMap.mpr ⟨l', List.mem_cons_of_mem l hl', he'⟩

def spawned : St Unit where
  config := ⟨some "Synth", true, none, ()⟩
  configRev := 1
  midiGeneration := 0
  panicRevision := 0
  recovery := 0
  now := 0
  pc := .start
  cachedRev := 0
  cachedPanic := 0
  pending := none
  taken := []
  midi :=
    { snapshot := ⟨none, false, none, ()⟩
      name := none
      out := some fun _ => true
      notes := .default
      backoff := 500
      nextReconnect := 0
      cachedGeneration := 0
      routeGeneration := 0
      log := []
      played := []
      silenced := false }

theorem spawned_ok : Spawned spawned :=
  ⟨rfl, rfl, rfl, rfl, rfl, rfl, rfl, rfl, rfl, rfl, rfl, rfl⟩

/-- What an output answers; where it can be opened everything sounds at it. -/
def answering (opened reaches : Bool) (frame : Option FanoutFrame) : Answers where
  opened := if opened then some fun _ => true else none
  reaches := fun _ => reaches
  arrives := fun _ => true
  frame := frame

def noteOn (generation routeGeneration : Nat) (key : UInt8) : FanoutFrame :=
  ⟨⟨generation, "RTP:a", [0x90, key, 100]⟩, generation, routeGeneration⟩

/-- A note is sent, one more after a reset of the input, and a third fails. The
output cannot be opened again at once, and is a second later; then a last note
is sent. -/
def reopening : List (Label Unit) :=
  List.replicate 13 (.worker (answering false true (noteOn 0 0 60))) ++ [.midiReset] ++
    List.replicate 10 (.worker (answering false true (noteOn 1 0 62))) ++
    List.replicate 5 (.worker (answering false false (noteOn 1 0 64))) ++
    List.replicate 10 (.worker (answering false true none)) ++ [.tick 999] ++
    List.replicate 6 (.worker (answering true true none)) ++ [.tick 1] ++
    List.replicate 8 (.worker (answering true true (noteOn 1 1 65)))

def reopened : St Unit := reopening.foldl St.step spawned

theorem reopening_wellFormed (e : FanoutFrame) (he : e ∈ reopening.filterMap Label.frame) :
    WellFormed e.frame.data := by
  have hadmitted : ∀ e ∈ reopening.filterMap Label.frame,
      (tryEnqueueMidiFrame (publish none true) e.frame none none).submitted = some e.frame := by
    decide +kernel
  exact wellFormed_of_submitted (hadmitted e he)

/-- Each note follows a flush for its generations; in the end the last one
sounds and nothing else. -/
theorem thru_worker_reopened :
    reopened.midi.log = [.flush 0 0, .sent (noteOn 0 0 60), .flush 1 0, .sent (noteOn 1 0 62),
        .failed (noteOn 1 0 64), .reconnect false 0, .reconnect true 1000, .flush 1 1,
        .sent (noteOn 1 1 65)] ∧
      ∃ held, reopened.midi.out = some held ∧ held (.note 0 65) = true ∧
        held (.note 0 62) = false ∧ Covers reopened.midi.notes held := by
  obtain ⟨-, hsound, -⟩ := thru_worker reopened
    ⟨spawned, reopening, spawned_ok, run_foldl spawned reopening_wellFormed⟩
  have hopen : reopened.midi.out.isSome = true := by decide +kernel
  obtain ⟨held, hout⟩ := Option.isSome_iff_exists.mp hopen
  obtain ⟨hheld, hcovers⟩ := hsound held hout (by decide +kernel)
  refine ⟨by decide +kernel, held, hout, ?_, ?_, hcovers⟩
  · rw [hheld]
    decide +kernel
  · rw [hheld]
    decide +kernel

end RtpOscMidi.L5.ThruWorker
