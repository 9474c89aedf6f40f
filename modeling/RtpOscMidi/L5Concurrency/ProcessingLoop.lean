import RtpOscMidi.Core.LTS
import RtpOscMidi.Core.Lists
import RtpOscMidi.L1Encoding.MidiMessage
import RtpOscMidi.L2Machine.MidiQueue
import RtpOscMidi.L2Machine.SourceState

/-!
# The processing loop

One thread takes frames from the input queue, in batches, and gives them to
the audio engine. Any other thread may move the MIDI generation between two
of its reads; the loop then forgets what the sources hold, resets the audio
engine and discards what is older. A frame of a newer generation waits in
`pending`. The reset of one RTP source becomes releases of what that source
alone held, in `scopedReleases`.

A step is one read of shared state by the loop (what follows it up to the
next such read included), or one move of another thread. The channel filter
is the configuration's, as the input's is. Left out: the fan-out to the
MIDI Thru and OSC workers, counters, logging and the configuration. Where
the audio engine does not take a message (`room`), a critical one resets it.

`log` records what becomes of every frame. Generations are `Nat`.
-/
namespace RtpOscMidi.L5.ProcessingLoop

open Core L1.MidiMessage L2.MidiQueue L2.SourceState

/-- Where in the batch a frame was taken.
mirrors src-tauri/src/bridge/processing.rs:171-180,234-252 -/
inductive Position where
  | first
  | batch (n : Nat)
  deriving DecidableEq, Repr

/-- `release`: the frame is a release of a peer reset.
mirrors src-tauri/src/bridge/processing.rs:148-303 -/
inductive Loop where
  | stop
  | observe
  | resetAudio
  | panic
  | recv
  | received (f : MidiFrame) (release : Bool)
  | act (f : MidiFrame) (release : Bool) (pos : Position)
  | handle (f : MidiFrame) (release : Bool) (pos : Position)
  | batchStop (n : Nat)
  | batchGeneration (n : Nat)
  | batchRecv (n : Nat)
  | ended
  deriving DecidableEq, Repr

inductive Event where
  | dequeued (f : MidiFrame)
  | handled (f : MidiFrame) (release : Bool)
  /-- older than `current`, the generation read -/
  | discarded (f : MidiFrame) (release : Bool) (current : Nat)
  /-- no buffer for a copy -/
  | dropped (f : MidiFrame)
  /-- in hand when the loop was told to stop -/
  | stopped (f : MidiFrame) (release : Bool)
  | released (fs : List MidiFrame)
  | changed (cleared : List MidiFrame)
  | resetAudio (generation : Nat)
  | panicked (generation : Nat)
  deriving DecidableEq, Repr

structure St where
  midiGeneration : Nat
  stop : Bool
  disconnected : Bool
  queue : List MidiFrame
  generation : Nat
  pending : Option MidiFrame
  sources : SourceMidiState
  scopedReleases : List MidiFrame
  loop : Loop
  destination : Held → Bool
  admitted : List MidiFrame
  log : List Event

def init (generation : Nat) : St :=
  { midiGeneration := generation, stop := false, disconnected := false, queue := [], generation,
    pending := none, sources := ∅, scopedReleases := [], loop := .stop, destination := fun _ => false,
    admitted := [], log := [] }

inductive Lbl where
  /-- another thread starts a new generation -/
  | reset
  | stop
  | disconnect
  | enqueue (f : MidiFrame)
  /-- the loop's next read; `room`: the engine takes the message;
  `cloned`: there is a buffer for a copy -/
  | loop (room : List UInt8 → Bool) (cloned : Bool)

/-- mirrors src-tauri/src/audio/engine.rs:210-236 -/
def sendMidi (room : List UInt8 → Bool) (held : Held → Bool) (data : List UInt8) : Held → Bool :=
  if room data then hear held data
  else if isCriticalReleaseMessage data then fun _ => false
  else held

/-- mirrors src-tauri/src/bridge/pipeline.rs:331-440 with `deliver_audio` alone -/
def handleMidiFrame (filter : Option UInt8) (room : List UInt8 → Bool) (s : St) (f : MidiFrame) : St :=
  if !acceptsChannel filter f.data then s
  else if f.data = [0xFF] then { s with midiGeneration := s.midiGeneration + 1 }
  else match f.data with
    | [] => s
    | status :: _ =>
      if 0x80 ≤ status ∧ status < 0xF0 then
        { s with destination := sendMidi room s.destination f.data }
      else s

/-- mirrors src-tauri/src/bridge/processing.rs:305-309 -/
def exitMessages : List (List UInt8) :=
  (List.finRange 16).flatMap fun c : Fin 16 =>
    [[0xB0 ||| UInt8.ofNat c, 120, 0], [0xB0 ||| UInt8.ofNat c, 121, 0],
      [0xB0 ||| UInt8.ofNat c, 123, 0]]

def leave (room : List UInt8 → Bool) (s : St) : St :=
  { s with loop := .ended, destination := exitMessages.foldl (sendMidi room) s.destination }

def batchLimit : Nat := 256

def batchFrom (n : Nat) : Loop := if n < batchLimit then .batchStop n else .stop

/-- `continue` -/
def continued : Position → Loop
  | .first => .stop
  | .batch n => batchFrom (n + 1)

/-- the frame has been sent on -/
def sent : Position → Loop
  | .first => batchFrom 1
  | .batch n => batchFrom (n + 1)

/-- mirrors src-tauri/src/bridge/processing.rs:194-200,258-264 -/
def releaseFrames (sources : SourceMidiState) (f : MidiFrame) : List MidiFrame :=
  (releaseSource sources f.source).1.map fun data => { f with data }

/-- mirrors src-tauri/src/bridge/processing.rs:193-233,257-297 -/
def handle (filter : Option UInt8) (room : List UInt8 → Bool) (cloned : Bool) (s : St)
    (f : MidiFrame) (release : Bool) (pos : Position) : St :=
  if isPeerReset f then
    { s with
      sources := (releaseSource s.sources f.source).2,
      scopedReleases := s.scopedReleases ++ releaseFrames s.sources f,
      loop := continued pos,
      log := s.log ++ [.handled f release, .released (releaseFrames s.sources f)] }
  else if f.data.length ≤ 32 ∨ cloned then
    { handleMidiFrame filter room { s with sources := observe s.sources f } f with
      loop := sent pos, log := s.log ++ [.handled f release] }
  else
    { s with
      sources := observe s.sources f,
      midiGeneration := s.midiGeneration + 1,
      loop := continued pos,
      log := s.log ++ [.dropped f] }

/-- mirrors src-tauri/src/bridge/processing.rs:148-309 -/
def loopStep (filter : Option UInt8) (room : List UInt8 → Bool) (cloned : Bool) (s : St) :
    Loop → Option St
  | .stop => some (if s.stop then leave room s else { s with loop := .observe })
  | .observe =>
    some (if s.generation ≠ s.midiGeneration then
        { s with
          generation := s.midiGeneration, sources := ∅, scopedReleases := [], loop := .resetAudio,
          log := s.log ++ [.changed s.scopedReleases] }
      else { s with loop := .recv })
  | .resetAudio =>
    some { s with
      destination := fun _ => false, loop := .panic, log := s.log ++ [.resetAudio s.generation] }
  | .panic => some { s with loop := .recv, log := s.log ++ [.panicked s.generation] }
  | .recv =>
    some (match s.scopedReleases, s.pending, s.queue with
      | f :: scopedReleases, _, _ => { s with scopedReleases, loop := .received f true }
      | [], some f, _ => { s with pending := none, loop := .received f false }
      | [], none, f :: queue =>
        { s with queue, loop := .received f false, log := s.log ++ [.dequeued f] }
      | [], none, [] => if s.disconnected then leave room s else { s with loop := .stop })
  | .received f release =>
    some (if s.stop then { leave room s with log := s.log ++ [.stopped f release] }
      else { s with loop := .act f release .first })
  | .act f release pos =>
    some (match generationAction (f.generation, 0) (s.generation, 0) (s.midiGeneration, 0) with
      | .discard =>
        { s with loop := continued pos, log := s.log ++ [.discarded f release s.midiGeneration] }
      | .defer => { s with pending := some f, loop := .stop }
      | .ready => { s with loop := .handle f release pos })
  | .handle f release pos => some (handle filter room cloned s f release pos)
  | .batchStop n => some { s with loop := if s.stop then .stop else .batchGeneration n }
  | .batchGeneration n =>
    some { s with loop := if s.midiGeneration ≠ s.generation then .stop else .batchRecv n }
  | .batchRecv n =>
    some (match s.scopedReleases, s.queue with
      | f :: scopedReleases, _ => { s with scopedReleases, loop := .act f true (.batch n) }
      | [], f :: queue =>
        { s with queue, loop := .act f false (.batch n), log := s.log ++ [.dequeued f] }
      | [], [] => { s with loop := .stop })
  | .ended => none

/-- A frame is normalised on its way into the queue; the mapping of the
input's profile keeps it so.
mirrors src-tauri/src/bridge/pipeline.rs:623-625 -/
def enqueue (s : St) (f : MidiFrame) : St :=
  match normalizeMessage f.data with
  | none => s
  | some data =>
    { s with queue := s.queue ++ [{ f with data }], admitted := s.admitted ++ [{ f with data }] }

def step (filter : Option UInt8) (s : St) : Lbl → Option St
  | .reset => some { s with midiGeneration := s.midiGeneration + 1 }
  | .stop => some { s with stop := true }
  | .disconnect => some { s with disconnected := true }
  | .enqueue f => if s.disconnected then none else some (enqueue s f)
  | .loop room cloned => loopStep filter room cloned s s.loop

def lts (filter : Option UInt8) (g₀ : Nat) : LTS St Lbl :=
  .ofStep (fun s => s = init g₀) (step filter)

/-! ## The slots a frame can be in -/

/-- The frame in hand, from the queue or among the releases. -/
def Loop.frames (release : Bool) : Loop → List MidiFrame
  | .received f r | .act f r _ | .handle f r _ => if r = release then [f] else []
  | _ => []

def IsRelease (generation : Nat) (f : MidiFrame) : Prop :=
  f.generation = generation ∧ ∃ h, f.data = releaseMessage h

/-- A pending frame excludes a frame in hand and queued releases, and a
frame from the queue excludes queued releases. -/
def LoopOk (s : St) : Loop → Prop
  | .stop | .observe | .resetAudio | .panic | .recv => s.pending ≠ none → s.scopedReleases = []
  | .received _ r | .act _ r _ => s.pending = none ∧ (r = false → s.scopedReleases = [])
  | .handle f r _ =>
    (s.pending = none ∧ (r = false → s.scopedReleases = [])) ∧ f.generation = s.generation
  | .batchStop _ | .batchGeneration _ | .batchRecv _ => s.pending = none
  | .ended => True

structure Slots (s : St) : Prop where
  loop : LoopOk s s.loop
  generation : s.generation ≤ s.midiGeneration
  releases : ∀ f ∈ s.loop.frames true ++ s.scopedReleases, IsRelease s.generation f

theorem frames_continued (pos : Position) (r : Bool) : (continued pos).frames r = [] := by
  cases pos with
  | first => rfl
  | batch n =>
    simp only [continued, batchFrom]
    split <;> rfl

theorem frames_sent (pos : Position) (r : Bool) : (sent pos).frames r = [] := by
  cases pos with
  | first => rfl
  | batch n =>
    simp only [sent, batchFrom]
    split <;> rfl

theorem loopOk_continued {s : St} (h : s.pending = none) (pos : Position) :
    LoopOk s (continued pos) := by
  cases pos with
  | first => exact fun hp => absurd h hp
  | batch n =>
    simp only [continued, batchFrom]
    split
    · exact h
    · exact fun hp => absurd h hp

theorem loopOk_sent {s : St} (h : s.pending = none) (pos : Position) : LoopOk s (sent pos) := by
  cases pos with
  | first => exact h
  | batch n =>
    simp only [sent, batchFrom]
    split
    · exact h
    · exact fun hp => absurd h hp

/-- What handling a frame does to the fields that the slots depend on. -/
theorem handleMidiFrame_fields (filter : Option UInt8) (room : List UInt8 → Bool) (s : St)
    (f : MidiFrame) :
    let s' := handleMidiFrame filter room s f
    s'.pending = s.pending ∧ s'.scopedReleases = s.scopedReleases ∧
      s'.generation = s.generation ∧ s.midiGeneration ≤ s'.midiGeneration ∧ s'.log = s.log ∧
      s'.queue = s.queue ∧ s'.admitted = s.admitted ∧ s'.sources = s.sources ∧ s'.stop = s.stop := by
  unfold handleMidiFrame
  split
  · simp
  · split
    · simp
    · split
      · simp
      · split <;> simp

theorem slots_handle {filter : Option UInt8} {room : List UInt8 → Bool} {cloned : Bool} {s : St}
    {f : MidiFrame} {r : Bool} {pos : Position} (S : Slots s) (hu : s.loop = .handle f r pos) :
    Slots (handle filter room cloned s f r pos) := by
  have hok := S.loop
  have hrel := S.releases
  rw [hu] at hok hrel
  obtain ⟨⟨hp, hs⟩, hg⟩ := hok
  have hrel' : ∀ f ∈ s.scopedReleases, IsRelease s.generation f := fun x hx =>
    hrel x (List.mem_append_right _ hx)
  unfold handle
  split
  · refine ⟨loopOk_continued (by exact hp) pos, S.generation, ?_⟩
    rw [frames_continued, List.nil_append]
    intro x hx
    rcases List.mem_append.mp hx with hx | hx
    · exact hrel' x hx
    · obtain ⟨m, hm, rfl⟩ := List.mem_map.mp hx
      obtain ⟨h, rfl, -⟩ := mem_releaseSource.mp hm
      exact ⟨hg, h, rfl⟩
  · split
    · obtain ⟨h1, h2, h3, h4, -⟩ := handleMidiFrame_fields filter room
        { s with sources := observe s.sources f } f
      refine ⟨loopOk_sent (by exact h1.trans hp) pos, ?_, ?_⟩
      · exact Nat.le_trans (Nat.le_of_eq h3) (Nat.le_trans S.generation h4)
      · rw [frames_sent]
        intro x hx
        simp only [List.nil_append, h2] at hx
        show IsRelease (handleMidiFrame filter room _ f).generation x
        rw [h3]
        exact hrel' x hx
    · refine ⟨loopOk_continued (by exact hp) pos, Nat.le_succ_of_le S.generation, ?_⟩
      rw [frames_continued]
      exact hrel'

/-- The frame in hand goes and the slots stay. -/
theorem Slots.lets {s s' : St} (S : Slots s) (hg : s'.generation = s.generation)
    (hm : s'.midiGeneration = s.midiGeneration) (hsc : s'.scopedReleases = s.scopedReleases)
    (hf : s'.loop.frames true = [] ∨ s'.loop.frames true = s.loop.frames true)
    (hok : LoopOk s' s'.loop) : Slots s' := by
  refine ⟨hok, by rw [hg, hm]; exact S.generation, ?_⟩
  rw [hg, hsc]
  intro f h
  rcases hf with hf | hf
  · rw [hf] at h
    exact S.releases f (List.mem_append_right _ h)
  · rw [hf] at h
    exact S.releases f h

theorem slots_loopStep {filter : Option UInt8} {room : List UInt8 → Bool} {cloned : Bool}
    {s s' : St} (S : Slots s) (hst : loopStep filter room cloned s s.loop = some s') :
    Slots s' := by
  have hok := S.loop
  cases hu : s.loop with
  | stop =>
    rw [hu] at hst hok
    simp only [loopStep, Option.some.injEq] at hst; subst hst
    split
    · exact S.lets rfl rfl rfl (.inl rfl) trivial
    · exact S.lets rfl rfl rfl (.inl rfl) hok
  | observe =>
    rw [hu] at hst hok
    simp only [loopStep, Option.some.injEq] at hst; subst hst
    split
    · exact ⟨fun _ => rfl, Nat.le_refl _, nofun⟩
    · exact S.lets rfl rfl rfl (.inl rfl) hok
  | resetAudio | panic =>
    rw [hu] at hst hok
    simp only [loopStep, Option.some.injEq] at hst; subst hst
    exact S.lets rfl rfl rfl (.inl rfl) hok
  | recv =>
    rw [hu] at hst hok
    simp only [loopStep, Option.some.injEq] at hst; subst hst
    split
    · rename_i f scopedReleases hsc
      have hp : s.pending = none := by
        by_contra hp
        rw [hok hp] at hsc
        cases hsc
      refine ⟨⟨hp, nofun⟩, S.generation, fun x hx => S.releases x ?_⟩
      rw [hu, hsc]
      exact hx
    · rename_i hsc hp
      exact S.lets rfl rfl rfl (.inl rfl) ⟨rfl, fun _ => hsc⟩
    · rename_i hsc hp hq
      exact S.lets rfl rfl rfl (.inl rfl) ⟨hp, fun _ => hsc⟩
    · rename_i hsc hp hq
      split
      · exact S.lets rfl rfl rfl (.inl rfl) trivial
      · exact S.lets rfl rfl rfl (.inl rfl) fun h => absurd hp h
  | received f r =>
    rw [hu] at hst hok
    simp only [loopStep, Option.some.injEq] at hst; subst hst
    split
    · exact S.lets rfl rfl rfl (.inl rfl) trivial
    · exact S.lets rfl rfl rfl (.inr (by rw [hu]; rfl)) hok
  | act f r pos =>
    rw [hu] at hst hok
    obtain ⟨hp, hsc⟩ := hok
    simp only [loopStep, Option.some.injEq] at hst; subst hst
    split
    · exact S.lets rfl rfl rfl (.inl (frames_continued pos true)) (loopOk_continued (by exact hp) pos)
    · rename_i hdefer
      cases r with
      | false => exact S.lets rfl rfl rfl (.inl rfl) fun _ => hsc rfl
      | true =>
        have hr := S.releases f (by simp [hu, Loop.frames])
        rw [hr.1] at hdefer
        exact absurd hdefer (generationAction_handled_ne_defer S.generation (Nat.le_refl 0))
    · rename_i hready
      have hg := (generationAction_ready.mp hready).1
      simp only [Prod.mk.injEq, and_true] at hg
      exact S.lets rfl rfl rfl (.inr (by rw [hu]; rfl)) ⟨⟨hp, hsc⟩, hg⟩
  | handle f r pos =>
    rw [hu] at hst
    simp only [loopStep, Option.some.injEq] at hst; subst hst
    exact slots_handle S hu
  | batchStop n | batchGeneration n =>
    rw [hu] at hst hok
    simp only [loopStep, Option.some.injEq] at hst; subst hst
    refine S.lets rfl rfl rfl (.inl ?_) ?_
    · split <;> rfl
    · split
      · exact fun h => absurd hok h
      · exact hok
  | batchRecv n =>
    rw [hu] at hst hok
    simp only [loopStep, Option.some.injEq] at hst; subst hst
    split
    · rename_i f scopedReleases hsc
      refine ⟨⟨hok, nofun⟩, S.generation, fun x hx => S.releases x ?_⟩
      rw [hu, hsc]
      exact hx
    · rename_i hsc hq
      exact S.lets rfl rfl rfl (.inl rfl) ⟨hok, fun _ => hsc⟩
    · exact S.lets rfl rfl rfl (.inl rfl) fun h => absurd hok h
  | ended => simp [hu, loopStep] at hst

theorem slots_step {filter : Option UInt8} {s s' : St} {l : Lbl} (S : Slots s)
    (hst : step filter s l = some s') : Slots s' := by
  cases l with
  | reset =>
    simp only [step, Option.some.injEq] at hst; subst hst
    exact { S with generation := Nat.le_succ_of_le S.generation }
  | stop | disconnect =>
    simp only [step, Option.some.injEq] at hst; subst hst
    exact { S with }
  | enqueue f =>
    simp only [step] at hst
    split at hst
    · cases hst
    · simp only [Option.some.injEq] at hst; subst hst
      unfold enqueue
      split
      · exact S
      · exact { S with }
  | loop room cloned => exact slots_loopStep S hst

theorem slots_inductive (filter : Option UInt8) (g₀ : Nat) : (lts filter g₀).Inductive Slots where
  init := by
    rintro s rfl
    exact ⟨fun _ => rfl, Nat.le_refl _, nofun⟩
  step _ _ _ S hst := slots_step S hst

/-! ## What becomes of every frame -/

def Event.taken : Event → List MidiFrame
  | .dequeued f => [f]
  | _ => []

/-- The frames an event is the end of, from the queue or among the releases. -/
def Event.settled (release : Bool) : Event → List MidiFrame
  | .handled f r | .discarded f r _ | .stopped f r => if r = release then [f] else []
  | .dropped f => if release then [] else [f]
  | .changed fs => if release then fs else []
  | _ => []

def Event.created : Event → List MidiFrame
  | .released fs => fs
  | _ => []

def dequeued (log : List Event) : List MidiFrame := log.flatMap Event.taken

def settled (release : Bool) (log : List Event) : List MidiFrame := log.flatMap (Event.settled release)

def created (log : List Event) : List MidiFrame := log.flatMap Event.created

/-- No release is left when a frame is taken from the queue. -/
def ReleasesFirst (xs : List Event) (e : Event) : Prop :=
  ∀ f, e = .dequeued f → created xs = settled true xs

/-- Why a frame was given up. -/
def EventOk (stop : Bool) : Event → Prop
  | .discarded f _ current => f.generation < current
  | .dropped f => 32 < f.data.length
  | .stopped _ _ => stop = true
  | _ => True

structure Ledger (s : St) : Prop where
  queue : s.admitted = dequeued s.log ++ s.queue
  frames : dequeued s.log = settled false s.log ++ s.loop.frames false ++ s.pending.toList
  releases : created s.log = settled true s.log ++ s.loop.frames true ++ s.scopedReleases
  first : AtEach ReleasesFirst s.log
  ok : ∀ e ∈ s.log, EventOk s.stop e

theorem Ledger.grow {s s' : St} (L : Ledger s) (new : List Event) (hl : s'.log = s.log ++ new)
    (hstop : s'.stop = s.stop) (ha : s'.admitted = s.admitted) (hq : s.queue = dequeued new ++ s'.queue)
    (hf : s.loop.frames false ++ s.pending.toList ++ dequeued new =
      settled false new ++ s'.loop.frames false ++ s'.pending.toList)
    (hr : s.loop.frames true ++ s.scopedReleases ++ created new =
      settled true new ++ s'.loop.frames true ++ s'.scopedReleases)
    (hd : ∀ f, .dequeued f ∈ new → new = [.dequeued f] ∧ s.loop.frames true = [] ∧
      s.scopedReleases = [])
    (hok : ∀ e ∈ new, EventOk s.stop e) : Ledger s' := by
  have happ : dequeued s'.log = dequeued s.log ++ dequeued new ∧
      (∀ r, settled r s'.log = settled r s.log ++ settled r new) ∧
      created s'.log = created s.log ++ created new := by
    simp [hl, dequeued, settled, created]
  obtain ⟨h1, h2, h3⟩ := happ
  refine ⟨?_, ?_, ?_, ?_, ?_⟩
  · rw [ha, h1, L.queue, hq, List.append_assoc]
  · rw [h1, h2, L.frames]
    simp only [List.append_assoc] at hf ⊢
    rw [hf]
  · rw [h3, h2, L.releases]
    simp only [List.append_assoc] at hr ⊢
    rw [hr]
  · rw [hl]
    refine L.first.append fun xs e ys he f hef => ?_
    subst hef
    obtain ⟨hnew, hframes, hsc⟩ := hd f (by simp [he])
    rw [hnew] at he
    cases xs with
    | nil =>
      rw [List.append_nil, L.releases, hframes, hsc, List.append_nil, List.append_nil]
    | cons x xs => simp at he
  · intro e h
    rw [hl] at h
    rw [hstop]
    rcases List.mem_append.mp h with h | h
    · exact L.ok e h
    · exact hok e h

/-- Nothing is logged. -/
theorem Ledger.moves {s s' : St} (L : Ledger s) (hl : s'.log = s.log) (hstop : s'.stop = s.stop)
    (ha : s'.admitted = s.admitted) (hq : s'.queue = s.queue)
    (hf : s.loop.frames false ++ s.pending.toList = s'.loop.frames false ++ s'.pending.toList)
    (hr : s.loop.frames true ++ s.scopedReleases = s'.loop.frames true ++ s'.scopedReleases) :
    Ledger s' :=
  L.grow [] (by rw [hl, List.append_nil]) hstop ha hq.symm (by simpa [dequeued, settled] using hf)
    (by simpa [created, settled] using hr) nofun nofun

theorem ledger_handle {filter : Option UInt8} {room : List UInt8 → Bool} {cloned : Bool} {s : St}
    {f : MidiFrame} {r : Bool} {pos : Position} (S : Slots s) (L : Ledger s)
    (hu : s.loop = .handle f r pos) : Ledger (handle filter room cloned s f r pos) := by
  unfold handle
  split
  · refine L.grow [.handled f r, .released (releaseFrames s.sources f)] rfl rfl rfl rfl ?_ ?_ (by simp)
      (by simp [EventOk])
    · simp only [frames_continued]
      cases r <;> simp [hu, Loop.frames, dequeued, settled, Event.taken,
        Event.settled]
    · simp only [frames_continued]
      cases r <;> simp [hu, Loop.frames, created, settled, Event.created,
        Event.settled]
  · split
    · obtain ⟨h1, h2, -, -, h5, h6, h7, -, h8⟩ := handleMidiFrame_fields filter room
        { s with sources := observe s.sources f } f
      refine L.grow [.handled f r] rfl h8 h7 h6.symm ?_ ?_ (by simp) (by simp [EventOk])
      · simp only [frames_sent, h1]
        cases r <;> simp [hu, Loop.frames, dequeued, settled, Event.taken,
          Event.settled]
      · simp only [frames_sent, h2]
        cases r <;> simp [hu, Loop.frames, created, settled, Event.created,
          Event.settled]
    · rename_i hclone
      cases r with
      | true =>
        have hrel := S.releases f (by simp [hu, Loop.frames])
        obtain ⟨h, hdata⟩ := hrel.2
        have hlen : f.data.length ≤ 32 := by
          rw [hdata]
          cases h <;> simp [releaseMessage]
        exact absurd (.inl hlen) hclone
      | false =>
        simp only [not_or, Nat.not_le] at hclone
        refine L.grow [.dropped f] rfl rfl rfl rfl ?_ ?_ (by simp) (by simp [EventOk, hclone.1])
        · simp only [frames_continued]
          simp [hu, Loop.frames, dequeued, settled, Event.taken, Event.settled]
        · simp only [frames_continued]
          simp [hu, Loop.frames, created, settled, Event.created, Event.settled]

theorem ledger_loopStep {filter : Option UInt8} {room : List UInt8 → Bool} {cloned : Bool}
    {s s' : St} (S : Slots s) (L : Ledger s) (hst : loopStep filter room cloned s s.loop = some s') :
    Ledger s' := by
  have hok := S.loop
  cases hu : s.loop with
  | stop | batchStop n | batchGeneration n =>
    rw [hu] at hst
    simp only [loopStep, Option.some.injEq] at hst; subst hst
    refine L.moves ?_ ?_ ?_ ?_ ?_ ?_ <;> split <;> simp [hu, leave, Loop.frames]
  | observe =>
    rw [hu] at hst
    simp only [loopStep, Option.some.injEq] at hst; subst hst
    split
    · refine L.grow [.changed s.scopedReleases] rfl rfl rfl rfl ?_ ?_ (by simp) (by simp [EventOk])
      · simp [hu, Loop.frames, dequeued, settled, Event.taken, Event.settled]
      · simp [hu, Loop.frames, created, settled, Event.created, Event.settled]
    · exact L.moves rfl rfl rfl rfl (by rw [hu]; rfl) (by rw [hu]; rfl)
  | resetAudio =>
    rw [hu] at hst
    simp only [loopStep, Option.some.injEq] at hst; subst hst
    exact L.grow [.resetAudio s.generation] rfl rfl rfl rfl (by simp [hu, Loop.frames, dequeued, settled,
      Event.taken, Event.settled]) (by simp [hu, Loop.frames, created, settled, Event.created,
      Event.settled]) (by simp) (by simp [EventOk])
  | panic =>
    rw [hu] at hst
    simp only [loopStep, Option.some.injEq] at hst; subst hst
    exact L.grow [.panicked s.generation] rfl rfl rfl rfl (by simp [hu, Loop.frames, dequeued, settled,
      Event.taken, Event.settled]) (by simp [hu, Loop.frames, created, settled, Event.created,
      Event.settled]) (by simp) (by simp [EventOk])
  | recv =>
    rw [hu] at hst
    simp only [loopStep, Option.some.injEq] at hst; subst hst
    split
    · rename_i f scopedReleases hsc
      exact L.moves rfl rfl rfl rfl (by simp [hu, Loop.frames]) (by simp [hu, Loop.frames, hsc])
    · rename_i f hsc hp
      exact L.moves rfl rfl rfl rfl (by simp [hu, Loop.frames, hp]) (by simp [hu, Loop.frames])
    · rename_i f queue hsc hp hq
      exact L.grow [.dequeued f] rfl rfl rfl (by simp [hq, dequeued, Event.taken])
        (by simp [hu, hp, Loop.frames, dequeued, settled, Event.taken, Event.settled])
        (by simp [hu, Loop.frames, created, settled, Event.created, Event.settled])
        (by simp [hu, hsc, Loop.frames]) (by simp [EventOk])
    · refine L.moves ?_ ?_ ?_ ?_ ?_ ?_ <;> split <;> simp [hu, leave, Loop.frames]
  | received f r =>
    rw [hu] at hst
    simp only [loopStep, Option.some.injEq] at hst; subst hst
    split
    · rename_i hstop
      refine L.grow [.stopped f r] rfl rfl rfl rfl ?_ ?_ (by simp) (by simp [EventOk, hstop])
      · cases r <;> simp [hu, leave, Loop.frames, dequeued, settled, Event.taken, Event.settled]
      · cases r <;> simp [hu, leave, Loop.frames, created, settled, Event.created, Event.settled]
    · exact L.moves rfl rfl rfl rfl (by rw [hu]; rfl) (by rw [hu]; rfl)
  | act f r pos =>
    rw [hu] at hst hok
    simp only [loopStep, Option.some.injEq] at hst; subst hst
    split
    · rename_i hdiscard
      refine L.grow [.discarded f r s.midiGeneration] rfl rfl rfl rfl ?_ ?_ (by simp) ?_
      · simp only [frames_continued]
        cases r <;> simp [hu, Loop.frames, dequeued, settled, Event.taken, Event.settled]
      · simp only [frames_continued]
        cases r <;> simp [hu, Loop.frames, created, settled, Event.created, Event.settled]
      · intro e h
        rw [List.mem_singleton.mp h]
        simpa [EventOk] using generationAction_discard.mp hdiscard
    · rename_i hdefer
      cases r with
      | true =>
        have hrel := S.releases f (by simp [hu, Loop.frames])
        rw [hrel.1] at hdefer
        exact absurd hdefer (generationAction_handled_ne_defer S.generation (Nat.le_refl 0))
      | false => exact L.moves rfl rfl rfl rfl (by simp [hu, Loop.frames, hok.1]) (by simp [hu, Loop.frames])
    · exact L.moves rfl rfl rfl rfl (by rw [hu]; rfl) (by rw [hu]; rfl)
  | handle f r pos =>
    rw [hu] at hst
    simp only [loopStep, Option.some.injEq] at hst; subst hst
    exact ledger_handle S L hu
  | batchRecv n =>
    rw [hu] at hst
    simp only [loopStep, Option.some.injEq] at hst; subst hst
    split
    · rename_i f scopedReleases hsc
      exact L.moves rfl rfl rfl rfl (by simp [hu, Loop.frames]) (by simp [hu, Loop.frames, hsc])
    · rename_i f queue hsc hq
      have hp : s.pending = none := by
        rw [hu] at hok
        exact hok
      exact L.grow [.dequeued f] rfl rfl rfl (by simp [hq, dequeued, Event.taken])
        (by simp [hu, hp, Loop.frames, dequeued, settled, Event.taken, Event.settled])
        (by simp [hu, Loop.frames, created, settled, Event.created, Event.settled])
        (by simp [hu, hsc, Loop.frames]) (by simp [EventOk])
    · exact L.moves rfl rfl rfl rfl (by rw [hu]; rfl) (by rw [hu]; rfl)
  | ended => simp [hu, loopStep] at hst

theorem ledger_step {filter : Option UInt8} {s s' : St} {l : Lbl} (S : Slots s) (L : Ledger s)
    (hst : step filter s l = some s') : Ledger s' := by
  cases l with
  | reset | disconnect =>
    simp only [step, Option.some.injEq] at hst; subst hst
    exact { L with }
  | stop =>
    simp only [step, Option.some.injEq] at hst; subst hst
    refine { L with ok := fun e he => ?_ }
    have hok := L.ok e he
    cases e <;> first | exact hok | exact rfl
  | enqueue f =>
    simp only [step] at hst
    split at hst
    · cases hst
    · simp only [Option.some.injEq] at hst; subst hst
      unfold enqueue
      split
      · exact L
      · exact { L with queue := by simp only; rw [L.queue, List.append_assoc] }
  | loop room cloned => exact ledger_loopStep S L hst

theorem ledger_inductive (filter : Option UInt8) (g₀ : Nat) :
    (lts filter g₀).InductiveUnder Slots Ledger where
  init := by
    rintro s rfl
    exact ⟨rfl, rfl, rfl, atEach_nil _, nofun⟩
  step _ _ _ S L hst := ledger_step S L hst

/-! ## The resets of a generation come before its frames -/

def ResetFirst (g₀ : Nat) (xs : List Event) (e : Event) : Prop :=
  ∀ f r, e = .handled f r → f.generation ≠ g₀ →
    .resetAudio f.generation ∈ xs ∧ .panicked f.generation ∈ xs

structure Issued (g₀ : Nat) (s : St) : Prop where
  audio : s.generation ≠ g₀ → s.loop ≠ .resetAudio → .resetAudio s.generation ∈ s.log
  panicked : s.generation ≠ g₀ → s.loop ≠ .resetAudio → s.loop ≠ .panic →
    .panicked s.generation ∈ s.log
  first : AtEach (ResetFirst g₀) s.log

theorem Issued.grow {g₀ : Nat} {s s' : St} (I : Issued g₀ s) (new : List Event)
    (hr : s.loop ≠ .resetAudio) (hp : s.loop ≠ .panic) (hg : s'.generation = s.generation)
    (hl : s'.log = s.log ++ new)
    (hh : ∀ f r, .handled f r ∈ new → f.generation = s.generation) : Issued g₀ s' := by
  refine ⟨fun h _ => ?_, fun h _ _ => ?_, ?_⟩
  · rw [hg] at h ⊢
    rw [hl]
    exact List.mem_append_left _ (I.audio h hr)
  · rw [hg] at h ⊢
    rw [hl]
    exact List.mem_append_left _ (I.panicked h hr hp)
  · rw [hl]
    refine I.first.append fun xs e ys he f r hef hf => ?_
    have hgen := hh f r (by simp [he, hef])
    rw [hgen] at hf ⊢
    exact ⟨List.mem_append_left _ (I.audio hf hr), List.mem_append_left _ (I.panicked hf hr hp)⟩

/-- An event that hands out no frame. -/
theorem AtEach.resetFirst {g₀ : Nat} {log : List Event} {e : Event} (h : AtEach (ResetFirst g₀) log)
    (he : ∀ f r, e ≠ .handled f r) : AtEach (ResetFirst g₀) (log ++ [e]) :=
  AtEach.concat h fun f r hf => absurd hf (he f r)

theorem issued_loopStep {filter : Option UInt8} {room : List UInt8 → Bool} {cloned : Bool} {g₀ : Nat}
    {s s' : St} (S : Slots s) (I : Issued g₀ s)
    (hst : loopStep filter room cloned s s.loop = some s') : Issued g₀ s' := by
  have hok := S.loop
  cases hu : s.loop with
  | stop | batchStop n | batchGeneration n =>
    rw [hu] at hst
    simp only [loopStep, Option.some.injEq] at hst; subst hst
    refine I.grow [] (by rw [hu]; nofun) (by rw [hu]; nofun) ?_ ?_ nofun <;> split <;> simp [leave]
  | observe =>
    rw [hu] at hst
    simp only [loopStep, Option.some.injEq] at hst; subst hst
    split
    · exact ⟨fun _ h => absurd rfl h, fun _ h => absurd rfl h, AtEach.resetFirst I.first nofun⟩
    · exact I.grow [] (by rw [hu]; nofun) (by rw [hu]; nofun) rfl (List.append_nil _).symm nofun
  | resetAudio =>
    rw [hu] at hst
    simp only [loopStep, Option.some.injEq] at hst; subst hst
    exact ⟨fun _ _ => List.mem_concat_self, fun _ _ h => absurd rfl h, AtEach.resetFirst I.first nofun⟩
  | panic =>
    rw [hu] at hst
    simp only [loopStep, Option.some.injEq] at hst; subst hst
    exact ⟨fun h _ => List.mem_append_left _ (I.audio h (by rw [hu]; nofun)),
      fun _ _ _ => List.mem_concat_self, AtEach.resetFirst I.first nofun⟩
  | recv =>
    rw [hu] at hst
    simp only [loopStep, Option.some.injEq] at hst; subst hst
    split
    · exact I.grow [] (by rw [hu]; nofun) (by rw [hu]; nofun) rfl (List.append_nil _).symm nofun
    · exact I.grow [] (by rw [hu]; nofun) (by rw [hu]; nofun) rfl (List.append_nil _).symm nofun
    · rename_i f _ _ _ _
      exact I.grow [.dequeued f] (by rw [hu]; nofun) (by rw [hu]; nofun) rfl rfl (by simp)
    · refine I.grow [] (by rw [hu]; nofun) (by rw [hu]; nofun) ?_ ?_ nofun <;> split <;> simp [leave]
  | batchRecv n =>
    rw [hu] at hst
    simp only [loopStep, Option.some.injEq] at hst; subst hst
    split
    · exact I.grow [] (by rw [hu]; nofun) (by rw [hu]; nofun) rfl (List.append_nil _).symm nofun
    · rename_i f _ _ _
      exact I.grow [.dequeued f] (by rw [hu]; nofun) (by rw [hu]; nofun) rfl rfl (by simp)
    · exact I.grow [] (by rw [hu]; nofun) (by rw [hu]; nofun) rfl (List.append_nil _).symm nofun
  | received f r =>
    rw [hu] at hst
    simp only [loopStep, Option.some.injEq] at hst; subst hst
    split
    · exact I.grow [.stopped f r] (by rw [hu]; nofun) (by rw [hu]; nofun) rfl rfl (by simp)
    · exact I.grow [] (by rw [hu]; nofun) (by rw [hu]; nofun) rfl (List.append_nil _).symm nofun
  | act f r pos =>
    rw [hu] at hst
    simp only [loopStep, Option.some.injEq] at hst; subst hst
    split
    · exact I.grow [.discarded f r s.midiGeneration] (by rw [hu]; nofun) (by rw [hu]; nofun) rfl rfl
        (by simp)
    · exact I.grow [] (by rw [hu]; nofun) (by rw [hu]; nofun) rfl (List.append_nil _).symm nofun
    · exact I.grow [] (by rw [hu]; nofun) (by rw [hu]; nofun) rfl (List.append_nil _).symm nofun
  | handle f r pos =>
    rw [hu] at hst hok
    have hg : f.generation = s.generation := hok.2
    simp only [loopStep, Option.some.injEq] at hst; subst hst
    have hone : ∀ x r' l, Event.handled x r' ∈ Event.handled f r :: l → (∀ y r', .handled y r' ∉ l) →
        x.generation = s.generation := by
      intro x r' l hx hl
      rcases List.mem_cons.mp hx with hx | hx
      · cases hx
        exact hg
      · exact absurd hx (hl x r')
    unfold handle
    split
    · exact I.grow [.handled f r, .released (releaseFrames s.sources f)] (by rw [hu]; nofun)
        (by rw [hu]; nofun) rfl rfl fun x r' hx => hone x r' _ hx (by simp)
    · split
      · have hg' := (handleMidiFrame_fields filter room
          { s with sources := observe s.sources f } f).2.2.1
        exact I.grow [.handled f r] (by rw [hu]; nofun) (by rw [hu]; nofun) hg' rfl
          fun x r' hx => hone x r' _ hx (by simp)
      · exact I.grow [.dropped f] (by rw [hu]; nofun) (by rw [hu]; nofun) rfl rfl (by simp)
  | ended => simp [hu, loopStep] at hst

theorem issued_step {filter : Option UInt8} {g₀ : Nat} {s s' : St} {l : Lbl} (S : Slots s)
    (I : Issued g₀ s) (hst : step filter s l = some s') : Issued g₀ s' := by
  cases l with
  | reset | stop | disconnect =>
    simp only [step, Option.some.injEq] at hst; subst hst
    exact { I with }
  | enqueue f =>
    simp only [step] at hst
    split at hst
    · cases hst
    · simp only [Option.some.injEq] at hst; subst hst
      unfold enqueue
      split
      · exact I
      · exact { I with }
  | loop room cloned => exact issued_loopStep S I hst

theorem issued_inductive (filter : Option UInt8) (g₀ : Nat) :
    (lts filter g₀).InductiveUnder Slots (Issued g₀) where
  init := by
    rintro s rfl
    exact ⟨fun h => absurd rfl h, fun h => absurd rfl h, atEach_nil _⟩
  step _ _ _ S I hst := issued_step S I hst

/-! ## Headline property: generation discipline -/

def handledFrames (log : List Event) : List MidiFrame :=
  log.flatMap fun e => match e with
    | .handled f false => [f]
    | _ => []

theorem handled_sublist (log : List Event) : (handledFrames log).Sublist (settled false log) := by
  induction log with
  | nil => exact List.Sublist.refl _
  | cons e log ih =>
    simp only [handledFrames, settled, List.flatMap_cons] at ih ⊢
    refine List.Sublist.append ?_ ih
    match e with
    | .handled _ false => exact List.Sublist.refl _
    | .handled _ true | .dequeued _ | .discarded _ _ _ | .dropped _ | .stopped _ _ | .released _
    | .changed _ | .resetAudio _ | .panicked _ => exact List.nil_sublist _

theorem pending_loopStep {filter : Option UInt8} {room : List UInt8 → Bool} {cloned : Bool}
    {s s' : St} {f : MidiFrame} (S : Slots s) (hp : s.pending = some f)
    (hst : loopStep filter room cloned s s.loop = some s') :
    s'.pending = some f ∨ s'.pending = none ∧ s'.loop.frames false = [f] := by
  have hok := S.loop
  have hne : s.pending ≠ none := by rw [hp]; nofun
  cases hu : s.loop with
  | stop | observe =>
    rw [hu] at hst
    simp only [loopStep, Option.some.injEq] at hst; subst hst
    left
    split <;> exact hp
  | resetAudio | panic =>
    rw [hu] at hst
    simp only [loopStep, Option.some.injEq] at hst; subst hst
    exact .inl hp
  | recv =>
    rw [hu] at hst hok
    simp only [loopStep, Option.some.injEq] at hst; subst hst
    rw [hok hne, hp]
    exact .inr ⟨rfl, rfl⟩
  | received | act =>
    rw [hu] at hok
    exact absurd hok.1 hne
  | handle =>
    rw [hu] at hok
    exact absurd hok.1.1 hne
  | batchStop | batchGeneration | batchRecv =>
    rw [hu] at hok
    exact absurd hok hne
  | ended => simp [hu, loopStep] at hst

/-- A pending frame stays until the loop takes it in hand. -/
theorem pending_kept {filter : Option UInt8} {s s' : St} {l : Lbl} {f : MidiFrame} (S : Slots s)
    (hp : s.pending = some f) (hst : step filter s l = some s') :
    s'.pending = some f ∨ s'.pending = none ∧ s'.loop.frames false = [f] := by
  cases l with
  | reset | stop | disconnect =>
    simp only [step, Option.some.injEq] at hst; subst hst
    exact .inl hp
  | enqueue x =>
    simp only [step] at hst
    split at hst
    · cases hst
    · simp only [Option.some.injEq] at hst; subst hst
      unfold enqueue
      left
      split <;> exact hp
  | loop room cloned => exact pending_loopStep S hp hst

/-- The pending slot is never overwritten. What was queued is taken in
order, and every frame taken is handled, discarded as older than the
generation just read, dropped for want of a buffer, in hand when the loop is
told to stop, in hand or pending; the frames handled keep the queue's order.
The releases of a peer reset are handled, discarded as old or cleared by a
new generation, all before another frame is taken from the queue. A frame
of a generation that the loop did not start with is handled after the audio
reset and the panic of its generation. -/
theorem generation_discipline (filter : Option UInt8) (g₀ : Nat) (s : St)
    (h : (lts filter g₀).Reachable s) :
    (∀ l s' f, step filter s l = some s' → s.pending = some f →
      s'.pending = some f ∨ s'.pending = none ∧ s'.loop.frames false = [f]) ∧
    s.admitted = dequeued s.log ++ s.queue ∧
    dequeued s.log = settled false s.log ++ s.loop.frames false ++ s.pending.toList ∧
    (∀ e ∈ s.log, EventOk s.stop e) ∧
    (handledFrames s.log).Sublist s.admitted ∧
    created s.log = settled true s.log ++ s.loop.frames true ++ s.scopedReleases ∧
    AtEach ReleasesFirst s.log ∧
    AtEach (ResetFirst g₀) s.log := by
  have S := (slots_inductive filter g₀).reachable s h
  have L := (ledger_inductive filter g₀).reachable (slots_inductive filter g₀) s h
  have I := (issued_inductive filter g₀).reachable (slots_inductive filter g₀) s h
  refine ⟨fun l s' f hst hp => pending_kept S hp hst, L.queue, L.frames, L.ok, ?_, L.releases,
    L.first, I.first⟩
  rw [L.queue, L.frames, List.append_assoc, List.append_assoc]
  exact (handled_sublist s.log).trans (List.sublist_append_left _ _)

/-! ## Non-vacuity: a peer reset, a new generation, a frame without a buffer -/

theorem reachable_of_run {filter : Option UInt8} {g₀ : Nat} {p : St → Bool} (ls : List Lbl)
    (h : (LTS.exec (step filter) (init g₀) ls).any p = true) :
    ∃ s, (lts filter g₀).Reachable s ∧ p s = true :=
  LTS.reachable_of_any ls rfl h

def go : Lbl := .loop (fun _ => true) true

def goes (n : Nat) : List Lbl := List.replicate n go

def message (generation : Nat) (data : List UInt8) : MidiFrame := ⟨generation, "RTP:A", data⟩

def noteOn (generation : Nat) (note : UInt8) : MidiFrame := message generation [0x90, note, 100]

/-- The source's note is released by its reset before the next note; a
newer note waits for its generation. -/
def traceReset : List Lbl :=
  [.enqueue (noteOn 0 60), .enqueue (message 0 [0xFF]), .enqueue (noteOn 0 62),
      .enqueue (noteOn 1 64)] ++
    goes 40 ++ [.reset] ++ goes 20

theorem traceReset_result : (LTS.exec (step none) (init 0) traceReset).any fun s =>
    handledFrames s.log = [noteOn 0 60, message 0 [0xFF], noteOn 0 62, noteOn 1 64] ∧
      settled true s.log = [message 0 [0x80, 60, 0]] := by decide +kernel

theorem traceReset_in_order : ∃ s : St, handledFrames s.log = [noteOn 0 60, message 0 [0xFF], noteOn 0 62,
    noteOn 1 64] ∧ settled true s.log = [message 0 [0x80, 60, 0]] ∧
    (handledFrames s.log).Sublist s.admitted ∧ AtEach (ResetFirst 0) s.log := by
  obtain ⟨s, hr, hs⟩ := reachable_of_run traceReset traceReset_result
  simp only [decide_eq_true_eq] at hs
  have h := generation_discipline none 0 s hr
  exact ⟨s, hs.1, hs.2, h.2.2.2.2.1, h.2.2.2.2.2.2.2⟩

def sysEx : MidiFrame := message 0 (0xF0 :: List.replicate 31 1 ++ [0xF7])

/-- A long message finds no buffer. -/
def traceNoBuffer : List Lbl := [.enqueue sysEx] ++ goes 5 ++ [.loop (fun _ => true) false]

theorem traceNoBuffer_result : (LTS.exec (step none) (init 0) traceNoBuffer).any fun s =>
    dequeued s.log = [sysEx] ∧ s.log = [.dequeued sysEx, .dropped sysEx] ∧
      s.pending = none ∧ s.loop.frames false = [] := by decide +kernel

theorem traceFirst_result : (LTS.exec (step none) (init 0) ([.enqueue (noteOn 0 60)] ++ goes 6)).any
    fun s => s.log = [.dequeued (noteOn 0 60), .handled (noteOn 0 60) false] := by decide +kernel

/-- A frame taken from the queue can be lost without being old, and the
frames of the loop's first generation follow no reset. -/
theorem noBuffer_loses_frame :
    (¬∀ s, (lts none 0).Reachable s → ∀ f ∈ dequeued s.log,
      .handled f false ∈ s.log ∨ (∃ c, .discarded f false c ∈ s.log) ∨ f ∈ s.loop.frames false ∨
        s.pending = some f) ∧
    ¬∀ s, (lts none 0).Reachable s → AtEach
      (fun xs e => ∀ f r, e = .handled f r → .resetAudio f.generation ∈ xs) s.log := by
  refine ⟨fun h => ?_, fun h => ?_⟩
  · obtain ⟨s, hr, hs⟩ := reachable_of_run traceNoBuffer traceNoBuffer_result
    simp only [decide_eq_true_eq] at hs
    obtain ⟨hd, hl, hp, hf⟩ := hs
    have := h s hr sysEx (by simp [hd])
    simp [hl, hp, hf] at this
  · obtain ⟨s, hr, hs⟩ := reachable_of_run _ traceFirst_result
    simp only [decide_eq_true_eq] at hs
    have := h s hr [.dequeued (noteOn 0 60)]
      (.handled (noteOn 0 60) false) [] hs (noteOn 0 60) false rfl
    simp at this

end RtpOscMidi.L5.ProcessingLoop
