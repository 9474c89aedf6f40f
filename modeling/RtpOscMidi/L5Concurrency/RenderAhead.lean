import RtpOscMidi.Core.LTS
import RtpOscMidi.Core.Lists
import RtpOscMidi.Core.Saturating

/-!
# The render-ahead block pool

The DSP thread (`RenderProducer::render_next_at`) and the driver callback
(`AudioOutput::copy_into`) pass a fixed set of audio blocks around two rings:
`free` to the renderer, `ready` to the callback. A step is one access to
something the threads share (an atomic, a ring, the callback gate) together
with the thread-local work up to the next one; everything else the threads
share with the application (the MIDI generation, the emergency flag, the
gate, the phase, the anchor, the buffer size, another fault code) may change
between any two steps.

A frame is one sample for each channel, of any type `F`. What the callback
writes is kept symbolic (`Out`): the code scales the sample by the gain
written beside it. Telemetry that nothing here reads is left out.

`log`, `verdicts` and `output` record what was read from the blocks, what
became of every finished render, and what every call wrote.
-/
namespace RtpOscMidi.L5.RenderAhead

open Core

variable {F : Type}

/-- mirrors src-tauri/src/audio/render_ahead.rs:12-16 -/
structure Request where
  frames : Nat
  sourceEndUs : Nat
  deriving DecidableEq, Repr

/-- `samples` is what the last render wrote, the first `request.frames`
frames of the storage.
mirrors src-tauri/src/audio/render_ahead.rs:18-23 -/
structure Block (F : Type) where
  samples : List F
  request : Request
  generation : Nat
  primeIndex : Option Nat
  deriving DecidableEq, Repr

structure Cfg where
  channels : Nat
  maxFrames : Nat
  sampleRate : Nat
  blocks : Nat
  deriving DecidableEq, Repr

/-- Numerator and denominator of a ramp; `none` is 1. -/
abbrev Gain := Option (Nat × Nat)

/-- A frame of the device buffer. -/
inductive Out (F : Type) where
  | silence
  | sample (x : F) (gain : Gain)
  /-- frame `k` of the `n` that fade out the last sample -/
  | fade (x : F) (gain : Gain) (k n : Nat)
  deriving DecidableEq, Repr

/-- Why a finished render or a queued frame was thrown away. -/
inductive Stale where
  | generation (block current : Nat) (h : block ≠ current)
  | emergency
  deriving DecidableEq, Repr

/-- A call of `copy_into` that got past its checks. -/
structure Job (F : Type) where
  now : Nat
  total : Nat
  resetting : Bool
  written : Nat
  discarded : Nat
  data : List (Out F)
  deriving DecidableEq, Repr

/-- `render_next_at` between its shared accesses; `idle` has what it returned.
mirrors src-tauri/src/audio/render_ahead.rs:186-251 -/
inductive Rend (F : Type) where
  | idle (rendered : Bool)
  | phase (now : Nat)
  | gate (now : Nat)
  | full (now : Nat)
  | take (now : Nat)
  | primeFrames (now index : Nat) (b : Block F)
  | primeAnchor (now index : Nat) (b : Block F)
  | render (b : Block F)
  | checkGeneration (b : Block F) (generation : Nat)
  | checkEmergency (b : Block F) (generation : Nat)
  | addFrames (b : Block F)
  | push (b : Block F)
  | subFrames (b : Block F)
  deriving DecidableEq, Repr

/-- `copy_into`, with `return_current` inside it, between its shared
accesses; `idle` has what it returned, `stale` why the block is returned.
mirrors src-tauri/src/audio/render_ahead.rs:255-437 -/
inductive Call (F : Type) where
  | idle (missing : Nat)
  | phase (now total : Nat)
  | enter (now total : Nat)
  | fault (total : Nat)
  | raiseEmergency (total : Nat)
  | loadGeneration (now total : Nat)
  | loadEmergency (now total generation : Nat)
  | storeFrames (now total : Nat) (resetting : Bool)
  | pop (j : Job F)
  | checkGeneration (j : Job F)
  | checkEmergency (j : Job F)
  | discard (j : Job F) (why : Stale)
  | play (j : Job F)
  | returnFrames (j : Job F) (stale : Bool) (b : Block F)
  | returnAnchor (j : Job F) (stale : Bool) (b : Block F) (frames : Nat)
  | returnClock (j : Job F) (stale : Bool) (b : Block F) (frames previous : Nat)
  | returnPush (j : Job F) (stale : Bool) (b : Block F)
  deriving DecidableEq, Repr

/-- `why = none`: the frame was written to the device buffer. -/
structure Read (F : Type) where
  frame : F
  why : Option Stale
  deriving DecidableEq, Repr

structure St (F : Type) where
  phase : Nat
  anchorUs : Nat
  frames : Nat
  generation : Nat
  emergency : Bool
  gateClosed : Bool
  fatal : Nat
  queueFrames : Int
  ready : List (Block F)
  free : List (Block F)
  pending : Option (Block F)
  waitingForSource : Bool
  rend : Rend F
  current : Option (Block F)
  offset : Nat
  last : Option (F × Gain)
  recovering : Bool
  lastEndpoint : Nat
  seenGeneration : Nat
  call : Call F
  verdicts : List (List F × Option Stale)
  log : List (Read F)
  output : List (List (Out F))
  deriving DecidableEq, Repr

inductive Lbl (F : Type) where
  | bumpGeneration
  | setEmergency (on : Bool)
  | setGate (closed : Bool)
  | setPhase (phase : Nat)
  | setAnchor (us : Nat)
  /-- `RenderControl::set_frames` -/
  | setFrames (frames : Nat)
  /-- a fault stored by another component -/
  | setFatal (code : Nat)
  | renderNext (now : Nat)
  | rend
  /-- the render closure returns -/
  | rendered (samples : List F) (generation : Option Nat)
  /-- the driver asks for `len` samples -/
  | copyInto (len now : Nat)
  | call
  deriving DecidableEq, Repr

/-- mirrors src-tauri/src/audio/render_ahead.rs:61-127 -/
def channel (c : Cfg) (frames : Nat) : Except String (St F) :=
  if ¬(1 ≤ c.blocks ∧ c.blocks ≤ 2) ∨ frames = 0 ∨ frames > c.maxFrames ∨ c.channels = 0 ∨
      c.sampleRate = 0 then
    .error "Invalid render-ahead configuration"
  else
    .ok {
      phase := 0, anchorUs := 0, frames, generation := 0, emergency := false, gateClosed := false,
      fatal := 0, queueFrames := 0, ready := [],
      free := (List.range c.blocks).map fun index => ⟨[], ⟨frames, 0⟩, 0, some index⟩,
      pending := none, waitingForSource := false, rend := .idle false, current := none,
      offset := 0, last := none, recovering := false, lastEndpoint := 0, seenGeneration := 0,
      call := .idle 0, verdicts := [], log := [], output := [] }

/-! ## Renderer -/

/-- The window test on the block in hand.
mirrors src-tauri/src/audio/render_ahead.rs:215-219 -/
def window (s : St F) (now : Nat) (b : Block F) : St F :=
  if b.request.sourceEndUs > now then
    { s with waitingForSource := true, pending := some b, rend := .idle false }
  else { s with rend := .render b }

/-- mirrors src-tauri/src/audio/render_ahead.rs:202-212 -/
def takeBlock (s : St F) (now : Nat) (b : Block F) : St F :=
  match b.primeIndex with
  | some index => { s with rend := .primeFrames now index { b with primeIndex := none } }
  | none => window s now b

/-- A finished render that is not queued goes back to `pending`.
mirrors src-tauri/src/audio/render_ahead.rs:222-249 -/
def reject (s : St F) (b : Block F) (why : Stale) : St F :=
  { s with pending := some b, rend := .idle false, verdicts := s.verdicts ++ [(b.samples, some why)] }

/-- mirrors src-tauri/src/audio/render_ahead.rs:186-251 -/
def rendStep (c : Cfg) (s : St F) : Rend F → Option (St F)
  | .idle _ => none
  | .phase now =>
    some { s with rend := if s.phase = 1 ∨ s.phase = 2 then .gate now else .idle false }
  | .gate now => some { s with rend := if s.gateClosed then .idle false else .full now }
  | .full now => some { s with rend := if s.ready.length = c.blocks then .idle false else .take now }
  | .take now =>
    match s.pending with
    | some b => some (takeBlock { s with pending := none } now b)
    | none =>
      match s.free with
      | b :: free => some (takeBlock { s with free } now b)
      | [] => some { s with rend := .idle false }
  | .primeFrames now index b =>
    let b := { b with request := { b.request with frames := s.frames } }
    some { s with rend := .primeAnchor now index b }
  | .primeAnchor now index b =>
    let period := b.request.frames * 1000000 / c.sampleRate
    some (window s now { b with
      request := { b.request with sourceEndUs := s.anchorUs - (c.blocks - index) * period } })
  | .render _ => none
  | .checkGeneration b g =>
    some (if h : g ≠ s.generation then reject s b (.generation g s.generation h)
          else { s with rend := .checkEmergency b g })
  | .checkEmergency b g =>
    some (if s.emergency then reject s b .emergency
          else { s with rend := .addFrames { b with generation := g } })
  | .addFrames b =>
    some { s with queueFrames := s.queueFrames + b.request.frames, rend := .push b }
  | .push b =>
    some (if s.ready.length < c.blocks then
            { s with ready := s.ready ++ [b], rend := .idle true,
                     verdicts := s.verdicts ++ [(b.samples, none)] }
          else { s with rend := .subFrames b })
  | .subFrames b =>
    some { s with queueFrames := s.queueFrames - b.request.frames, pending := some b,
                  rend := .idle false }

/-! ## Callback -/

/-- The frames copied to positions `k`, `k + 1`, … of a buffer of `total`.
mirrors src-tauri/src/audio/render_ahead.rs:383-398 -/
def playFrom (recovering : Bool) (total : Nat) : Nat → List F → List (Out F)
  | _, [] => []
  | k, x :: xs =>
    .sample x (if recovering then some (k + 1, total) else none) ::
      playFrom recovering total (k + 1) xs

def lastOf (last : Option (F × Gain)) (played : List (Out F)) : Option (F × Gain) :=
  match played.getLast? with
  | some (.sample x gain) => some (x, gain)
  | _ => last

/-- mirrors src-tauri/src/audio/render_ahead.rs:409-415 -/
def fadeOut (last : Option (F × Gain)) (missing : Nat) : List (Out F) :=
  (List.range missing).map fun k =>
    match last with
    | some (x, gain) => .fade x gain (k + 1) missing
    | none => .silence

/-- A return before anything was copied: the buffer stays zero. -/
def refuse (s : St F) (total missing : Nat) : St F :=
  { s with call := .idle missing, output := s.output ++ [List.replicate total .silence] }

/-- mirrors src-tauri/src/audio/render_ahead.rs:407-436 -/
def finish (s : St F) (j : Job F) : St F :=
  let missing := j.total - j.written
  if missing > 0 then
    { s with last := none, recovering := true, call := .idle missing,
             output := s.output ++ [j.data ++ fadeOut s.last missing] }
  else { s with recovering := false, call := .idle 0, output := s.output ++ [j.data] }

/-- mirrors src-tauri/src/audio/render_ahead.rs:353-359 -/
def loop (s : St F) (j : Job F) : St F :=
  if j.written < j.total then
    { s with call := if s.current.isNone then .pop j else .checkGeneration j }
  else finish s j

/-- What `copy_into` does with `return_current`'s answer.
mirrors src-tauri/src/audio/render_ahead.rs:371-380,403-405 -/
def afterReturn (c : Cfg) (s : St F) (j : Job F) (stale : Bool) : St F :=
  if stale then
    let s := { s with recovering := true, last := none }
    let j := { j with discarded := j.discarded + 1 }
    if j.discarded ≥ c.blocks then finish s j else loop s j
  else loop s j

/-- mirrors src-tauri/src/audio/render_ahead.rs:265-279 -/
def returnMinimum (s : St F) (period previous : Nat) : Nat :=
  if s.lastEndpoint = 0 ∧ s.anchorUs < period then 0 else satAdd previous period

/-- mirrors src-tauri/src/audio/render_ahead.rs:255-437 -/
def callStep (c : Cfg) (s : St F) : Call F → Option (St F)
  | .idle _ => none
  | .phase now total =>
    some (if s.phase ≠ 2 then refuse s total 0 else { s with call := .enter now total })
  | .enter now total =>
    some (if s.gateClosed then refuse { s with recovering := true } total 0
          else if total > c.maxFrames then { s with call := .fault total }
          else if total = 0 then refuse s total 0
          else { s with call := .loadGeneration now total })
  | .fault total =>
    some { s with fatal := if s.fatal = 0 then 13 else s.fatal, call := .raiseEmergency total }
  | .raiseEmergency total => some (refuse { s with emergency := true } total total)
  | .loadGeneration now total =>
    some (if s.generation ≠ s.seenGeneration then
            { s with seenGeneration := s.generation, last := none, recovering := true,
                     call := .storeFrames now total true }
          else { s with call := .loadEmergency now total s.generation })
  | .loadEmergency now total g =>
    some (if s.emergency then
            { s with seenGeneration := g, last := none, recovering := true,
                     call := .storeFrames now total true }
          else { s with seenGeneration := g, call := .storeFrames now total false })
  | .storeFrames now total resetting =>
    some (loop { s with frames := total } ⟨now, total, resetting, 0, 0, []⟩)
  | .pop j =>
    match s.ready with
    | b :: ready => some { s with ready, current := some b, offset := 0, call := .checkGeneration j }
    | [] => some (finish { s with offset := 0 } j)
  | .checkGeneration j =>
    s.current.map fun b =>
      if h : b.generation ≠ s.generation then
        { s with call := .discard j (.generation b.generation s.generation h) }
      else { s with call := .checkEmergency j }
  | .checkEmergency j =>
    some { s with call := if s.emergency then .discard j .emergency else .play j }
  | .discard j why =>
    s.current.map fun b =>
      { s with queueFrames := s.queueFrames - ((b.request.frames - s.offset : Nat) : Int),
               offset := b.request.frames, current := none,
               log := s.log ++ (b.samples.drop s.offset).map (⟨·, some why⟩),
               call := .returnFrames j true b }
  | .play j =>
    s.current.map fun b =>
      let take := min (b.request.frames - s.offset) (j.total - j.written)
      let xs := (b.samples.drop s.offset).take take
      let out := playFrom s.recovering j.total j.written xs
      let j : Job F := { j with written := j.written + take, data := j.data ++ out }
      let s : St F := { s with
        last := lastOf s.last out, offset := s.offset + take,
        queueFrames := s.queueFrames - (take : Int), log := s.log ++ xs.map (⟨·, none⟩) }
      if s.offset = b.request.frames then { s with current := none, call := .returnFrames j false b }
      else loop s j
  | .returnFrames j stale b => some { s with call := .returnAnchor j stale b s.frames }
  | .returnAnchor j stale b frames =>
    let period := frames * 1000000 / c.sampleRate
    some { s with call :=
      .returnClock j stale b frames (max s.lastEndpoint (s.anchorUs - period)) }
  | .returnClock j stale b frames previous =>
    let period := frames * 1000000 / c.sampleRate
    let endpoint := j.now - (j.total - j.written) * 1000000 / c.sampleRate
    let lastEndpoint := max endpoint (returnMinimum s period previous)
    let b := { b with request := ⟨frames, lastEndpoint⟩ }
    some { s with lastEndpoint, call := .returnPush j stale b }
  | .returnPush j stale b =>
    some (if s.free.length < c.blocks then
            afterReturn c { s with free := s.free ++ [b], offset := 0 } j stale
          else finish { s with current := some b, fatal := 14 } j)

def step (c : Cfg) (s : St F) : Lbl F → Option (St F)
  | .bumpGeneration => some { s with generation := s.generation + 1 }
  | .setEmergency on => some { s with emergency := on }
  | .setGate closed => some { s with gateClosed := closed }
  | .setPhase phase => some { s with phase }
  | .setAnchor us => some { s with anchorUs := us }
  | .setFrames frames =>
    some (if 0 < frames ∧ frames ≤ c.maxFrames then { s with frames } else s)
  | .setFatal code => if code = 14 then none else some { s with fatal := code }
  | .renderNext now =>
    match s.rend with
    | .idle _ => some { s with waitingForSource := false, rend := .phase now }
    | _ => none
  | .rend => rendStep c s s.rend
  | .rendered samples generation =>
    match s.rend with
    | .render b =>
      if samples.length = b.request.frames then
        match generation with
        | some g => some { s with rend := .checkGeneration { b with samples } g }
        | none => some { s with pending := some { b with samples }, rend := .idle false }
      else none
    | _ => none
  | .copyInto len now =>
    match s.call with
    | .idle _ => some { s with call := .phase now (len / c.channels) }
    | _ => none
  | .call => callStep c s s.call

def lts (F : Type) (c : Cfg) : LTS (St F) (Lbl F) :=
  .ofStep (fun s => ∃ frames, channel c frames = .ok s) (step c)

/-! ## Invariant -/

/-- The block the renderer works on. -/
def Rend.block : Rend F → Option (Block F)
  | .primeFrames _ _ b | .primeAnchor _ _ b | .render b | .checkGeneration b _
  | .checkEmergency b _ | .addFrames b | .push b | .subFrames b => some b
  | _ => none

/-- The frames of a block already counted in `queueFrames` but not in the ring. -/
def Rend.inPush : Rend F → Nat
  | .push b | .subFrames b => b.request.frames
  | _ => 0

/-- The block `return_current` has taken out of `current`. -/
def Call.block : Call F → Option (Block F)
  | .returnFrames _ _ b | .returnAnchor _ _ b _ | .returnClock _ _ b _ _ | .returnPush _ _ b => some b
  | _ => none

/-- What the call has written so far. -/
def Call.data : Call F → List (Out F)
  | .pop j | .checkGeneration j | .checkEmergency j | .discard j _ | .play j | .returnFrames j _ _
  | .returnAnchor j _ _ _ | .returnClock j _ _ _ _ | .returnPush j _ _ => j.data
  | _ => []

def Out.played : Out F → Option F
  | .sample x _ => some x
  | _ => none

def Read.played (r : Read F) : Option F := if r.why.isNone then some r.frame else none

def unread (s : St F) : List F :=
  match s.current with
  | some b => b.samples.drop s.offset
  | none => []

def unreadFrames (s : St F) : Nat :=
  match s.current with
  | some b => b.request.frames - s.offset
  | none => 0

def readyFrames (s : St F) : Nat := (s.ready.map (·.request.frames)).sum

/-- The frames of the renders that were queued, in the order rendered. -/
def pushed (s : St F) : List F := (s.verdicts.filter (·.2.isNone)).flatMap (·.1)

def Fits (c : Cfg) (b : Block F) : Prop := b.request.frames ≤ c.maxFrames

def Rendered (b : Block F) : Prop := b.samples.length = b.request.frames

/-- The invariant while the renderer works on `r` with `inPush` frames counted
ahead, and the callback has taken `k` and written `data`. -/
structure InvAt (c : Cfg) (s : St F) (r : Option (Block F)) (inPush : Nat) (k : Option (Block F))
    (data : List (Out F)) : Prop where
  count : s.free.length + s.ready.length + s.pending.toList.length + r.toList.length +
    s.current.toList.length + k.toList.length = c.blocks
  frames : s.frames ≤ c.maxFrames
  freeFits : ∀ b ∈ s.free, Fits c b
  pendingFits : ∀ b ∈ s.pending, Fits c b
  rendFits : ∀ b ∈ r, Fits c b
  pending : r ≠ none → s.pending = none
  current : k ≠ none → s.current = none
  ready : ∀ b ∈ s.ready, Fits c b ∧ Rendered b
  reading : ∀ b ∈ s.current, Fits c b ∧ Rendered b ∧ s.offset ≤ b.request.frames
  fatal : s.fatal ≠ 14
  queue : s.queueFrames = readyFrames s + unreadFrames s + inPush
  stream : pushed s = s.log.map Read.frame ++ unread s ++ s.ready.flatMap Block.samples
  output : s.output.flatten.filterMap Out.played ++ data.filterMap Out.played =
    s.log.filterMap Read.played

def RendOk : Rend F → Prop
  | .checkGeneration b _ | .checkEmergency b _ | .addFrames b | .push b =>
    Rendered b
  | .subFrames _ => False
  | _ => True

def CallOk (c : Cfg) (current : Option (Block F)) : Call F → Prop
  | .loadGeneration _ total | .loadEmergency _ total _ | .storeFrames _ total _ => total ≤ c.maxFrames
  | .pop _ => current = none
  | .checkGeneration _ | .checkEmergency _ | .discard _ _ | .play _ => ∃ b, current = some b
  | .returnAnchor _ _ _ frames | .returnClock _ _ _ frames _ => frames ≤ c.maxFrames
  | .returnPush _ _ b => Fits c b
  | _ => True

structure Inv (c : Cfg) (s : St F) : Prop where
  at_ : InvAt c s s.rend.block s.rend.inPush s.call.block s.call.data
  rend : RendOk s.rend
  call : CallOk c s.current s.call

/-! ## Renderer steps -/

section Renderer

variable {c : Cfg} {s : St F} {k : Option (Block F)} {d : List (Out F)} {b : Block F}

/-- The renderer works on a block in place. -/
theorem InvAt.rework {p : Nat} {b' : Block F} (I : InvAt c s (some b) p k d) (h : Fits c b') :
    InvAt c s (some b') p k d :=
  { I with rendFits := by simpa using h, pending := fun _ => I.pending (by simp) }

theorem InvAt.retime {p : Nat} (I : InvAt c s (some b) p k d) (us : Nat) :
    InvAt c s (some { b with request := { b.request with sourceEndUs := us } }) p k d :=
  I.rework (I.rendFits b rfl)

theorem InvAt.putBack (I : InvAt c s (some b) 0 k d) :
    InvAt c { s with pending := some b } none 0 k d := by
  have hp := I.pending (by simp)
  have hn := I.count
  have hf := I.rendFits
  refine { I with count := ?_, pendingFits := hf, rendFits := by simp, pending := by simp }
  simpa [hp] using hn

theorem InvAt.takePending (I : InvAt c s none 0 k d) (h : s.pending = some b) :
    InvAt c { s with pending := none } (some b) 0 k d := by
  have hn := I.count
  have hf := I.pendingFits b (by simp [h])
  refine { I with count := ?_, pendingFits := by simp, rendFits := by simpa using hf,
                  pending := by simp }
  simpa [h] using hn

theorem InvAt.takeFree {free : List (Block F)} (I : InvAt c s none 0 k d) (hp : s.pending = none)
    (h : s.free = b :: free) : InvAt c { s with free } (some b) 0 k d := by
  have hn := I.count
  have hf := I.freeFits
  rw [h, List.forall_mem_cons] at hf
  refine { I with count := ?_, freeFits := hf.2, rendFits := by simpa using hf.1,
                  pending := fun _ => hp }
  simp only [h, List.length_cons, Option.toList_none, Option.toList_some, List.length_nil] at hn ⊢
  omega

end Renderer

theorem inv_window {c : Cfg} {s : St F} {now : Nat} {b : Block F}
    (I : InvAt c s (some b) 0 s.call.block s.call.data) (hc : CallOk c s.current s.call) :
    Inv c (window s now b) := by
  unfold window
  split
  · exact ⟨{ I.putBack with }, trivial, hc⟩
  · exact ⟨{ I with }, trivial, hc⟩

theorem inv_takeBlock {c : Cfg} {s : St F} {now : Nat} {b : Block F}
    (I : InvAt c s (some b) 0 s.call.block s.call.data) (hc : CallOk c s.current s.call) :
    Inv c (takeBlock s now b) := by
  unfold takeBlock
  split
  · have I' : InvAt c s (some { b with primeIndex := none }) 0 s.call.block s.call.data :=
      I.rework (I.rendFits b rfl)
    exact ⟨{ I' with }, trivial, hc⟩
  · exact inv_window I hc

theorem inv_reject {c : Cfg} {s : St F} {b : Block F} {why : Stale}
    (I : InvAt c s (some b) 0 s.call.block s.call.data) (hc : CallOk c s.current s.call) :
    Inv c (reject s b why) := by
  have hs := I.stream
  refine ⟨{ I.putBack with stream := ?_ }, trivial, hc⟩
  simp only [reject, pushed, unread] at hs ⊢
  simpa [List.filter_append] using hs

theorem inv_push {c : Cfg} {s : St F} {b : Block F}
    (I : InvAt c s (some b) b.request.frames s.call.block s.call.data)
    (hr : Rendered b) (hc : CallOk c s.current s.call) :
    Inv c { s with ready := s.ready ++ [b], rend := .idle true,
                   verdicts := s.verdicts ++ [(b.samples, none)] } := by
  have hs := I.stream
  have hn := I.count
  have hq := I.queue
  refine ⟨{ I with count := ?_, ready := ?_, rendFits := by simp [Rend.block],
                   pending := by simp [Rend.block], queue := ?_, stream := ?_ }, trivial, hc⟩
  · simp only [List.length_append, List.length_singleton, Option.toList_some, Rend.block,
      Option.toList_none, List.length_nil] at hn ⊢
    omega
  · simp only [List.mem_append, List.mem_singleton]
    rintro x (hx | rfl)
    · exact I.ready x hx
    · exact ⟨I.rendFits x rfl, hr⟩
  · simp only [readyFrames, List.map_append, List.map_cons, List.map_nil, List.sum_append,
      List.sum_cons, List.sum_nil, Rend.inPush] at hq ⊢
    rw [hq]
    simp only [unreadFrames]
    omega
  · simp only [pushed, unread] at hs ⊢
    simp only [List.filter_append, List.flatMap_append, hs, List.filter_cons, Option.isNone_none,
      if_true, List.filter_nil, List.flatMap_cons, List.flatMap_nil, List.append_nil,
      List.append_assoc]

theorem inv_rendStep {c : Cfg} {s s' : St F} (I : Inv c s) (hst : rendStep c s s.rend = some s') :
    Inv c s' := by
  obtain ⟨A, hr, hc⟩ := I
  cases hu : s.rend with
  | idle done => simp [hu, rendStep] at hst
  | phase now =>
    rw [hu] at A hst
    simp only [rendStep, Option.some.injEq] at hst; subst hst
    split <;> exact ⟨{ A with }, trivial, hc⟩
  | gate now =>
    rw [hu] at A hst
    simp only [rendStep, Option.some.injEq] at hst; subst hst
    split <;> exact ⟨{ A with }, trivial, hc⟩
  | full now =>
    rw [hu] at A hst
    simp only [rendStep, Option.some.injEq] at hst; subst hst
    split <;> exact ⟨{ A with }, trivial, hc⟩
  | take now =>
    rw [hu] at A hst
    simp only [rendStep] at hst
    split at hst
    · rename_i b hp
      simp only [Option.some.injEq] at hst; subst hst
      exact inv_takeBlock (A.takePending hp) hc
    · rename_i hp
      split at hst
      · rename_i b free hf
        simp only [Option.some.injEq] at hst; subst hst
        exact inv_takeBlock (A.takeFree hp hf) hc
      · simp only [Option.some.injEq] at hst; subst hst
        exact ⟨{ A with }, trivial, hc⟩
  | primeFrames now index b =>
    rw [hu] at A hst
    simp only [rendStep, Option.some.injEq] at hst; subst hst
    have A' : InvAt c s (some { b with request := { b.request with frames := s.frames } }) 0
        s.call.block s.call.data := A.rework A.frames
    exact ⟨{ A' with }, trivial, hc⟩
  | primeAnchor now index b =>
    rw [hu] at A hst
    simp only [rendStep, Option.some.injEq] at hst; subst hst
    exact inv_window (A.retime _) hc
  | render b => simp [hu, rendStep] at hst
  | checkGeneration b g =>
    rw [hu] at A hr hst
    simp only [rendStep, Option.some.injEq] at hst; subst hst
    split
    · exact inv_reject A hc
    · exact ⟨{ A with }, hr, hc⟩
  | checkEmergency b g =>
    rw [hu] at A hr hst
    simp only [rendStep, Option.some.injEq] at hst; subst hst
    split
    · exact inv_reject A hc
    · have A' : InvAt c s (some { b with generation := g }) 0 s.call.block s.call.data :=
        A.rework (A.rendFits b rfl)
      exact ⟨{ A' with }, hr, hc⟩
  | addFrames b =>
    rw [hu] at A hr hst
    simp only [rendStep, Option.some.injEq] at hst; subst hst
    have hq := A.queue
    refine ⟨{ A with queue := ?_ }, hr, hc⟩
    simp only [Rend.inPush, readyFrames, unreadFrames] at hq ⊢
    omega
  | push b =>
    rw [hu] at A hr hst
    simp only [rendStep, Option.some.injEq] at hst; subst hst
    split
    · exact inv_push A hr hc
    · rename_i hfull
      have := A.count
      simp only [Rend.block, Option.toList_some, List.length_singleton] at this
      omega
  | subFrames b => exact (hu ▸ hr : RendOk (.subFrames b)).elim

/-! ## Callback steps -/

theorem played_playFrom (recovering : Bool) (total : Nat) (xs : List F) :
    ∀ k, (playFrom recovering total k xs).filterMap Out.played = xs := by
  induction xs with
  | nil => exact fun _ => rfl
  | cons x xs ih => exact fun k => by simp [playFrom, Out.played, ih]

theorem played_fadeOut (last : Option (F × Gain)) (missing : Nat) :
    (fadeOut last missing).filterMap Out.played = [] := by
  cases last <;> simp [fadeOut, Out.played, List.filterMap_eq_nil_iff]

theorem played_silence (total : Nat) :
    (List.replicate total (.silence : Out F)).filterMap Out.played = [] := by
  simp [Out.played, List.filterMap_eq_nil_iff]

theorem frames_read (why : Option Stale) (xs : List F) :
    (xs.map fun x => (⟨x, why⟩ : Read F)).map Read.frame = xs := by
  rw [List.map_map]
  exact List.map_id _

theorem played_discarded (why : Stale) (xs : List F) :
    (xs.map fun x => (⟨x, some why⟩ : Read F)).filterMap Read.played = [] := by
  simp [Read.played, List.filterMap_eq_nil_iff]

theorem played_read (xs : List F) :
    (xs.map fun x => (⟨x, none⟩ : Read F)).filterMap Read.played = xs := by
  induction xs with
  | nil => rfl
  | cons x xs ih => simpa [Read.played] using ih

section Callback

variable {c : Cfg} {s : St F} {r : Option (Block F)} {p : Nat} {b : Block F} {d : List (Out F)}

/-- A call that ends has written what it read and something that was not read. -/
theorem InvAt.emit {out : List (Out F)} (I : InvAt c s r p none d)
    (h : out.filterMap Out.played = d.filterMap Out.played) :
    InvAt c { s with output := s.output ++ [out] } r p none [] := by
  have ho := I.output
  refine { I with output := ?_ }
  simpa [h] using ho

/-- `return_current` takes the block, read to its end, out of `current`. -/
theorem InvAt.takeCurrent (I : InvAt c s r p none d) (h : s.current = some b)
    (ho : s.offset = b.request.frames) : InvAt c { s with current := none } r p (some b) d := by
  have hn := I.count
  have hq := I.queue
  have hs := I.stream
  obtain ⟨-, hr, -⟩ := I.reading b h
  refine { I with count := ?_, current := by simp, reading := by simp, queue := ?_, stream := ?_ }
  · simp only [h, Option.toList_some, Option.toList_none, List.length_singleton,
      List.length_nil] at hn ⊢
    omega
  · simp only [readyFrames, unreadFrames, h] at hq ⊢
    omega
  · have : b.samples.drop s.offset = [] := List.drop_eq_nil_iff.mpr (Nat.le_of_eq (by rw [ho, hr]))
    simp only [unread, h, this] at hs ⊢
    exact hs

/-- `return_current` changes the block it has taken. -/
theorem InvAt.rewrite (I : InvAt c s r p (some b) d) (b' : Block F) : InvAt c s r p (some b') d :=
  { I with current := fun _ => I.current (by simp) }

theorem InvAt.pushFree (I : InvAt c s r p (some b) d) (h : Fits c b) :
    InvAt c { s with free := s.free ++ [b], offset := 0 } r p none d := by
  have hn := I.count
  have hc := I.current (by simp)
  have hq := I.queue
  have hs := I.stream
  refine { I with count := ?_, freeFits := ?_, current := by simp, reading := by simp [hc],
                  queue := ?_, stream := ?_ }
  · simp only [Option.toList_some, Option.toList_none, List.length_singleton, List.length_append,
      List.length_nil] at hn ⊢
    omega
  · simp only [List.mem_append, List.mem_singleton]
    rintro x (hx | rfl)
    · exact I.freeFits x hx
    · exact h
  · simp only [readyFrames, unreadFrames, hc] at hq ⊢
    exact hq
  · simp only [pushed, unread, hc] at hs ⊢
    exact hs

theorem InvAt.popReady {ready : List (Block F)} (I : InvAt c s r p none d) (hc : s.current = none)
    (h : s.ready = b :: ready) :
    InvAt c { s with ready, current := some b, offset := 0 } r p none d := by
  have hn := I.count
  have hq := I.queue
  have hs := I.stream
  have hb := I.ready
  rw [h, List.forall_mem_cons] at hb
  refine { I with count := ?_, current := by simp, ready := hb.2,
                  reading := ?_, queue := ?_, stream := ?_ }
  · simp only [hc, h, Option.toList_some, Option.toList_none, List.length_cons,
      List.length_nil] at hn ⊢
    omega
  · simp only [Option.mem_def, Option.some.injEq, forall_eq']
    exact ⟨hb.1.1, hb.1.2, Nat.zero_le _⟩
  · simp only [readyFrames, unreadFrames, hc, h, List.map_cons, List.sum_cons] at hq ⊢
    omega
  · simp only [pushed, unread, hc, h, List.flatMap_cons, List.append_nil] at hs ⊢
    simp only [List.drop_zero, hs, List.append_assoc]

/-- `n` frames of the current block are read, and written or thrown away. -/
theorem InvAt.read {n : Nat} {reads : List (Read F)} {d' : List (Out F)} (I : InvAt c s r p none d)
    (h : s.current = some b) (hn : n ≤ b.request.frames - s.offset)
    (hf : reads.map Read.frame = (b.samples.drop s.offset).take n)
    (hd : d'.filterMap Out.played = d.filterMap Out.played ++ reads.filterMap Read.played) :
    InvAt c { s with offset := s.offset + n, queueFrames := s.queueFrames - (n : Int),
                     log := s.log ++ reads } r p none d' := by
  have hq := I.queue
  have hs := I.stream
  have ho := I.output
  obtain ⟨h1, h2, h3⟩ := I.reading b h
  refine { I with reading := ?_, queue := ?_, stream := ?_, output := ?_ }
  · simp only [h, Option.mem_def, Option.some.injEq, forall_eq']
    exact ⟨h1, h2, by omega⟩
  · simp only [readyFrames, unreadFrames, h] at hq ⊢
    omega
  · simp only [pushed, unread, h] at hs ⊢
    rw [hs, List.map_append, hf, ← List.drop_drop]
    simp only [List.append_assoc, List.append_cancel_left_eq]
    rw [← List.append_assoc, List.take_append_drop]
  · simp only [hd, List.filterMap_append, ← ho, List.append_assoc]

end Callback

section Calls

variable {c : Cfg} {s : St F}

theorem inv_refuse {total missing : Nat} (I : InvAt c s s.rend.block s.rend.inPush none [])
    (hr : RendOk s.rend) : Inv c (refuse s total missing) := by
  have I' := I.emit (played_silence total)
  exact ⟨{ I' with }, hr, trivial⟩

theorem inv_finish {j : Job F} (I : InvAt c s s.rend.block s.rend.inPush none j.data)
    (hr : RendOk s.rend) : Inv c (finish s j) := by
  simp only [finish]
  split
  · have I' := @InvAt.emit _ _ _ _ _ _ (j.data ++ fadeOut s.last (j.total - j.written)) I
      (by rw [List.filterMap_append, played_fadeOut, List.append_nil])
    exact ⟨{ I' with }, hr, trivial⟩
  · have I' := I.emit rfl
    exact ⟨{ I' with }, hr, trivial⟩

theorem inv_loop {j : Job F} (I : InvAt c s s.rend.block s.rend.inPush none j.data)
    (hr : RendOk s.rend) : Inv c (loop s j) := by
  unfold loop
  split
  · split
    · rename_i hn
      exact ⟨{ I with }, hr, Option.isNone_iff_eq_none.mp hn⟩
    · rename_i hn
      exact ⟨{ I with }, hr, Option.ne_none_iff_exists'.mp (by simpa using hn)⟩
  · exact inv_finish I hr

theorem inv_afterReturn {j : Job F} {stale : Bool}
    (I : InvAt c s s.rend.block s.rend.inPush none j.data) (hr : RendOk s.rend) :
    Inv c (afterReturn c s j stale) := by
  unfold afterReturn
  cases stale with
  | false => exact inv_loop I hr
  | true =>
    simp only [if_true]
    split
    · exact inv_finish { I with } hr
    · exact inv_loop { I with } hr

end Calls

theorem inv_endpoint {c : Cfg} {s : St F} {b : Block F} {j : Job F} {stale : Bool} {frames : Nat}
    (us : Nat) (I : InvAt c s s.rend.block s.rend.inPush (some b) j.data) (hr : RendOk s.rend)
    (hf : frames ≤ c.maxFrames) :
    Inv c { s with lastEndpoint := us,
                   call := .returnPush j stale { b with request := ⟨frames, us⟩ } } := by
  have I' := I.rewrite { b with request := ⟨frames, us⟩ }
  exact ⟨{ I' with }, hr, hf⟩

theorem inv_discard {c : Cfg} {s : St F} {b : Block F} {j : Job F} {why : Stale}
    (I : InvAt c s s.rend.block s.rend.inPush none j.data) (hr : RendOk s.rend)
    (h : s.current = some b) :
    Inv c { s with queueFrames := s.queueFrames - ((b.request.frames - s.offset : Nat) : Int),
                   offset := b.request.frames, current := none,
                   log := s.log ++ (b.samples.drop s.offset).map (⟨·, some why⟩),
                   call := .returnFrames j true b } := by
  obtain ⟨-, hb, ho⟩ := I.reading b h
  have htake : (b.samples.drop s.offset).take (b.request.frames - s.offset) =
      b.samples.drop s.offset := List.take_of_length_le (Nat.le_of_eq (by rw [List.length_drop, hb]))
  have I' := @InvAt.read _ _ _ _ _ _ _ (b.request.frames - s.offset)
    ((b.samples.drop s.offset).map (⟨·, some why⟩)) j.data I h (Nat.le_refl _)
    (by rw [htake, frames_read]) (by rw [played_discarded, List.append_nil])
  rw [Nat.add_sub_cancel' ho] at I'
  have I'' := I'.takeCurrent h rfl
  exact ⟨{ I'' with }, hr, trivial⟩

theorem inv_callStep {c : Cfg} {s s' : St F} (I : Inv c s) (hst : callStep c s s.call = some s') :
    Inv c s' := by
  obtain ⟨A, hr, hc⟩ := I
  cases hu : s.call with
  | idle missing => simp [hu, callStep] at hst
  | phase now total =>
    rw [hu] at A hst
    simp only [callStep, Option.some.injEq] at hst; subst hst
    split
    · exact inv_refuse A hr
    · exact ⟨{ A with }, hr, trivial⟩
  | enter now total =>
    rw [hu] at A hst
    simp only [callStep, Option.some.injEq] at hst; subst hst
    split
    · exact inv_refuse { A with } hr
    · split
      · exact ⟨{ A with }, hr, trivial⟩
      · split
        · exact inv_refuse A hr
        · exact ⟨{ A with }, hr, by simp only [CallOk]; omega⟩
  | fault total =>
    rw [hu] at A hst
    simp only [callStep, Option.some.injEq] at hst; subst hst
    refine ⟨{ A with fatal := ?_ }, hr, trivial⟩
    have := A.fatal
    split <;> simp_all
  | raiseEmergency total =>
    rw [hu] at A hst
    simp only [callStep, Option.some.injEq] at hst; subst hst
    exact inv_refuse { A with } hr
  | loadGeneration now total =>
    rw [hu] at A hc hst
    simp only [callStep, Option.some.injEq] at hst; subst hst
    split <;> exact ⟨{ A with }, hr, hc⟩
  | loadEmergency now total g =>
    rw [hu] at A hc hst
    simp only [callStep, Option.some.injEq] at hst; subst hst
    split <;> exact ⟨{ A with }, hr, hc⟩
  | storeFrames now total resetting =>
    rw [hu] at A hc hst
    simp only [callStep, Option.some.injEq] at hst; subst hst
    exact inv_loop { A with frames := hc } hr
  | pop j =>
    rw [hu] at A hc hst
    simp only [callStep] at hst
    split at hst
    · rename_i b ready hb
      simp only [Option.some.injEq] at hst; subst hst
      have A' := A.popReady hc hb
      exact ⟨{ A' with }, hr, b, rfl⟩
    · simp only [Option.some.injEq] at hst; subst hst
      refine inv_finish ({ A with reading := ?_, queue := ?_, stream := ?_ }) hr
      · have : s.current = none := hc
        simp [this]
      · have hq := A.queue
        have hc : s.current = none := hc
        simp only [readyFrames, unreadFrames, hc] at hq ⊢
        exact hq
      · have hs := A.stream
        have hc : s.current = none := hc
        simp only [pushed, unread, hc] at hs ⊢
        exact hs
  | checkGeneration j =>
    rw [hu] at A hc hst
    simp only [callStep, Option.map_eq_some_iff] at hst
    obtain ⟨b, hb, rfl⟩ := hst
    split <;> exact ⟨{ A with }, hr, b, hb⟩
  | checkEmergency j =>
    rw [hu] at A hc hst
    simp only [callStep, Option.some.injEq] at hst; subst hst
    split <;> exact ⟨{ A with }, hr, hc⟩
  | discard j why =>
    rw [hu] at A hc hst
    simp only [callStep, Option.map_eq_some_iff] at hst
    obtain ⟨b, hb, rfl⟩ := hst
    exact inv_discard A hr hb
  | play j =>
    rw [hu] at A hc hst
    simp only [callStep, Option.map_eq_some_iff] at hst
    obtain ⟨b, hb, rfl⟩ := hst
    have A' := @InvAt.read _ _ _ _ _ _ _ (min (b.request.frames - s.offset) (j.total - j.written))
      (((b.samples.drop s.offset).take
        (min (b.request.frames - s.offset) (j.total - j.written))).map (⟨·, none⟩))
      (j.data ++ playFrom s.recovering j.total j.written ((b.samples.drop s.offset).take
        (min (b.request.frames - s.offset) (j.total - j.written)))) A hb (Nat.min_le_left _ _)
      (frames_read none _) (by rw [List.filterMap_append, played_playFrom, played_read]; rfl)
    split
    · rename_i ho
      have A'' := A'.takeCurrent hb ho
      exact ⟨{ A'' with }, hr, trivial⟩
    · exact inv_loop { A' with } hr
  | returnFrames j stale b =>
    rw [hu] at A hst
    simp only [callStep, Option.some.injEq] at hst; subst hst
    exact ⟨{ A with }, hr, A.frames⟩
  | returnAnchor j stale b frames =>
    rw [hu] at A hc hst
    have hf : frames ≤ c.maxFrames := hc
    simp only [callStep, Option.some.injEq] at hst; subst hst
    exact ⟨{ A with }, hr, hf⟩
  | returnClock j stale b frames previous =>
    rw [hu] at A hc hst
    have hf : frames ≤ c.maxFrames := hc
    simp only [callStep, Option.some.injEq] at hst; subst hst
    exact inv_endpoint _ A hr hf
  | returnPush j stale b =>
    rw [hu] at A hc hst
    simp only [callStep, Option.some.injEq] at hst; subst hst
    split
    · exact inv_afterReturn (A.pushFree hc) hr
    · rename_i hfull
      have := A.count
      simp only [Call.block, Option.toList_some, List.length_singleton] at this
      omega

theorem inv_step {c : Cfg} {s s' : St F} {l : Lbl F} (I : Inv c s) (hst : step c s l = some s') :
    Inv c s' := by
  have ⟨A, hr, hc⟩ := I
  cases l with
  | bumpGeneration | setEmergency on | setGate closed | setPhase phase | setAnchor us =>
    simp only [step, Option.some.injEq] at hst; subst hst
    exact ⟨{ A with }, hr, hc⟩
  | setFrames frames =>
    simp only [step, Option.some.injEq] at hst; subst hst
    split
    · rename_i h
      exact ⟨{ A with frames := h.2 }, hr, hc⟩
    · exact I
  | setFatal code =>
    simp only [step] at hst
    split at hst
    · cases hst
    · rename_i h
      simp only [Option.some.injEq] at hst; subst hst
      exact ⟨{ A with fatal := h }, hr, hc⟩
  | renderNext now =>
    simp only [step] at hst
    split at hst
    · rename_i hu
      rw [hu] at A
      simp only [Option.some.injEq] at hst; subst hst
      exact ⟨{ A with }, trivial, hc⟩
    · cases hst
  | rend => exact inv_rendStep I hst
  | rendered samples generation =>
    simp only [step] at hst
    split at hst
    · rename_i b hu
      rw [hu] at A
      split at hst
      · rename_i hl
        have A' : InvAt c s (some { b with samples }) 0 s.call.block s.call.data :=
          A.rework (A.rendFits b rfl)
        split at hst
        · simp only [Option.some.injEq] at hst; subst hst
          exact ⟨{ A' with }, hl, hc⟩
        · simp only [Option.some.injEq] at hst; subst hst
          exact ⟨{ A'.putBack with }, trivial, hc⟩
      · cases hst
    · cases hst
  | copyInto len now =>
    simp only [step] at hst
    split at hst
    · rename_i hu
      rw [hu] at A
      simp only [Option.some.injEq] at hst; subst hst
      exact ⟨{ A with }, hr, trivial⟩
    · cases hst
  | call => exact inv_callStep I hst

theorem inv_inductive (F : Type) (c : Cfg) : (lts F c).Inductive (Inv c) where
  init := by
    rintro s ⟨frames, h⟩
    simp only [channel] at h
    split at h
    · cases h
    · rename_i hok
      simp only [not_or, Nat.not_lt] at hok
      simp only [Except.ok.injEq] at h; subst h
      refine ⟨⟨?_, hok.2.2.1, ?_, by simp, by simp [Rend.block], by simp, by simp, by simp, by simp,
        by simp, by simp [readyFrames, unreadFrames, Rend.inPush], by simp [pushed, unread],
        by simp [Call.data]⟩, trivial, trivial⟩
      · simp [Rend.block, Call.block]
      · simp only [List.mem_map]
        rintro b ⟨i, -, rfl⟩
        exact hok.2.2.1
  step _ _ _ I hst := inv_step I hst

/-! ## Why something was thrown away -/

/-- What a check of a block of generation `block` that throws it away has seen. -/
def Stale.Seen (s : St F) (block : Nat) : Stale → Prop
  | .generation b current _ => b = block ∧ current = s.generation
  | .emergency => s.emergency = true

/-- Why the callback is about to throw its block away. -/
def Call.throws : Call F → Option Stale
  | .discard _ why => some why
  | _ => none

/-- Neither the log nor the verdicts change, and no block is about to be
thrown away. -/
structure Silent (s s' : St F) : Prop where
  log : s'.log = s.log
  verdicts : s'.verdicts = s.verdicts
  call : s'.call.throws = none

theorem silent_finish (s : St F) (j : Job F) : Silent s (finish s j) := by
  simp only [finish]
  split <;> exact ⟨rfl, rfl, rfl⟩

theorem silent_loop (s : St F) (j : Job F) : Silent s (loop s j) := by
  unfold loop
  split
  · refine ⟨rfl, rfl, ?_⟩
    dsimp only
    split <;> rfl
  · exact silent_finish s j

theorem silent_afterReturn (c : Cfg) (s : St F) (j : Job F) (stale : Bool) :
    Silent s (afterReturn c s j stale) := by
  unfold afterReturn
  split
  · dsimp only
    split
    · have h := silent_finish { s with recovering := true, last := none }
        { j with discarded := j.discarded + 1 }
      exact ⟨h.log, h.verdicts, h.call⟩
    · have h := silent_loop { s with recovering := true, last := none }
        { j with discarded := j.discarded + 1 }
      exact ⟨h.log, h.verdicts, h.call⟩
  · exact silent_loop s j

/-- What a step of the callback adds to the log, and what lets it throw its
block away next. -/
structure CallReads (s s' : St F) : Prop where
  verdicts : s'.verdicts = s.verdicts
  log : (∃ xs : List F, s'.log = s.log ++ xs.map (⟨·, none⟩)) ∨
    ∃ why, s.call.throws = some why ∧ s.current.isSome ∧
      s'.log = s.log ++ (unread s).map (⟨·, some why⟩)
  call : ∀ why, s'.call.throws = some why →
    s'.current = s.current ∧ s'.offset = s.offset ∧ ∀ b ∈ s.current, why.Seen s b.generation

theorem Silent.reads {s t s' : St F} (h : Silent t s') (xs : List F)
    (hlog : t.log = s.log ++ xs.map (⟨·, none⟩)) (hverdicts : t.verdicts = s.verdicts) :
    CallReads s s' where
  verdicts := h.verdicts.trans hverdicts
  log := .inl ⟨xs, h.log.trans hlog⟩
  call why hc := by rw [h.call] at hc; cases hc

theorem callStep_reads {c : Cfg} {s s' : St F} (hst : callStep c s s.call = some s') :
    CallReads s s' := by
  have hnil : s.log = s.log ++ ([] : List F).map (⟨·, none⟩) := (List.append_nil _).symm
  cases hu : s.call with
  | idle missing => simp [hu, callStep] at hst
  | phase now total | enter now total | loadGeneration now total | loadEmergency now total g =>
    simp only [hu, callStep, Option.some.injEq] at hst; subst hst
    refine Silent.reads ?_ [] hnil rfl
    repeat' split
    all_goals exact ⟨rfl, rfl, rfl⟩
  | fault total | raiseEmergency total | returnFrames j stale b | returnAnchor j stale b frames
  | returnClock j stale b frames previous =>
    simp only [hu, callStep, Option.some.injEq] at hst; subst hst
    exact Silent.reads ⟨rfl, rfl, rfl⟩ [] hnil rfl
  | storeFrames now total resetting =>
    simp only [hu, callStep, Option.some.injEq] at hst; subst hst
    exact (silent_loop _ _).reads [] hnil rfl
  | pop j =>
    simp only [hu, callStep] at hst
    split at hst
    · simp only [Option.some.injEq] at hst; subst hst
      exact Silent.reads ⟨rfl, rfl, rfl⟩ [] hnil rfl
    · simp only [Option.some.injEq] at hst; subst hst
      exact (silent_finish _ _).reads [] hnil rfl
  | checkGeneration j =>
    simp only [hu, callStep, Option.map_eq_some_iff] at hst
    obtain ⟨b, hb, rfl⟩ := hst
    split
    · refine ⟨rfl, .inl ⟨[], hnil⟩, fun why h => ⟨rfl, rfl, fun b' hb' => ?_⟩⟩
      rw [hb, Option.mem_some_iff] at hb'
      subst hb'
      cases h
      exact ⟨rfl, rfl⟩
    · exact Silent.reads ⟨rfl, rfl, rfl⟩ [] hnil rfl
  | checkEmergency j =>
    simp only [hu, callStep, Option.some.injEq] at hst; subst hst
    refine ⟨rfl, .inl ⟨[], hnil⟩, fun why h => ⟨rfl, rfl, fun b _ => ?_⟩⟩
    dsimp only at h
    split at h
    · rename_i hflag
      cases h
      exact hflag
    · cases h
  | discard j why =>
    simp only [hu, callStep, Option.map_eq_some_iff] at hst
    obtain ⟨b, hb, rfl⟩ := hst
    refine ⟨rfl, .inr ⟨why, by rw [hu]; rfl, by rw [hb]; rfl, ?_⟩, fun _ h => by cases h⟩
    simp only [unread, hb]
  | play j =>
    simp only [hu, callStep, Option.map_eq_some_iff] at hst
    obtain ⟨b, hb, rfl⟩ := hst
    split
    · exact ⟨rfl, .inl ⟨_, rfl⟩, fun _ h => by cases h⟩
    · exact (silent_loop _ _).reads _ rfl rfl
  | returnPush j stale b =>
    simp only [hu, callStep, Option.some.injEq] at hst; subst hst
    split
    · exact (silent_afterReturn _ _ _ _).reads [] hnil rfl
    · exact (silent_finish _ _).reads [] hnil rfl

/-- What a step of the renderer, whose last check is about `g`, adds to the
verdicts. -/
structure RendVerdict (s s' : St F) : Prop where
  verdicts : s'.verdicts = s.verdicts ∨ (∃ xs, s'.verdicts = s.verdicts ++ [(xs, none)]) ∨
    ∃ b g why, (s.rend = .checkGeneration b g ∨ s.rend = .checkEmergency b g) ∧
      why.Seen s g ∧ s'.verdicts = s.verdicts ++ [(b.samples, some why)]
  log : s'.log = s.log
  call : s'.call = s.call
  current : s'.current = s.current
  offset : s'.offset = s.offset

theorem rendVerdict_takeBlock (s : St F) (now : Nat) (b : Block F) :
    RendVerdict s (takeBlock s now b) := by
  unfold takeBlock window
  split
  · exact ⟨.inl rfl, rfl, rfl, rfl, rfl⟩
  · split <;> exact ⟨.inl rfl, rfl, rfl, rfl, rfl⟩

theorem rendStep_verdict {c : Cfg} {s s' : St F} (hst : rendStep c s s.rend = some s') :
    RendVerdict s s' := by
  cases hu : s.rend with
  | idle rendered | render b => simp [hu, rendStep] at hst
  | phase now | gate now | full now | primeFrames now index b | addFrames b | subFrames b =>
    simp only [hu, rendStep, Option.some.injEq] at hst; subst hst
    exact ⟨.inl rfl, rfl, rfl, rfl, rfl⟩
  | primeAnchor now index b =>
    simp only [hu, rendStep, Option.some.injEq, window] at hst; subst hst
    split <;> exact ⟨.inl rfl, rfl, rfl, rfl, rfl⟩
  | take now =>
    simp only [hu, rendStep] at hst
    split at hst
    · rename_i b hb
      simp only [Option.some.injEq] at hst; subst hst
      have h := rendVerdict_takeBlock { s with pending := none } now b
      exact ⟨h.verdicts, h.log, h.call, h.current, h.offset⟩
    · split at hst <;> simp only [Option.some.injEq] at hst <;> subst hst
      · rename_i b free hfree
        have h := rendVerdict_takeBlock { s with free } now b
        exact ⟨h.verdicts, h.log, h.call, h.current, h.offset⟩
      · exact ⟨.inl rfl, rfl, rfl, rfl, rfl⟩
  | checkGeneration b g =>
    simp only [hu, rendStep, Option.some.injEq] at hst; subst hst
    split
    · rename_i hne
      exact ⟨.inr (.inr ⟨b, g, .generation g s.generation hne, .inl hu, ⟨rfl, rfl⟩, rfl⟩),
        rfl, rfl, rfl, rfl⟩
    · exact ⟨.inl rfl, rfl, rfl, rfl, rfl⟩
  | checkEmergency b g =>
    simp only [hu, rendStep, Option.some.injEq] at hst; subst hst
    split
    · rename_i hflag
      exact ⟨.inr (.inr ⟨b, g, .emergency, .inr hu, hflag, rfl⟩), rfl, rfl, rfl, rfl⟩
    · exact ⟨.inl rfl, rfl, rfl, rfl, rfl⟩
  | push b =>
    simp only [hu, rendStep, Option.some.injEq] at hst; subst hst
    split
    · exact ⟨.inr (.inl ⟨_, rfl⟩), rfl, rfl, rfl, rfl⟩
    · exact ⟨.inl rfl, rfl, rfl, rfl, rfl⟩

/-- The check that threw the frame away had seen why, with the frame unread in
its block. -/
def Read.Explained (c : Cfg) (s : St F) (r : Read F) : Prop :=
  ∀ why, r.why = some why → ∃ t b, (lts F c).Before t s ∧ t.current = some b ∧
    r.frame ∈ unread t ∧ why.Seen t b.generation

/-- The check that kept the render from the queue had seen why. -/
def VerdictExplained (c : Cfg) (s : St F) (v : List F × Option Stale) : Prop :=
  ∀ why, v.2 = some why → ∃ t b g, (lts F c).Before t s ∧
    (t.rend = .checkGeneration b g ∨ t.rend = .checkEmergency b g) ∧ v.1 = b.samples ∧
    why.Seen t g

/-- The check that is about to throw the block away has seen why. -/
def ThrowExplained (c : Cfg) (s s' : St F) : Prop :=
  ∀ why, s'.call.throws = some why → ∃ t, (lts F c).Before t s ∧ t.current = s'.current ∧
    t.offset = s'.offset ∧ ∀ b ∈ t.current, why.Seen t b.generation

structure Explained (c : Cfg) (s : St F) : Prop where
  log : ∀ r ∈ s.log, r.Explained c s
  verdicts : ∀ v ∈ s.verdicts, VerdictExplained c s v
  call : ThrowExplained c s s

section Explained

variable {c : Cfg} {s s' : St F} {l : Lbl F}

/-- What was explained stays explained; a step owes an explanation for what it
adds only. -/
theorem Explained.next (E : Explained c s) (hst : step c s l = some s')
    (hlog : ∀ r ∈ s'.log, r ∈ s.log ∨ r.Explained c s)
    (hverdicts : ∀ v ∈ s'.verdicts, v ∈ s.verdicts ∨ VerdictExplained c s v)
    (hcall : ThrowExplained c s s') : Explained c s' where
  log r hr why hw := by
    obtain ⟨t, b, ht, h⟩ := (hlog r hr).elim (E.log r) id why hw
    exact ⟨t, b, ht.step hst, h⟩
  verdicts v hv why hw := by
    obtain ⟨t, b, g, ht, h⟩ := (hverdicts v hv).elim (E.verdicts v) id why hw
    exact ⟨t, b, g, ht.step hst, h⟩
  call why hw := by
    obtain ⟨t, ht, h⟩ := hcall why hw
    exact ⟨t, ht.step hst, h⟩

theorem ThrowExplained.keep (T : ThrowExplained c s s) (hcall : s'.call = s.call)
    (hcurrent : s'.current = s.current) (hoffset : s'.offset = s.offset) :
    ThrowExplained c s s' := by
  unfold ThrowExplained
  rw [hcall, hcurrent, hoffset]
  exact T

theorem Explained.callback (E : Explained c s) (hr : (lts F c).Reachable s)
    (hst : step c s .call = some s') : Explained c s' := by
  have R := callStep_reads hst
  refine E.next hst (fun r hmem => ?_) (fun v hv => .inl (R.verdicts ▸ hv)) fun why hw => ?_
  · obtain ⟨xs, hlog⟩ | ⟨why, hthrow, hcurrent, hlog⟩ := R.log <;>
      rw [hlog, List.mem_append, List.mem_map] at hmem
    · refine hmem.imp id ?_
      rintro ⟨x, -, rfl⟩ why hw
      cases hw
    · refine hmem.imp id ?_
      rintro ⟨x, hx, rfl⟩ why' hw
      cases hw
      -- what is unread now was unread at the check
      obtain ⟨t, ht, hc, ho, hseen⟩ := E.call why hthrow
      obtain ⟨b, hb⟩ := Option.isSome_iff_exists.mp hcurrent
      have hunread : unread t = unread s := by simp only [unread, hc, ho]
      exact ⟨t, b, ht, hc.trans hb, hunread ▸ hx, hseen b (hc.trans hb)⟩
  · obtain ⟨hc, ho, hseen⟩ := R.call why hw
    exact ⟨s, hr.before, hc.symm, ho.symm, hseen⟩

theorem Explained.renderer (E : Explained c s) (hr : (lts F c).Reachable s)
    (hst : step c s .rend = some s') : Explained c s' := by
  have V := rendStep_verdict hst
  refine E.next hst (fun r h => .inl (V.log ▸ h)) (fun v hv => ?_)
    (E.call.keep V.call V.current V.offset)
  obtain hsame | ⟨xs, hsame⟩ | ⟨b, g, why, hcheck, hseen, hsame⟩ := V.verdicts
  · exact .inl (hsame ▸ hv)
  · rw [hsame, List.mem_append, List.mem_singleton] at hv
    refine hv.imp id ?_
    rintro rfl why hw
    cases hw
  · rw [hsame, List.mem_append, List.mem_singleton] at hv
    refine hv.imp id ?_
    rintro rfl why' hw
    cases hw
    exact ⟨s, b, g, hr.before, hcheck, rfl, hseen⟩

theorem Explained.step (E : Explained c s) (hr : (lts F c).Reachable s)
    (hst : step c s l = some s') : Explained c s' := by
  have keep (hlog : s'.log = s.log) (hverdicts : s'.verdicts = s.verdicts)
      (hcall : s'.call = s.call) (hcurrent : s'.current = s.current)
      (hoffset : s'.offset = s.offset) : Explained c s' :=
    E.next hst (fun _ h => .inl (hlog ▸ h)) (fun _ h => .inl (hverdicts ▸ h))
      (E.call.keep hcall hcurrent hoffset)
  cases l with
  | call => exact E.callback hr hst
  | rend => exact E.renderer hr hst
  | bumpGeneration | setEmergency on | setGate closed | setPhase phase | setAnchor us
  | setFrames frames =>
    cases hst
    refine keep ?_ ?_ ?_ ?_ ?_ <;> first | rfl | (split <;> rfl)
  | setFatal code =>
    simp only [RenderAhead.step] at hst
    split at hst
    · cases hst
    · cases hst
      exact keep rfl rfl rfl rfl rfl
  | renderNext now =>
    simp only [RenderAhead.step] at hst
    split at hst
    · cases hst
      exact keep rfl rfl rfl rfl rfl
    · cases hst
  | rendered samples generation =>
    simp only [RenderAhead.step] at hst
    repeat' split at hst
    all_goals cases hst
    all_goals exact keep rfl rfl rfl rfl rfl
  | copyInto len now =>
    have hst' := hst
    simp only [RenderAhead.step] at hst
    split at hst
    · cases hst
      exact E.next hst' (fun _ h => .inl h) (fun _ h => .inl h) fun _ h => by cases h
    · cases hst

end Explained

theorem explained (F : Type) (c : Cfg) (s : St F) (h : (lts F c).Reachable s) : Explained c s := by
  have hE : (lts F c).InductiveUnder (lts F c).Reachable (Explained c) := by
    refine ⟨?_, fun s l s' hr E hst => E.step hr hst⟩
    rintro s ⟨frames, h⟩
    simp only [channel] at h
    split at h
    · cases h
    · cases h
      exact ⟨by simp, by simp, fun _ h => by cases h⟩
  exact hE.reachable LTS.reachable_inductive s h

/-! ## Headline property -/

/-- What every interleaving of renderer, callback and application keeps: no
block is lost or made, neither ring is ever pushed to when full, the frame
count is exact, and the callback reads the queued renders in order, every
frame once, and plays it unless it or its render is thrown away as stale, for
a generation or an emergency flag that the check saw. -/
theorem pool_conserved (F : Type) (c : Cfg) (s : St F) (h : (lts F c).Reachable s) :
    s.free.length + s.ready.length + s.pending.toList.length + s.rend.block.toList.length +
      s.current.toList.length + s.call.block.toList.length = c.blocks ∧
    (∀ j stale b, s.call = .returnPush j stale b → s.free.length < c.blocks) ∧
    (∀ b, s.rend = .push b → s.ready.length < c.blocks) ∧
    s.fatal ≠ 14 ∧
    s.queueFrames = readyFrames s + unreadFrames s + s.rend.inPush ∧
    0 ≤ s.queueFrames ∧
    pushed s = s.log.map Read.frame ++ unread s ++ s.ready.flatMap Block.samples ∧
    s.output.flatten.filterMap Out.played ++ s.call.data.filterMap Out.played =
      s.log.filterMap Read.played ∧
    (∀ r ∈ s.log, r.Explained c s) ∧
    ∀ v ∈ s.verdicts, VerdictExplained c s v := by
  have I := (inv_inductive F c).reachable s h
  have A := I.at_
  have E := explained F c s h
  have hn := A.count
  refine ⟨hn, ?_, ?_, A.fatal, A.queue, by rw [A.queue]; omega, A.stream, A.output, E.log,
    E.verdicts⟩
  · intro j stale b hu
    simp only [hu, Call.block, Option.toList_some, List.length_singleton] at hn
    omega
  · intro b hu
    simp only [hu, Rend.block, Option.toList_some, List.length_singleton] at hn
    omega

/-! ## Non-vacuity: two blocks, a partial read and a panic -/

def cfg2 : Cfg := ⟨1, 8, 1000, 2⟩

def started : St Nat :=
  { phase := 0, anchorUs := 0, frames := 4, generation := 0, emergency := false, gateClosed := false,
    fatal := 0, queueFrames := 0, ready := [], free := [⟨[], ⟨4, 0⟩, 0, some 0⟩, ⟨[], ⟨4, 0⟩, 0, some 1⟩],
    pending := none, waitingForSource := false, rend := .idle false, current := none, offset := 0,
    last := none, recovering := false, lastEndpoint := 0, seenGeneration := 0, call := .idle 0,
    verdicts := [], log := [], output := [] }

def tracePrime : List (Lbl Nat) :=
  [.setAnchor 100000, .setPhase 1, .renderNext 100000, .rend, .rend, .rend, .rend, .rend, .rend,
   .rendered [1, 2, 3, 4] (some 0), .rend, .rend, .rend, .rend,
   .renderNext 100000, .rend, .rend, .rend, .rend, .rend, .rend,
   .rendered [5, 6, 7, 8] (some 0), .rend, .rend, .rend, .rend, .setPhase 2]

def primed : St Nat :=
  { started with
    phase := 2, anchorUs := 100000, queueFrames := 8, rend := .idle true, free := [],
    ready := [⟨[1, 2, 3, 4], ⟨4, 92000⟩, 0, none⟩, ⟨[5, 6, 7, 8], ⟨4, 96000⟩, 0, none⟩],
    verdicts := [([1, 2, 3, 4], none), ([5, 6, 7, 8], none)] }

/-- Two frames are played, the generation moves on and the next call throws
the rest away. -/
def tracePanic : List (Lbl Nat) :=
  [.copyInto 2 102000, .call, .call, .call, .call, .call, .call, .call, .call, .call,
   .bumpGeneration, .copyInto 2 104000, .call, .call, .call, .call, .call, .call,
   .call, .call, .call, .call, .call, .call, .call, .call, .call, .call, .call]

def panicStale (x : Nat) : Read Nat := ⟨x, some (.generation 0 1 (by decide))⟩

def panicked : St Nat :=
  { primed with
    frames := 2, generation := 1, queueFrames := 0, ready := [],
    free := [⟨[1, 2, 3, 4], ⟨2, 102000⟩, 0, none⟩, ⟨[5, 6, 7, 8], ⟨2, 104000⟩, 0, none⟩],
    recovering := true, lastEndpoint := 104000, seenGeneration := 1, call := .idle 2,
    log := [⟨1, none⟩, ⟨2, none⟩] ++ [3, 4, 5, 6, 7, 8].map panicStale,
    output := [[.sample 1 none, .sample 2 none], [.silence, .silence]] }

theorem tracePrime_result : LTS.exec (step cfg2) started tracePrime = some primed := by
  decide +kernel

theorem tracePanic_result : LTS.exec (step cfg2) primed tracePanic = some panicked := by
  decide +kernel

theorem panicked_all_returned :
    panicked.fatal ≠ 14 ∧ pushed panicked = panicked.log.map Read.frame ∧
      ∃ t, (lts Nat cfg2).Before t panicked ∧ 3 ∈ unread t ∧ t.generation = 1 := by
  have hp : (lts Nat cfg2).Reachable primed :=
    LTS.reachable_of_exec tracePrime ⟨4, rfl⟩ tracePrime_result
  obtain ⟨-, -, -, hfatal, -, -, hstream, -, hlog, -⟩ :=
    pool_conserved Nat cfg2 panicked (hp.exec tracePanic tracePanic_result)
  refine ⟨hfatal, by simpa [unread, panicked, primed, started] using hstream, ?_⟩
  obtain ⟨t, b, ht, -, hx, hseen⟩ := hlog (panicStale 3) (by simp [panicked]) _ rfl
  exact ⟨t, ht, hx, hseen.2.symm⟩

end RtpOscMidi.L5.RenderAhead
