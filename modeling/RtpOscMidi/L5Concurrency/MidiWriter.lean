import RtpOscMidi.Core.LTS
import RtpOscMidi.Core.Lists

/-!
# The supervisor's MIDI writer

`try_send_midi_at` stamps a frame with the MIDI generation and queues it;
`request_emergency_reset` bumps the generation, then sets a flag, then wakes
the writer. `midi_writer` writes frames of its own generation in batches; on
a set flag or a moved generation it takes over the generation and writes an
in-band [0xFF] reset.

A step is one atomic access, one queue operation or one write of any sender,
any reset or the writer; the state a writer starts in is arbitrary. Whether
the queue accepts a frame is left open (`room`), and a write may fail after
any part of what it writes. Clock readings, diagnostics and the flag raised
after the writer has ended are left out. Generations and sequence numbers
are `Nat`.

A reset in `pipe` carries the generation the writer had when it wrote it;
`admitted` records the frames queued, in order.
-/
namespace RtpOscMidi.L5.MidiWriter

open Core

variable {D : Type}

structure Frame (D : Type) where
  sequence : Nat
  generation : Nat
  data : D
  deriving DecidableEq, Repr

inductive Item (D : Type) where
  | reset (generation : Nat)
  | midi (f : Frame D)
  deriving DecidableEq, Repr

/-- mirrors src-tauri/src/vst_worker/supervisor.rs:554-560 -/
inductive Resetter where
  | bump
  | raise
  | notify
  | done
  deriving DecidableEq, Repr

/-- `data = none`: bytes that make no frame.
mirrors src-tauri/src/vst_worker/supervisor.rs:527-552 -/
inductive Sender (D : Type) where
  | sequence (data : Option D)
  | stamp (sequence : Nat) (data : D)
  | send (f : Frame D)
  | done
  deriving DecidableEq, Repr

/-- mirrors src-tauri/src/vst_worker/supervisor.rs:1103-1190 -/
inductive Writer (D : Type) where
  | swap
  | compare
  | reload
  | writeReset
  | select
  | recv
  | recheck (f : Frame D)
  | fill (batch : List (Frame D)) (consumed : Nat)
  | fillRecv (batch : List (Frame D)) (consumed : Nat)
  | checkFlag (batch : List (Frame D))
  | checkGeneration (batch : List (Frame D))
  | write (batch : List (Frame D))
  /-- a write has failed -/
  | dead
  /-- the queue is closed and empty -/
  | ended
  deriving DecidableEq, Repr

structure St (D : Type) where
  midiGeneration : Nat
  resetPending : Bool
  permit : Bool
  sequence : Nat
  resetters : List Resetter
  senders : List (Sender D)
  queue : List (Frame D)
  closed : Bool
  generation : Nat
  saved : Option (Frame D)
  writer : Writer D
  admitted : List (Frame D)
  pipe : List (Item D)
  deriving DecidableEq, Repr

/-- The writer starts with generation 0 whatever the counter is. -/
def init (D : Type) (midiGeneration sequence : Nat) (resetPending permit : Bool) : St D :=
  { midiGeneration, resetPending, permit, sequence, resetters := [], senders := [], queue := [],
    closed := false, generation := 0, saved := none, writer := .swap, admitted := [], pipe := [] }

inductive Lbl (D : Type) where
  | request
  | resetter (t : Nat)
  | send (data : Option D)
  /-- the next access of sender `t`; `room`: there is a route and it accepts -/
  | sender (t : Nat) (room : Bool)
  /-- the last sender of the queue is dropped -/
  | close
  /-- the writer's next access; a write fails after `failAt` frames -/
  | writer (failAt : Option Nat)
  deriving DecidableEq, Repr

/-- mirrors src-tauri/src/vst_worker/supervisor.rs:554-560 -/
def resetterStep (s : St D) (t : Nat) : Resetter → Option (St D)
  | .bump =>
    some { s with midiGeneration := s.midiGeneration + 1, resetters := s.resetters.set t .raise }
  | .raise => some { s with resetPending := true, resetters := s.resetters.set t .notify }
  | .notify => some { s with permit := true, resetters := s.resetters.set t .done }
  | .done => none

/-- mirrors src-tauri/src/vst_worker/supervisor.rs:527-552 -/
def senderStep (s : St D) (t : Nat) (room : Bool) : Sender D → Option (St D)
  | .sequence data =>
    some { s with
      sequence := s.sequence + 1,
      senders := s.senders.set t (match data with
        | some d => .stamp s.sequence d
        | none => .done) }
  | .stamp n d => some { s with senders := s.senders.set t (.send ⟨n, s.midiGeneration, d⟩) }
  | .send f =>
    let s := { s with senders := s.senders.set t .done }
    some (if room && !s.closed then
        { s with queue := s.queue ++ [f], admitted := s.admitted ++ [f] }
      else s)
  | .done => none

def maxBatch : Nat := 256

/-- What a received frame is to the writer, before its own check of the
generation.
mirrors src-tauri/src/vst_worker/supervisor.rs:1146-1149 -/
def received (s : St D) (f : Frame D) : St D :=
  if f.generation < s.generation then { s with writer := .swap }
  else if f.generation > s.generation then { s with saved := some f, writer := .swap }
  else { s with writer := .recheck f }

/-- A frame of the fill loop, the `consumed`-th of the batch.
mirrors src-tauri/src/vst_worker/supervisor.rs:1154-1165 -/
def filled (s : St D) (batch : List (Frame D)) (consumed : Nat) (f : Frame D) : St D :=
  if f.generation < s.generation then { s with writer := .fill batch consumed }
  else if f.generation > s.generation then { s with saved := some f, writer := .checkFlag batch }
  else { s with writer := .fill (batch ++ [f]) consumed }

/-- mirrors src-tauri/src/vst_worker/supervisor.rs:1103-1190 -/
def writerStep (s : St D) (failAt : Option Nat) : Writer D → Option (St D)
  | .swap =>
    some { s with resetPending := false, writer := if s.resetPending then .reload else .compare }
  | .compare =>
    some { s with writer := if s.generation ≠ s.midiGeneration then .reload else .select }
  | .reload => some { s with generation := s.midiGeneration, writer := .writeReset }
  | .writeReset =>
    some (match failAt with
      | none => { s with sequence := s.sequence + 1, pipe := s.pipe ++ [.reset s.generation],
                         writer := .select }
      | some n => { s with sequence := s.sequence + 1,
                           pipe := s.pipe ++ [Item.reset s.generation].take n, writer := .dead })
  | .select =>
    some (if s.permit then { s with permit := false, writer := .swap }
          else { s with writer := .recv })
  | .recv =>
    some (match s.saved, s.queue with
      | some f, _ => received { s with saved := none } f
      | none, f :: queue => received { s with queue } f
      | none, [] => { s with writer := if s.closed then .ended else .select })
  | .recheck f =>
    some (if s.midiGeneration ≠ s.generation then { s with saved := some f, writer := .swap }
          else { s with writer := .fill [f] 1 })
  | .fill batch consumed =>
    some { s with writer :=
      if consumed < maxBatch ∧ s.resetPending = false then .fillRecv batch consumed
      else .checkFlag batch }
  | .fillRecv batch consumed =>
    some (match s.queue with
      | f :: queue => filled { s with queue } batch (consumed + 1) f
      | [] => { s with writer := .checkFlag batch })
  | .checkFlag batch =>
    some { s with writer := if s.resetPending then .swap else .checkGeneration batch }
  | .checkGeneration batch =>
    some { s with writer := if s.generation ≠ s.midiGeneration then .swap else .write batch }
  | .write batch =>
    some (match failAt with
      | none => { s with pipe := s.pipe ++ batch.map .midi, writer := .swap }
      | some n => { s with pipe := s.pipe ++ (batch.take n).map .midi, writer := .dead })
  | .dead => none
  | .ended => none

def step (s : St D) : Lbl D → Option (St D)
  | .request => some { s with resetters := s.resetters ++ [.bump] }
  | .resetter t => s.resetters[t]?.bind (resetterStep s t)
  | .send data => some { s with senders := s.senders ++ [.sequence data] }
  | .sender t room => s.senders[t]?.bind (senderStep s t room)
  | .close => some { s with closed := true }
  | .writer failAt => writerStep s failAt s.writer

def lts (D : Type) : LTS (St D) (Lbl D) :=
  .ofStep (fun s => ∃ g n p q, s = init D g n p q) step

/-! ## When nothing newer than a reset is lost -/

def Item.isMidi (g : Nat) : Item D → Bool
  | .midi f => f.generation == g
  | .reset _ => false

/-- The writer meets the flag of a reset only together with its generation:
a batch is not given up, and no reset repeated, for a generation that the
writer has already taken over and written frames of. -/
def timely (s : St D) : Lbl D → Bool
  | .writer _ =>
    match s.writer with
    | .checkFlag _ => !s.resetPending || s.generation != s.midiGeneration
    | .reload => s.generation != s.midiGeneration || !s.pipe.any (Item.isMidi s.generation)
    | _ => true
  | _ => true

/-! ## Invariant -/

/-- The frames the writer has taken from the queue and not yet decided on. -/
def Writer.frames : Writer D → List (Frame D)
  | .recheck f => [f]
  | .fill b _ | .fillRecv b _ | .checkFlag b | .checkGeneration b | .write b => b
  | _ => []

def held (s : St D) : List (Frame D) := s.writer.frames ++ s.saved.toList

def Item.frame : Item D → Option (Frame D)
  | .midi f => some f
  | .reset _ => none

def written (s : St D) : List (Frame D) := s.pipe.filterMap Item.frame

/-- What may follow what in the pipe. -/
def Follows : Item D → Item D → Prop
  | .reset g, .midi f => g ≤ f.generation
  | .midi f, .reset g => f.generation < g
  | _, _ => True

/-- The reset that a frame has to follow. -/
def Opens : Item D → Item D → Prop
  | .reset g, .midi f => f.generation ≤ g
  | _, _ => False

def NeedsReset : Item D → Prop
  | .midi f => 0 < f.generation
  | .reset _ => False

/-- Everything in the pipe is of the writer's generation or older. -/
def ItemOk (g : Nat) : Item D → Prop
  | .midi f => f.generation ≤ g
  | .reset g' => g' ≤ g

def WriterOk (s : St D) : Writer D → Prop
  | .writeReset => ∀ f, .midi f ∈ s.pipe → f.generation < s.generation
  | .recheck _ | .fill _ _ | .fillRecv _ _ => s.saved = none
  | _ => True

structure PipeOk (s : St D) : Prop where
  follows : s.pipe.Pairwise Follows
  led : Led Opens NeedsReset s.pipe
  opened : s.writer ≠ .writeReset → s.writer ≠ .dead → 0 < s.generation →
    .reset s.generation ∈ s.pipe
  items : ∀ i ∈ s.pipe, ItemOk s.generation i
  batch : ∀ f ∈ s.writer.frames, f.generation = s.generation
  generation : s.generation ≤ s.midiGeneration
  writer : WriterOk s s.writer

structure FramesOk (s : St D) : Prop where
  sending : ∀ f, .send f ∈ s.senders → f.generation ≤ s.midiGeneration
  stamped : ∀ f ∈ s.admitted, f.generation ≤ s.midiGeneration
  order : ∃ taken, s.admitted = taken ++ s.queue ∧ (written s ++ held s).Sublist taken
  kept : s.writer ≠ .dead → ∀ f ∈ s.admitted,
    f ∈ written s ∨ f ∈ held s ∨ f ∈ s.queue ∨ f.generation < s.midiGeneration

/-! ## Frames -/

/-- The writer takes `new` from the queue; what it wrote and holds stays in
order, and what it gives up is older than the generation. -/
theorem FramesOk.move {s s' : St D} {new : List (Frame D)} (F : FramesOk s)
    (hm : s'.midiGeneration = s.midiGeneration) (ha : s'.admitted = s.admitted)
    (hse : s'.senders = s.senders) (hq : s.queue = new ++ s'.queue)
    (hsub : (written s' ++ held s').Sublist (written s ++ held s ++ new))
    (hk : s'.writer ≠ .dead → s.writer ≠ .dead ∧ ∀ f ∈ written s ++ held s ++ new,
      f ∈ written s' ∨ f ∈ held s' ∨ f.generation < s.midiGeneration) : FramesOk s' := by
  refine ⟨by rw [hse, hm]; exact F.sending, by rw [ha, hm]; exact F.stamped, ?_, ?_⟩
  · obtain ⟨taken, htaken, hs⟩ := F.order
    refine ⟨taken ++ new, ?_, hsub.trans (hs.append (List.Sublist.refl new))⟩
    rw [ha, htaken, hq, List.append_assoc]
  · intro hd f hf
    obtain ⟨hd', hk⟩ := hk hd
    rw [ha] at hf
    rw [hm]
    have hcases : f ∈ written s ++ held s ++ new ∨ f ∈ s'.queue ∨ f.generation < s.midiGeneration := by
      rcases F.kept hd' f hf with h | h | h | h
      · exact .inl (by simp [h])
      · exact .inl (by simp [h])
      · rw [hq] at h
        rcases List.mem_append.mp h with h | h
        · exact .inl (by simp [h])
        · exact .inr (.inl h)
      · exact .inr (.inr h)
    rcases hcases with h | h | h
    · rcases hk f h with h | h | h
      · exact .inl h
      · exact .inr (.inl h)
      · exact .inr (.inr (.inr h))
    · exact .inr (.inr (.inl h))
    · exact .inr (.inr (.inr h))

/-- The writer moves on with what it holds. -/
theorem FramesOk.moves {s s' : St D} (F : FramesOk s) (hd : s.writer ≠ .dead)
    (hm : s'.midiGeneration = s.midiGeneration) (ha : s'.admitted = s.admitted)
    (hse : s'.senders = s.senders) (hq : s'.queue = s.queue) (hw : written s' = written s)
    (hh : held s' = held s) : FramesOk s' := by
  refine @FramesOk.move _ s s' [] F hm ha hse hq.symm ?_ fun _ => ⟨hd, fun f hf => ?_⟩
  · rw [hw, hh, List.append_nil]
  · rw [List.append_nil] at hf
    rw [hw, hh]
    rcases List.mem_append.mp hf with h | h
    · exact .inl h
    · exact .inr (.inl h)

theorem frames_received {s s' : St D} {f : Frame D} {new : List (Frame D)} (F : FramesOk s)
    (hg : s.generation ≤ s.midiGeneration) (hd : s.writer ≠ .dead)
    (hm : s'.midiGeneration = s.midiGeneration) (ha : s'.admitted = s.admitted)
    (hse : s'.senders = s.senders) (hq : s.queue = new ++ s'.queue) (hp : s'.pipe = s.pipe)
    (hgen : s'.generation = s.generation) (hsaved : s'.saved = none) (hh : held s ++ new = [f]) :
    FramesOk (received s' f) := by
  have hmem : ∀ x ∈ written s ++ held s ++ new, x ∈ written s ∨ x = f := by
    intro x hx
    rw [List.append_assoc, hh] at hx
    simpa using hx
  unfold received
  split
  · rename_i hlt
    refine F.move hm ha hse hq ?_ fun _ => ⟨hd, fun x hx => ?_⟩
    · rw [List.append_assoc, hh]
      simp [held, Writer.frames, hsaved, written, hp]
    · rcases hmem x hx with h | rfl
      · exact .inl (by simpa only [written, hp] using h)
      · exact .inr (.inr (by omega))
  · split
    · refine F.move hm ha hse hq ?_ fun _ => ⟨hd, fun x hx => ?_⟩
      · rw [List.append_assoc, hh]
        simp [held, Writer.frames, written, hp]
      · rcases hmem x hx with h | rfl
        · exact .inl (by simpa only [written, hp] using h)
        · exact .inr (.inl (by simp [held]))
    · refine F.move hm ha hse hq ?_ fun _ => ⟨hd, fun x hx => ?_⟩
      · rw [List.append_assoc, hh]
        simp [held, Writer.frames, hsaved, written, hp]
      · rcases hmem x hx with h | rfl
        · exact .inl (by simpa only [written, hp] using h)
        · exact .inr (.inl (by simp [held, Writer.frames]))

/-- A batch is given up for a generation that has moved. -/
theorem FramesOk.drops {s : St D} {batch : List (Frame D)} (F : FramesOk s)
    (hb : s.writer.frames = batch) (hd : s.writer ≠ .dead)
    (hg : ∀ f ∈ batch, f.generation < s.midiGeneration) :
    FramesOk { s with writer := .swap } := by
  refine @FramesOk.move _ s _ [] F rfl rfl rfl rfl ?_ fun _ => ⟨hd, fun f hf => ?_⟩
  · rw [List.append_nil]
    exact (List.Sublist.refl _).append (List.sublist_append_right _ _)
  · simp only [held, hb, List.append_nil, List.mem_append] at hf
    rcases hf with h | h | h
    · exact .inl h
    · exact .inr (.inr (hg f h))
    · exact .inr (.inl (by simpa [held, Writer.frames] using h))

theorem written_append (s : St D) (batch : List (Frame D)) :
    (s.pipe ++ batch.map Item.midi).filterMap Item.frame = written s ++ batch := by
  rw [List.filterMap_append, List.filterMap_map, written]
  congr 1
  exact List.filterMap_some

theorem frames_writerStep {s s' : St D} {failAt : Option Nat} (P : PipeOk s) (F : FramesOk s)
    (hok : timely s (.writer failAt) = true) (hst : writerStep s failAt s.writer = some s') :
    FramesOk s' := by
  have hlt : s.generation ≠ s.midiGeneration → ∀ f ∈ s.writer.frames,
      f.generation < s.midiGeneration := by
    intro hne f hf
    have := P.batch f hf
    have := P.generation
    omega
  have hwok := P.writer
  cases hu : s.writer with
  | swap | compare | fill batch consumed =>
    rw [hu] at hst
    simp only [writerStep, Option.some.injEq] at hst; subst hst
    refine F.moves (by rw [hu]; nofun) rfl rfl rfl rfl rfl ?_
    simp only [held, hu]
    split <;> rfl
  | reload =>
    rw [hu] at hst
    simp only [writerStep, Option.some.injEq] at hst; subst hst
    exact F.moves (by rw [hu]; nofun) rfl rfl rfl rfl rfl (by simp only [held, hu]; rfl)
  | select =>
    rw [hu] at hst
    simp only [writerStep, Option.some.injEq] at hst; subst hst
    split <;> exact F.moves (by rw [hu]; nofun) rfl rfl rfl rfl rfl (by simp only [held, hu]; rfl)
  | writeReset =>
    rw [hu] at hst
    simp only [writerStep, Option.some.injEq] at hst; subst hst
    split
    · refine F.moves (by rw [hu]; nofun) rfl rfl rfl rfl ?_ (by simp only [held, hu]; rfl)
      simp [written, Item.frame]
    · rename_i n
      refine @FramesOk.move _ s _ [] F rfl rfl rfl rfl ?_ (fun h => absurd rfl h)
      have hr : ([Item.reset s.generation].take n).filterMap Item.frame = ([] : List (Frame D)) := by
        cases n with
        | zero => rfl
        | succ n => simp [Item.frame]
      simp [written, held, hu, hr, Writer.frames]
  | recv =>
    rw [hu] at hst
    simp only [writerStep, Option.some.injEq] at hst; subst hst
    split
    · rename_i f hs
      exact @frames_received _ s _ f [] F P.generation (by rw [hu]; nofun) rfl rfl rfl rfl rfl rfl rfl
        (by simp [held, hu, hs, Writer.frames])
    · rename_i f queue hs hq
      exact @frames_received _ s _ f [f] F P.generation (by rw [hu]; nofun) rfl rfl rfl hq rfl rfl hs
        (by simp [held, hu, hs, Writer.frames])
    · refine F.moves (by rw [hu]; nofun) rfl rfl rfl rfl rfl ?_
      simp only [held, hu]
      split <;> rfl
  | recheck f =>
    rw [hu] at hst hwok
    have hs : s.saved = none := hwok
    simp only [writerStep, Option.some.injEq] at hst; subst hst
    split <;> exact F.moves (by rw [hu]; nofun) rfl rfl rfl rfl rfl
      (by simp [held, hu, hs, Writer.frames])
  | fillRecv batch consumed =>
    rw [hu] at hst hwok
    have hs : s.saved = none := hwok
    simp only [writerStep, Option.some.injEq] at hst; subst hst
    split
    · rename_i f queue hq
      have hheld : held s = batch := by simp [held, hu, hs, Writer.frames]
      unfold filled
      split
      · rename_i hold
        refine @FramesOk.move _ s _ [f] F rfl rfl rfl hq ?_ fun _ => ⟨by rw [hu]; nofun, fun x hx => ?_⟩
        · rw [hheld]
          simp [held, hs, Writer.frames, written]
        · rw [hheld] at hx
          simp only [List.mem_append, List.mem_singleton] at hx
          rcases hx with (h | h) | rfl
          · exact .inl h
          · exact .inr (.inl (by simp [held, Writer.frames, h]))
          · have := P.generation
            exact .inr (.inr (by simp only at hold; omega))
      · split
        · refine @FramesOk.move _ s _ [f] F rfl rfl rfl hq ?_
            fun _ => ⟨by rw [hu]; nofun, fun x hx => ?_⟩
          · rw [hheld]
            simp [held, Writer.frames, written]
          · rw [hheld] at hx
            simp only [List.mem_append, List.mem_singleton] at hx
            rcases hx with (h | h) | rfl
            · exact .inl h
            · exact .inr (.inl (by simp [held, Writer.frames, h]))
            · exact .inr (.inl (by simp [held]))
        · refine @FramesOk.move _ s _ [f] F rfl rfl rfl hq ?_
            fun _ => ⟨by rw [hu]; nofun, fun x hx => ?_⟩
          · rw [hheld]
            simp [held, hs, Writer.frames, written]
          · rw [hheld] at hx
            simp only [List.mem_append, List.mem_singleton] at hx
            rcases hx with (h | h) | rfl
            · exact .inl h
            · exact .inr (.inl (by simp [held, Writer.frames, h]))
            · exact .inr (.inl (by simp [held, Writer.frames]))
    · exact F.moves (by rw [hu]; nofun) rfl rfl rfl rfl rfl (by simp only [held, hu]; rfl)
  | checkFlag batch =>
    rw [hu] at hst
    simp only [writerStep, Option.some.injEq] at hst; subst hst
    split
    · rename_i hflag
      have hne : s.generation ≠ s.midiGeneration := by simpa [timely, hu, hflag] using hok
      exact F.drops rfl (by rw [hu]; nofun) (hlt hne)
    · exact F.moves (by rw [hu]; nofun) rfl rfl rfl rfl rfl (by simp only [held, hu]; rfl)
  | checkGeneration batch =>
    rw [hu] at hst
    simp only [writerStep, Option.some.injEq] at hst; subst hst
    split
    · rename_i hne
      exact F.drops rfl (by rw [hu]; nofun) (hlt hne)
    · exact F.moves (by rw [hu]; nofun) rfl rfl rfl rfl rfl (by simp only [held, hu]; rfl)
  | write batch =>
    rw [hu] at hst
    have hheld : held s = batch ++ s.saved.toList := by simp only [held, hu]; rfl
    simp only [writerStep, Option.some.injEq] at hst; subst hst
    split
    · have hw : written { s with pipe := s.pipe ++ batch.map .midi, writer := .swap } =
          written s ++ batch := written_append s batch
      refine @FramesOk.move _ s _ [] F rfl rfl rfl rfl ?_ fun _ => ⟨by rw [hu]; nofun, fun x hx => ?_⟩
      · rw [List.append_nil, hheld, ← List.append_assoc, hw]
        exact List.Sublist.refl _
      · rw [List.append_nil, hheld, ← List.append_assoc] at hx
        rw [hw]
        rcases List.mem_append.mp hx with h | h
        · exact .inl h
        · exact .inr (.inl h)
    · rename_i n
      have hw : written { s with pipe := s.pipe ++ (batch.take n).map .midi, writer := .dead } =
          written s ++ batch.take n := written_append s (batch.take n)
      refine @FramesOk.move _ s _ [] F rfl rfl rfl rfl ?_ (fun h => absurd rfl h)
      rw [List.append_nil, hheld, ← List.append_assoc, hw]
      exact ((List.Sublist.refl _).append (List.take_sublist n batch)).append (List.Sublist.refl _)
  | dead => simp [hu, writerStep] at hst
  | ended => simp [hu, writerStep] at hst

/-! ## Pipe -/

/-- The pipe's part of the invariant, for a writer of generation `g`. -/
structure Ordered (g : Nat) (pipe : List (Item D)) : Prop where
  follows : pipe.Pairwise Follows
  led : Led Opens NeedsReset pipe
  items : ∀ i ∈ pipe, ItemOk g i

theorem PipeOk.ordered {s : St D} (P : PipeOk s) : Ordered s.generation s.pipe :=
  ⟨P.follows, P.led, P.items⟩

theorem ItemOk.mono {g g' : Nat} {i : Item D} (h : ItemOk g i) (hg : g ≤ g') : ItemOk g' i := by
  cases i with
  | reset g => exact Nat.le_trans h hg
  | midi f => exact Nat.le_trans h hg

theorem Ordered.frames {g : Nat} {pipe : List (Item D)} {batch : List (Frame D)}
    (P : Ordered g pipe) (hb : ∀ f ∈ batch, f.generation = g)
    (ho : 0 < g → .reset g ∈ pipe) : Ordered g (pipe ++ batch.map .midi) := by
  refine ⟨List.pairwise_append.mpr ⟨P.follows, ?_, ?_⟩, P.led.append ?_, ?_⟩
  · refine List.pairwise_map.mpr ?_
    exact List.Pairwise.imp (fun _ => trivial) (List.pairwise_of_forall fun _ _ => trivial)
  · intro i hi j hj
    obtain ⟨f, hf, rfl⟩ := List.mem_map.mp hj
    cases i with
    | reset g' =>
      have : g' ≤ g := P.items _ hi
      simp only [Follows]
      rw [hb f hf]
      exact this
    | midi f' => trivial
  · intro j hj hpos
    obtain ⟨f, hf, rfl⟩ := List.mem_map.mp hj
    have hfg := hb f hf
    have hpos : 0 < f.generation := hpos
    exact ⟨.reset g, ho (by omega), Nat.le_of_eq hfg⟩
  · intro i hi
    rcases List.mem_append.mp hi with hi | hi
    · exact P.items i hi
    · obtain ⟨f, hf, rfl⟩ := List.mem_map.mp hi
      exact Nat.le_of_eq (hb f hf)

theorem Ordered.reset {g : Nat} {pipe : List (Item D)} (P : Ordered g pipe)
    (h : ∀ f, .midi f ∈ pipe → f.generation < g) : Ordered g (pipe ++ [.reset g]) := by
  refine ⟨List.pairwise_append.mpr ⟨P.follows, List.pairwise_singleton _ _, ?_⟩,
    P.led.concat nofun, ?_⟩
  · intro i hi j hj
    rw [List.mem_singleton] at hj
    subst hj
    cases i with
    | reset g' => trivial
    | midi f => exact h f hi
  · intro i hi
    rcases List.mem_append.mp hi with hi | hi
    · exact P.items i hi
    · rw [List.mem_singleton] at hi
      subst hi
      exact Nat.le_refl _

/-- The writer writes nothing and takes over nothing. -/
theorem PipeOk.moves {s s' : St D} (P : PipeOk s) (hp : s'.pipe = s.pipe)
    (hg : s'.generation = s.generation) (hm : s'.midiGeneration = s.midiGeneration)
    (hd : s.writer ≠ .writeReset) (hd' : s.writer ≠ .dead)
    (hb : ∀ f ∈ s'.writer.frames, f.generation = s.generation)
    (hw : WriterOk s' s'.writer) : PipeOk s' where
  follows := by rw [hp]; exact P.follows
  led := by rw [hp]; exact P.led
  opened _ _ := by rw [hp, hg]; exact P.opened hd hd'
  items := by rw [hp, hg]; exact P.items
  batch := by rw [hg]; exact hb
  generation := by rw [hg, hm]; exact P.generation
  writer := hw

theorem pipe_received {s s' : St D} {f : Frame D} (P : PipeOk s) (hd : s.writer ≠ .writeReset)
    (hd' : s.writer ≠ .dead) (hp : s'.pipe = s.pipe) (hg : s'.generation = s.generation)
    (hm : s'.midiGeneration = s.midiGeneration) (hs : s'.saved = none) :
    PipeOk (received s' f) := by
  unfold received
  split
  · exact P.moves hp hg hm hd hd' nofun trivial
  · split
    · exact P.moves hp hg hm hd hd' nofun trivial
    · refine P.moves hp hg hm hd hd' ?_ hs
      intro x hx
      rw [List.mem_singleton.mp hx]
      omega

theorem pipe_filled {s s' : St D} {f : Frame D} {batch : List (Frame D)} {consumed n : Nat}
    (P : PipeOk s) (hu : s.writer = .fillRecv batch n) (hp : s'.pipe = s.pipe)
    (hg : s'.generation = s.generation) (hm : s'.midiGeneration = s.midiGeneration)
    (hs : s'.saved = none) : PipeOk (filled s' batch consumed f) := by
  have hd : s.writer ≠ .writeReset := by rw [hu]; nofun
  have hd' : s.writer ≠ .dead := by rw [hu]; nofun
  have hb := P.batch
  rw [hu] at hb
  unfold filled
  split
  · exact P.moves hp hg hm hd hd' hb hs
  · split
    · exact P.moves hp hg hm hd hd' hb trivial
    · refine P.moves hp hg hm hd hd' ?_ hs
      intro x hx
      rcases List.mem_append.mp hx with hx | hx
      · exact hb x hx
      · rw [List.mem_singleton.mp hx]
        omega

theorem pipe_writerStep {s s' : St D} {failAt : Option Nat} (P : PipeOk s)
    (hok : timely s (.writer failAt) = true) (hst : writerStep s failAt s.writer = some s') :
    PipeOk s' := by
  have hb := P.batch
  have hwok := P.writer
  cases hu : s.writer with
  | swap =>
    rw [hu] at hst
    simp only [writerStep, Option.some.injEq] at hst; subst hst
    cases s.resetPending <;>
      exact P.moves rfl rfl rfl (by rw [hu]; nofun) (by rw [hu]; nofun) nofun trivial
  | compare =>
    rw [hu] at hst
    simp only [writerStep, Option.some.injEq] at hst; subst hst
    refine P.moves rfl rfl rfl (by rw [hu]; nofun) (by rw [hu]; nofun) ?_ ?_
    · split <;> nofun
    · split <;> trivial
  | reload =>
    rw [hu] at hst
    simp only [writerStep, Option.some.injEq] at hst; subst hst
    refine ⟨P.follows, P.led, fun h => absurd rfl h, fun i hi => (P.items i hi).mono P.generation,
      nofun, Nat.le_refl _, ?_⟩
    intro f hf
    show f.generation < s.midiGeneration
    have hle : f.generation ≤ s.generation := P.items _ hf
    have hmg := P.generation
    simp only [timely, hu, Bool.or_eq_true, bne_iff_ne, ne_eq, Bool.not_eq_true'] at hok
    rcases hok with hne | hnone
    · exact Nat.lt_of_le_of_lt hle (by omega)
    · have := List.any_eq_false.mp hnone _ hf
      simp only [Item.isMidi, beq_iff_eq] at this
      exact Nat.lt_of_lt_of_le (by omega) hmg
  | writeReset =>
    rw [hu] at hst hwok
    simp only [writerStep, Option.some.injEq] at hst; subst hst
    have hr := P.ordered.reset hwok
    split
    · exact ⟨hr.follows, hr.led, fun _ _ _ => by simp, hr.items, nofun, P.generation, trivial⟩
    · rename_i n
      cases n with
      | zero =>
        have ho := P.ordered
        rw [← List.append_nil s.pipe] at ho
        exact ⟨ho.follows, ho.led, fun _ h => absurd rfl h, ho.items, nofun, P.generation, trivial⟩
      | succ n =>
        simp only [List.take_succ_cons, List.take_nil]
        exact ⟨hr.follows, hr.led, fun _ h => absurd rfl h, hr.items, nofun, P.generation, trivial⟩
  | select =>
    rw [hu] at hst
    simp only [writerStep, Option.some.injEq] at hst; subst hst
    split <;> exact P.moves rfl rfl rfl (by rw [hu]; nofun) (by rw [hu]; nofun) nofun trivial
  | recv =>
    rw [hu] at hst
    simp only [writerStep, Option.some.injEq] at hst; subst hst
    split
    · exact pipe_received P (by rw [hu]; nofun) (by rw [hu]; nofun) rfl rfl rfl rfl
    · rename_i hs _
      exact pipe_received P (by rw [hu]; nofun) (by rw [hu]; nofun) rfl rfl rfl hs
    · refine P.moves rfl rfl rfl (by rw [hu]; nofun) (by rw [hu]; nofun) ?_ ?_
      · split <;> nofun
      · split <;> trivial
  | recheck f =>
    rw [hu] at hst hb hwok
    simp only [writerStep, Option.some.injEq] at hst; subst hst
    split
    · exact P.moves rfl rfl rfl (by rw [hu]; nofun) (by rw [hu]; nofun) nofun trivial
    · exact P.moves rfl rfl rfl (by rw [hu]; nofun) (by rw [hu]; nofun) hb hwok
  | fill batch consumed =>
    rw [hu] at hst hb hwok
    simp only [writerStep, Option.some.injEq] at hst; subst hst
    refine P.moves rfl rfl rfl (by rw [hu]; nofun) (by rw [hu]; nofun) ?_ ?_
    · split <;> exact hb
    · split
      · exact hwok
      · trivial
  | fillRecv batch consumed =>
    rw [hu] at hst hb hwok
    simp only [writerStep, Option.some.injEq] at hst; subst hst
    split
    · exact pipe_filled P hu rfl rfl rfl hwok
    · exact P.moves rfl rfl rfl (by rw [hu]; nofun) (by rw [hu]; nofun) hb trivial
  | checkFlag batch =>
    rw [hu] at hst hb
    simp only [writerStep, Option.some.injEq] at hst; subst hst
    refine P.moves rfl rfl rfl (by rw [hu]; nofun) (by rw [hu]; nofun) ?_ ?_
    · split
      · nofun
      · exact hb
    · split <;> trivial
  | checkGeneration batch =>
    rw [hu] at hst hb
    simp only [writerStep, Option.some.injEq] at hst; subst hst
    refine P.moves rfl rfl rfl (by rw [hu]; nofun) (by rw [hu]; nofun) ?_ ?_
    · split
      · nofun
      · exact hb
    · split <;> trivial
  | write batch =>
    have hopen := P.opened (by rw [hu]; nofun) (by rw [hu]; nofun)
    rw [hu] at hst hb
    simp only [writerStep, Option.some.injEq] at hst; subst hst
    split
    · have hf := P.ordered.frames hb hopen
      exact ⟨hf.follows, hf.led, fun _ _ hpos => List.mem_append_left _ (hopen hpos), hf.items, nofun,
        P.generation, trivial⟩
    · rename_i n
      have hbn : ∀ f ∈ batch.take n, f.generation = s.generation := fun f hf =>
        hb f (List.mem_of_mem_take hf)
      have hf := P.ordered.frames hbn hopen
      exact ⟨hf.follows, hf.led, fun _ h => absurd rfl h, hf.items, nofun, P.generation, trivial⟩
  | dead => simp [hu, writerStep] at hst
  | ended => simp [hu, writerStep] at hst

/-! ## Senders and resets -/

theorem inv_resetterStep {s s' : St D} {t : Nat} {k : Resetter} (P : PipeOk s) (F : FramesOk s)
    (hst : resetterStep s t k = some s') : PipeOk s' ∧ FramesOk s' := by
  cases k with
  | bump =>
    simp only [resetterStep, Option.some.injEq] at hst; subst hst
    refine ⟨{ P with generation := Nat.le_succ_of_le P.generation },
      ⟨fun f hf => Nat.le_succ_of_le (F.sending f hf),
        fun f hf => Nat.le_succ_of_le (F.stamped f hf), F.order, ?_⟩⟩
    intro hd f hf
    rcases F.kept hd f hf with h | h | h | h
    · exact .inl h
    · exact .inr (.inl h)
    · exact .inr (.inr (.inl h))
    · exact .inr (.inr (.inr (Nat.lt_succ_of_lt h)))
  | raise =>
    simp only [resetterStep, Option.some.injEq] at hst; subst hst
    exact ⟨{ P with }, ⟨F.sending, F.stamped, F.order, F.kept⟩⟩
  | notify =>
    simp only [resetterStep, Option.some.injEq] at hst; subst hst
    exact ⟨{ P with }, ⟨F.sending, F.stamped, F.order, F.kept⟩⟩
  | done => simp [resetterStep] at hst

theorem sending_set {s : St D} {t : Nat} {k : Sender D} (F : FramesOk s)
    (hk : ∀ f, k = .send f → f.generation ≤ s.midiGeneration) :
    ∀ f, .send f ∈ s.senders.set t k → f.generation ≤ s.midiGeneration := by
  intro f hf
  rcases mem_of_set hf with hf | hf
  · exact F.sending f hf
  · exact hk f hf.symm

theorem inv_senderStep {s s' : St D} {t : Nat} {room : Bool} {k : Sender D} (P : PipeOk s)
    (F : FramesOk s) (hk : s.senders[t]? = some k) (hst : senderStep s t room k = some s') :
    PipeOk s' ∧ FramesOk s' := by
  cases k with
  | sequence data =>
    simp only [senderStep, Option.some.injEq] at hst; subst hst
    refine ⟨{ P with }, ⟨sending_set F ?_, F.stamped, F.order, F.kept⟩⟩
    intro f hf
    split at hf <;> cases hf
  | stamp n d =>
    simp only [senderStep, Option.some.injEq] at hst; subst hst
    refine ⟨{ P with }, ⟨sending_set F ?_, F.stamped, F.order, F.kept⟩⟩
    intro f hf
    cases hf
    exact Nat.le_refl _
  | send f =>
    have hf := F.sending f (List.mem_of_getElem? hk)
    simp only [senderStep, Option.some.injEq] at hst; subst hst
    split
    · refine ⟨{ P with }, ⟨sending_set F nofun, ?_, ?_, ?_⟩⟩
      · intro x hx
        rcases List.mem_append.mp hx with hx | hx
        · exact F.stamped x hx
        · rw [List.mem_singleton.mp hx]
          exact hf
      · obtain ⟨taken, htaken, hsub⟩ := F.order
        exact ⟨taken, by rw [htaken, List.append_assoc], hsub⟩
      · intro hd x hx
        rcases List.mem_append.mp hx with hx | hx
        · rcases F.kept hd x hx with h | h | h | h
          · exact .inl h
          · exact .inr (.inl h)
          · exact .inr (.inr (.inl (List.mem_append_left _ h)))
          · exact .inr (.inr (.inr h))
        · exact .inr (.inr (.inl (List.mem_append_right _ hx)))
    · exact ⟨{ P with }, ⟨sending_set F nofun, F.stamped, F.order, F.kept⟩⟩
  | done => simp [senderStep] at hst

theorem inv_step {s s' : St D} {l : Lbl D} (P : PipeOk s) (F : FramesOk s)
    (hok : timely s l = true) (hst : step s l = some s') : PipeOk s' ∧ FramesOk s' := by
  cases l with
  | request =>
    simp only [step, Option.some.injEq] at hst; subst hst
    exact ⟨{ P with }, ⟨F.sending, F.stamped, F.order, F.kept⟩⟩
  | resetter t =>
    obtain ⟨k, -, hst⟩ := Option.bind_eq_some_iff.mp hst
    exact inv_resetterStep P F hst
  | send data =>
    simp only [step, Option.some.injEq] at hst; subst hst
    refine ⟨{ P with }, ⟨?_, F.stamped, F.order, F.kept⟩⟩
    intro f hf
    simp only [List.mem_append, List.mem_singleton, reduceCtorEq, or_false] at hf
    exact F.sending f hf
  | sender t room =>
    obtain ⟨k, hk, hst⟩ := Option.bind_eq_some_iff.mp hst
    exact inv_senderStep P F hk hst
  | close =>
    simp only [step, Option.some.injEq] at hst; subst hst
    exact ⟨{ P with }, ⟨F.sending, F.stamped, F.order, F.kept⟩⟩
  | writer failAt => exact ⟨pipe_writerStep P hok hst, frames_writerStep P F hok hst⟩

theorem inv_inductive (D : Type) :
    ((lts D).restrict fun s l => timely s l = true).Inductive fun s => PipeOk s ∧ FramesOk s where
  init := by
    rintro s ⟨g, n, p, q, rfl⟩
    refine ⟨⟨List.Pairwise.nil, led_nil _ _, ?_, nofun, nofun, Nat.zero_le _, trivial⟩,
      ⟨nofun, nofun, ⟨[], rfl, List.Sublist.refl _⟩, nofun⟩⟩
    intro _ _ h
    exact absurd h (Nat.lt_irrefl 0)
  step _ _ _ I hst := inv_step I.1 I.2 hst.1 hst.2

/-- The frames not yet written were stamped with a generation that exists. -/
def Stamped (s : St D) : Prop :=
  s.generation ≤ s.midiGeneration ∧
    ∀ f ∈ held s ++ s.queue, f.generation ≤ s.midiGeneration

theorem stamped_of_inv {s : St D} (P : PipeOk s) (F : FramesOk s) : Stamped s := by
  refine ⟨P.generation, fun f hf => F.stamped f ?_⟩
  obtain ⟨taken, htaken, hsub⟩ := F.order
  rw [htaken]
  rcases List.mem_append.mp hf with h | h
  · exact List.mem_append_left _ (hsub.subset (List.mem_append_right _ h))
  · exact List.mem_append_right _ h

theorem received_ne_ended (s : St D) (f : Frame D) : (received s f).writer ≠ .ended := by
  unfold received
  split
  · nofun
  · split <;> nofun

theorem filled_ne_ended (s : St D) (batch : List (Frame D)) (consumed : Nat) (f : Frame D) :
    (filled s batch consumed f).writer ≠ .ended := by
  unfold filled
  split
  · nofun
  · split <;> nofun

theorem writerStep_ended {s s' : St D} {failAt : Option Nat}
    (hst : writerStep s failAt s.writer = some s') (he : s'.writer = .ended) :
    s'.closed = true ∧ s'.saved = none ∧ s'.queue = [] := by
  cases hu : s.writer <;> rw [hu] at hst <;>
    simp only [writerStep, Option.some.injEq, reduceCtorEq] at hst
  all_goals subst hst
  case recv =>
    split at he
    · exact absurd he (received_ne_ended _ _)
    · exact absurd he (received_ne_ended _ _)
    · rename_i hs hq
      split at he
      · rename_i hc
        exact ⟨hc, hs, hq⟩
      · cases he
  case fillRecv =>
    split at he
    · exact absurd he (filled_ne_ended _ _ _ _)
    · cases he
  case reload => cases he
  all_goals
    split at he <;> cases he

/-- The writer ends with nothing left to write. -/
theorem ended_inductive (D : Type) : (lts D).Inductive fun s =>
    s.writer = .ended → s.closed = true ∧ s.saved = none ∧ s.queue = [] where
  init := by
    rintro s ⟨g, n, p, q, rfl⟩
    nofun
  step s l s' I hst := by
    intro he
    cases l with
    | request | send data | close =>
      simp only [lts, LTS.ofStep, step, Option.some.injEq] at hst; subst hst
      first | exact I he | exact ⟨rfl, (I he).2⟩
    | resetter t =>
      obtain ⟨k, -, hst⟩ := Option.bind_eq_some_iff.mp hst
      cases k <;> simp only [resetterStep, Option.some.injEq, reduceCtorEq] at hst
      all_goals subst hst; exact I he
    | sender t room =>
      obtain ⟨k, -, hst⟩ := Option.bind_eq_some_iff.mp hst
      cases k <;> simp only [senderStep, Option.some.injEq, reduceCtorEq] at hst
      case send f =>
        subst hst
        split at he
        · rename_i hroom
          have hc : s.closed = true := (I he).1
          simp [hc] at hroom
        · rename_i hroom
          rw [if_neg hroom]
          exact I he
      all_goals subst hst; exact I he
    | writer failAt => exact writerStep_ended hst he

/-! ## The writer left alone empties the queue -/

/-- Waiting for the next frame with nothing to write. -/
def Idle (s : St D) : Prop := s.writer = .recv ∧ s.saved = none ∧ s.queue = []

/-- How far an access is from the end of its round; a round that has looked
at the generation before it moved is one round further. -/
def Writer.rank (stale : Bool) : Writer D → Nat
  | .swap => 12 + 20 * stale.toNat
  | .compare => 11 + 20 * stale.toNat
  | .reload => 10 + 20 * stale.toNat
  | .writeReset => 9 + 60 * stale.toNat
  | .select => 8 + 60 * stale.toNat
  | .recv => 7 + 60 * stale.toNat
  | .recheck _ => 18 + 60 * stale.toNat
  | .fill _ _ => 17 + 60 * stale.toNat
  | .fillRecv _ _ => 16 + 60 * stale.toNat
  | .checkFlag _ => 15 + 60 * stale.toNat
  | .checkGeneration _ => 14 + 60 * stale.toNat
  | .write _ => 13 + 60 * stale.toNat
  | .dead => 0
  | .ended => 0

def work (s : St D) : Nat :=
  20 * (s.queue.length + s.saved.toList.length) + 20 * s.permit.toNat + 20 * s.resetPending.toNat +
    s.writer.rank (s.generation != s.midiGeneration)

/-- What one access takes off the work, for a frame `f` just received. -/
theorem work_received {s s' : St D} {f : Frame D} (hu : s.writer = .recv) (hs : s'.saved = none)
    (hg : s'.generation = s.generation) (hm : s'.midiGeneration = s.midiGeneration)
    (hp : s'.permit = s.permit) (hr : s'.resetPending = s.resetPending)
    (hf : f.generation ≤ s.midiGeneration)
    (hq : s'.queue.length + 1 = s.queue.length + s.saved.toList.length) :
    work (received s' f) < work s := by
  unfold received
  by_cases hlt : f.generation < s'.generation
  · rw [if_pos hlt]
    simp only [work, hs, hg, hm, hp, hr, hu, Writer.rank, Option.toList_none, List.length_nil]
    omega
  · rw [if_neg hlt]
    by_cases hgt : f.generation > s'.generation
    · rw [if_pos hgt]
      have hstale : (s.generation != s.midiGeneration) = true := by
        rw [bne_iff_ne]
        omega
      simp only [work, hg, hm, hp, hr, hu, hstale, Writer.rank, Option.toList_some,
        List.length_singleton, Bool.toNat_true]
      omega
    · rw [if_neg hgt]
      simp only [work, hs, hg, hm, hp, hr, hu, Writer.rank, Option.toList_none, List.length_nil]
      omega

theorem work_filled {s s' : St D} {f : Frame D} {batch : List (Frame D)} {consumed n : Nat}
    (hu : s.writer = .fillRecv batch n) (hs : s'.saved = s.saved)
    (hg : s'.generation = s.generation) (hm : s'.midiGeneration = s.midiGeneration)
    (hp : s'.permit = s.permit) (hr : s'.resetPending = s.resetPending)
    (hq : s'.queue.length + 1 = s.queue.length) :
    work (filled s' batch consumed f) < work s := by
  unfold filled
  split
  · simp only [work, hs, hg, hm, hp, hr, hu, Writer.rank]
    omega
  · split
    · simp only [work, hg, hm, hp, hr, hu, Writer.rank, Option.toList_some, List.length_singleton]
      omega
    · simp only [work, hs, hg, hm, hp, hr, hu, Writer.rank]
      omega

/-- An access of the writer with a working pipe takes something off the work. -/
theorem work_writerStep {s s' : St D} (h : Stamped s) (hi : ¬ Idle s)
    (hst : writerStep s none s.writer = some s') : work s' < work s := by
  cases hu : s.writer with
  | swap =>
    rw [hu] at hst
    simp only [writerStep, Option.some.injEq] at hst; subst hst
    cases hr : s.resetPending <;> simp only [work, hu, hr, Writer.rank, if_true, if_false,
      Bool.false_eq_true, Bool.toNat_true, Bool.toNat_false] <;> omega
  | compare =>
    rw [hu] at hst
    simp only [writerStep, Option.some.injEq] at hst; subst hst
    by_cases hg : s.generation = s.midiGeneration
    · simp [work, hu, hg, Writer.rank]
    · simp [work, hu, hg, Writer.rank]
  | reload =>
    rw [hu] at hst
    simp only [writerStep, Option.some.injEq] at hst; subst hst
    simp only [work, hu, Writer.rank, bne_self_eq_false, Bool.toNat_false]
    omega
  | writeReset =>
    rw [hu] at hst
    simp only [writerStep, Option.some.injEq] at hst; subst hst
    simp only [work, hu, Writer.rank]
    omega
  | select =>
    rw [hu] at hst
    simp only [writerStep, Option.some.injEq] at hst; subst hst
    cases hp : s.permit <;> simp only [work, hu, hp, Writer.rank, if_true, if_false,
      Bool.false_eq_true, Bool.toNat_true, Bool.toNat_false] <;> omega
  | recv =>
    rw [hu] at hst
    simp only [writerStep, Option.some.injEq] at hst; subst hst
    split
    · rename_i f hs
      refine work_received hu rfl rfl rfl rfl rfl (h.2 f (by simp [held, hs])) ?_
      simp [hs]
    · rename_i f queue hs hq
      refine work_received hu hs rfl rfl rfl rfl (h.2 f (by simp [hq])) ?_
      simp [hs, hq]
    · rename_i hs hq
      exact absurd ⟨hu, hs, hq⟩ hi
  | recheck f =>
    rw [hu] at hst
    simp only [writerStep, Option.some.injEq] at hst; subst hst
    by_cases hg : s.midiGeneration = s.generation
    · simp [work, hu, hg, Writer.rank]
    · have hstale : (s.generation != s.midiGeneration) = true := bne_iff_ne.mpr (Ne.symm hg)
      simp only [ne_eq, hg, not_false_eq_true, if_true, work, hu, hstale, Writer.rank,
        Option.toList_some, List.length_singleton, Bool.toNat_true]
      omega
  | fill batch consumed =>
    rw [hu] at hst
    simp only [writerStep, Option.some.injEq] at hst; subst hst
    split <;> simp only [work, hu, Writer.rank] <;> omega
  | fillRecv batch consumed =>
    rw [hu] at hst
    simp only [writerStep, Option.some.injEq] at hst; subst hst
    split
    · rename_i f queue hq
      exact work_filled hu rfl rfl rfl rfl rfl (by simp [hq])
    · simp only [work, hu, Writer.rank]
      omega
  | checkFlag batch | checkGeneration batch =>
    rw [hu] at hst
    simp only [writerStep, Option.some.injEq] at hst; subst hst
    split <;> simp only [work, hu, Writer.rank] <;> omega
  | write batch =>
    rw [hu] at hst
    simp only [writerStep, Option.some.injEq] at hst; subst hst
    simp only [work, hu, Writer.rank]
    omega
  | dead => simp [hu, writerStep] at hst
  | ended => simp [hu, writerStep] at hst

theorem Stamped.moves {s s' : St D} (h : Stamped s) (hm : s'.midiGeneration = s.midiGeneration)
    (hg : s'.generation = s.generation ∨ s'.generation = s.midiGeneration)
    (hf : ∀ f ∈ held s' ++ s'.queue, f ∈ held s ++ s.queue) : Stamped s' := by
  refine ⟨?_, fun f hmem => ?_⟩
  · rw [hm]
    have := h.1
    omega
  · rw [hm]
    exact h.2 f (hf f hmem)

theorem stamped_received {s s' : St D} {f : Frame D} (h : Stamped s)
    (hm : s'.midiGeneration = s.midiGeneration) (hg : s'.generation = s.generation)
    (hf : ∀ x, x = f ∨ x ∈ s'.saved ∨ x ∈ s'.queue → x ∈ held s ++ s.queue) :
    Stamped (received s' f) := by
  unfold received
  split
  · refine h.moves hm (.inl hg) fun x hx => hf x ?_
    simp [held, Writer.frames] at hx
    tauto
  · split
    · refine h.moves hm (.inl hg) fun x hx => hf x ?_
      simp [held, Writer.frames] at hx
      tauto
    · refine h.moves hm (.inl hg) fun x hx => hf x ?_
      simp [held, Writer.frames] at hx
      tauto

theorem stamped_writerStep {s s' : St D} {failAt : Option Nat} (h : Stamped s)
    (hst : writerStep s failAt s.writer = some s') : Stamped s' := by
  cases hu : s.writer <;> rw [hu] at hst <;>
    simp only [writerStep, Option.some.injEq, reduceCtorEq] at hst
  all_goals subst hst
  case swap | compare | select | fill | writeReset =>
    refine h.moves ?_ ?_ ?_ <;> split <;> simp [held, hu, Writer.frames]
  case reload => exact h.moves rfl (.inr rfl) (by simp [held, hu, Writer.frames])
  case recv =>
    split
    · rename_i f hs
      exact stamped_received h rfl rfl (by simp [held, hu, hs, Writer.frames])
    · rename_i f queue hs hq
      exact stamped_received h rfl rfl (by simp [held, hu, hs, hq, Writer.frames])
    · exact h.moves rfl (.inl rfl) (by split <;> simp [held, hu, Writer.frames])
  case recheck f =>
    split <;>
    · refine h.moves rfl (.inl rfl) fun x hx => ?_
      simp [held, hu, Writer.frames] at hx ⊢
      tauto
  case fillRecv batch consumed =>
    split
    · rename_i f queue hq
      unfold filled
      split
      · refine h.moves rfl (.inl rfl) fun x hx => ?_
        simp [held, hu, hq, Writer.frames] at hx ⊢
        tauto
      · split <;>
        · refine h.moves rfl (.inl rfl) fun x hx => ?_
          simp [held, hu, hq, Writer.frames] at hx ⊢
          tauto
    · exact h.moves rfl (.inl rfl) (by simp [held, hu, Writer.frames])
  case checkFlag batch | checkGeneration batch =>
    refine h.moves rfl (.inl rfl) fun x hx => ?_
    split at hx <;> simp [held, hu, Writer.frames] at hx ⊢ <;> tauto
  case write batch =>
    split <;>
    · refine h.moves rfl (.inl rfl) fun x hx => ?_
      simp [held, hu, Writer.frames] at hx ⊢
      tauto

/-- A working pipe keeps the writer going until it finds the queue empty. -/
theorem writerStep_some {s : St D} (hi : ¬ Idle s) (hd : s.writer ≠ .dead) (he : s.writer ≠ .ended) :
    ∃ s', writerStep s none s.writer = some s' ∧ s'.writer ≠ .dead ∧ s'.writer ≠ .ended := by
  cases hu : s.writer with
  | recv =>
    refine ⟨_, rfl, ?_⟩
    split
    · unfold received
      split
      · simp
      · split <;> simp
    · unfold received
      split
      · simp
      · split <;> simp
    · rename_i hs hq
      exact absurd ⟨hu, hs, hq⟩ hi
  | fillRecv batch consumed =>
    refine ⟨_, rfl, ?_⟩
    split
    · unfold filled
      split
      · simp
      · split <;> simp
    · simp
  | swap | compare | fill batch consumed | checkFlag batch | checkGeneration batch =>
    refine ⟨_, rfl, ?_⟩
    dsimp only
    split <;> simp
  | select | recheck f =>
    refine ⟨_, rfl, ?_⟩
    split <;> simp
  | reload | writeReset | write batch => exact ⟨_, rfl, by simp, by simp⟩
  | dead => exact absurd hu hd
  | ended => exact absurd hu he

/-- The writer, left alone with a pipe that takes its writes, comes to wait
for the next frame with nothing left to write. -/
theorem writer_drains {s : St D} (h : Stamped s) (hd : s.writer ≠ .dead) (he : s.writer ≠ .ended) :
    ∃ n s', LTS.exec step s (List.replicate n (.writer none)) = some s' ∧ Idle s' := by
  let I : St D → Prop := fun s => Stamped s ∧ s.writer ≠ .dead ∧ s.writer ≠ .ended
  have hstep : ∀ s, I s → ¬ Idle s →
      ∃ s', step s (.writer none) = some s' ∧ I s' ∧ work s' < work s := by
    intro s hI hi
    obtain ⟨h, hd, he⟩ := hI
    obtain ⟨s', hst, hd', he'⟩ := writerStep_some hi hd he
    exact ⟨s', hst, ⟨stamped_writerStep h hst, hd', he'⟩, work_writerStep h hi hst⟩
  obtain ⟨n, s', hrun, -, hi⟩ := LTS.exec_until work hstep s ⟨h, hd, he⟩
  exact ⟨n, s', hrun, hi⟩

/-! ## Headline property -/

/-- In every run where the writer meets a reset's flag only together with
its generation: a reset separates the frames of older generations from
those of its own, every frame of a generation above 0 follows such a reset,
and the frames keep their order; while no write has failed, a frame is
written, still on its way, or older than the newest generation; and the
writer left alone gets to the end of what is on its way. -/
theorem reset_precedes_new_midi (s : St D)
    (h : ((lts D).restrict fun s l => timely s l = true).Reachable s) :
    s.pipe.Pairwise Follows ∧ Led Opens NeedsReset s.pipe ∧ (written s).Sublist s.admitted ∧
    (s.writer ≠ .dead →
      (∀ f ∈ s.admitted,
        f ∈ written s ∨ f ∈ held s ∨ f ∈ s.queue ∨ f.generation < s.midiGeneration) ∧
      (Idle s ∨ s.writer = .ended →
        ∀ f ∈ s.admitted, f ∈ written s ∨ f.generation < s.midiGeneration) ∧
      (s.writer ≠ .ended →
        ∃ n s', LTS.exec step s (List.replicate n (.writer none)) = some s' ∧ Idle s')) := by
  obtain ⟨P, F⟩ := (inv_inductive D).reachable s h
  have hended := (ended_inductive D).reachable s (LTS.reachable_of_restrict h)
  have hsub : (written s).Sublist s.admitted := by
    obtain ⟨taken, htaken, hsub⟩ := F.order
    rw [htaken]
    exact ((List.sublist_append_left _ _).trans hsub).trans (List.sublist_append_left _ _)
  refine ⟨P.follows, P.led, hsub, fun hd => ⟨F.kept hd, fun hi f hf => ?_, fun he => ?_⟩⟩
  · have hempty : held s = [] ∧ s.queue = [] := by
      rcases hi with ⟨hu, hs, hq⟩ | hu
      · exact ⟨by simp [held, hu, hs, Writer.frames], hq⟩
      · exact ⟨by simp [held, hu, (hended hu).2.1, Writer.frames], (hended hu).2.2⟩
    rcases F.kept hd f hf with h | h | h | h
    · exact .inl h
    · simp [hempty.1] at h
    · simp [hempty.2] at h
    · exact .inr h
  · exact writer_drains (stamped_of_inv P F) hd he

/-! ## Non-vacuity and the late flag -/

/-- A reset is requested; `sent` of its three accesses are done. -/
def requestReset (t sent : Nat) : List (Lbl D) := .request :: List.replicate sent (.resetter t)

/-- Sender `t` stamps `d` and queues it. -/
def sendFrame (t : Nat) (d : D) : List (Lbl D) :=
  [.send (some d), .sender t true, .sender t true, .sender t true]

def writerSteps (n : Nat) : List (Lbl D) := List.replicate n (.writer none)

/-- The frame of the old generation is dropped, the new one is written after
the reset. -/
def traceReset : List (Lbl Nat) :=
  sendFrame 0 60 ++ requestReset 0 3 ++ sendFrame 1 62 ++ writerSteps 21

def resetFirst : St Nat :=
  { init Nat 1 3 false false with
    resetters := [.done], senders := [.done, .done], generation := 1, writer := .recv,
    admitted := [⟨0, 0, 60⟩, ⟨1, 1, 62⟩], pipe := [.reset 1, .midi ⟨1, 1, 62⟩] }

theorem traceReset_result :
    LTS.execOk (fun s l => timely s l = true) step (init Nat 0 0 false false) traceReset =
      some resetFirst := by decide

theorem resetFirst_reachable :
    ((lts Nat).restrict fun s l => timely s l = true).Reachable resetFirst :=
  LTS.reachable_of_execOk traceReset ⟨0, 0, false, false, rfl⟩ traceReset_result

theorem resetFirst_delivered : resetFirst.pipe.Pairwise Follows ∧
    (⟨1, 1, 62⟩ ∈ written resetFirst ∨ 1 < resetFirst.midiGeneration) := by
  have h := reset_precedes_new_midi resetFirst resetFirst_reachable
  exact ⟨h.1, (h.2.2.2 nofun).2.1 (.inl ⟨rfl, rfl, rfl⟩) ⟨1, 1, 62⟩ (by decide)⟩

/-- The flag is raised when the writer has taken over its generation and
received a frame of it. -/
def traceLateFlag : List (Lbl Nat) :=
  requestReset 0 1 ++ writerSteps 5 ++ sendFrame 0 62 ++ writerSteps 2 ++ [.resetter 0] ++
    writerSteps 6

def flagged : St Nat :=
  { init Nat 1 3 false false with
    resetters := [.notify], senders := [.done], generation := 1, writer := .recv,
    admitted := [⟨1, 1, 62⟩], pipe := [.reset 1, .reset 1] }

theorem traceLateFlag_result :
    LTS.exec step (init Nat 0 0 false false) traceLateFlag = some flagged := by decide

/-- The flag is raised when the writer has written that frame. -/
def traceRepeat : List (Lbl Nat) :=
  requestReset 0 1 ++ writerSteps 5 ++ sendFrame 0 62 ++ writerSteps 7 ++ [.resetter 0] ++
    writerSteps 3

def repeated : St Nat :=
  { init Nat 1 3 false false with
    resetters := [.notify], senders := [.done], generation := 1, writer := .select,
    admitted := [⟨1, 1, 62⟩], pipe := [.reset 1, .midi ⟨1, 1, 62⟩, .reset 1] }

theorem traceRepeat_result :
    LTS.exec step (init Nat 0 0 false false) traceRepeat = some repeated := by decide

/-- A frame stamped after the increment of the last reset is lost, and a
reset follows a frame of its own generation. -/
theorem lateFlag_cuts_new_midi :
    (¬∀ s, (lts Nat).Reachable s → s.writer ≠ .dead → Idle s →
      ∀ f ∈ s.admitted, f ∈ written s ∨ f.generation < s.midiGeneration) ∧
    ¬∀ s, (lts Nat).Reachable s → s.pipe.Pairwise Follows := by
  refine ⟨fun h => ?_, fun h => ?_⟩
  · have hf := h flagged (LTS.reachable_of_exec traceLateFlag ⟨0, 0, false, false, rfl⟩
      traceLateFlag_result) nofun ⟨rfl, rfl, rfl⟩ ⟨1, 1, 62⟩ (by decide)
    exact absurd hf (by decide)
  · have hp := h repeated (LTS.reachable_of_exec traceRepeat ⟨0, 0, false, false, rfl⟩
      traceRepeat_result)
    have : (1 : Nat) < 1 := (List.pairwise_cons.mp (List.pairwise_cons.mp hp).2).1 (.reset 1) (by decide)
    exact absurd this (by decide)

end RtpOscMidi.L5.MidiWriter
