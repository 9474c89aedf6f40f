import RtpOscMidi.L5Concurrency.BridgeRequests
import RtpOscMidi.L5Concurrency.ParameterBarrier

/-!
# The parameter barrier on the x86 bridge

The callback drains no more commands than the pending list has room for and
merges them into it. A request takes the pending list with it, in the slot's
`parameter_changes`; the host keeps the highest number of each slot and raises
`parameter_applied_sequence` to it when it finds the slot READY.

The slots, the host and the worker are those of `BridgeRequests`. The worker
knows the metadata the host read from it at the start, so `cache` is that of
both. A block has between 1 and `maxBlock` frames, and `RemotePlugin::spawn`
refuses a `maxBlock` over `maxFrames`.

`batches` has the changes of each request in the order they were written.
-/
namespace RtpOscMidi.L5.BridgeParameters

open Core ParameterBarrier

variable {V D O : Type}

/-- mirrors src-tauri/src/audio/remote_bridge.rs:92 -/
def maxParameterChanges : Nat := 512

/-- mirrors src-tauri/src/audio/remote_bridge.rs:71-74 -/
def sameParameter (c d : ParameterCommand V) : Bool :=
  d.index == c.index || (d.metadata.id != 0 && c.metadata.id != 0 && d.metadata.id == c.metadata.id)

def mergeCommand (pending : List (ParameterCommand V)) (c : ParameterCommand V) :
    List (ParameterCommand V) :=
  match replaceFirst (sameParameter c) c pending with
  | some pending => pending
  | none => (if pending.length = maxParameterChanges then pending.drop 1 else pending) ++ [c]

/-- mirrors src-tauri/src/audio/remote_bridge.rs:66-83 -/
def mergeParameterCommands (pending incoming : List (ParameterCommand V)) :
    List (ParameterCommand V) :=
  incoming.foldl mergeCommand pending

/-- mirrors src-tauri/src/audio/remote_bridge.rs:543-545 -/
def parameterCapacity (pending : List (ParameterCommand V)) : Nat :=
  maxParameterChanges - pending.length

/-- The callback up to its call of `RemotePlugin::process`. -/
inductive Drain (V : Type) where
  | idle
  | drain (room : Nat) (commands : List (ParameterCommand V))
  | ready (commands : List (ParameterCommand V))
  deriving DecidableEq, Repr

structure BridgeSt (V D O : Type) where
  front : Front V
  base : BridgeRequests.St D O
  drain : Drain V
  pending : List (ParameterCommand V)
  changes : List (List (ParameterCommand V))
  sequences : List Nat
  batches : List (List (ParameterCommand V))
  done : List (ParameterCommand V)
  lost : List (ParameterCommand V)
  deriving DecidableEq, Repr

def bridgeInit (V D O : Type) (n sampleRate : Nat) : BridgeSt V D O :=
  ⟨Front.init V, BridgeRequests.init D O n sampleRate, .idle, [], List.replicate n [],
    List.replicate n 0, [], [], []⟩

inductive BridgeLbl (V D O : Type) where
  | front (l : FrontLbl V)
  | drain
  | bridge (l : BridgeRequests.Lbl D O)
  deriving DecidableEq, Repr

/-- mirrors src-tauri/src/audio/callback.rs:410, runtime_state.rs:806-822 -/
def drainStep (s : BridgeSt V D O) : Drain V → Option (BridgeSt V D O)
  | .idle =>
    if s.base.client = .idle then
      some { s with drain := .drain (min (parameterCapacity s.pending) batchCapacity) [] }
    else none
  | .drain 0 commands => some { s with drain := .ready commands }
  | .drain (room + 1) commands =>
    match s.front.queue with
    | [] => some { s with drain := .ready commands }
    | c :: queue =>
      some { s with front := { s.front with queue }, drain := .drain room (coalesce commands c) }
  | .ready _ => none

/-- The worker applies a change whose metadata are the ones it knows.
mirrors src-tauri/src/audio/remote_bridge.rs:1723-1750 -/
def applies (cache : List Metadata) (c : ParameterCommand V) : Bool :=
  cache[c.index]? == some c.metadata

/-- What a step of the bridge does to the parameters.
mirrors src-tauri/src/audio/remote_bridge.rs:605,735-789,1583-1600 -/
def carry (cache : List Metadata) (s : BridgeSt V D O) :
    BridgeRequests.Lbl D O → Option (BridgeSt V D O)
  | .process frames _ _ =>
    match s.drain with
    | .ready commands =>
      some { s with drain := .idle,
                    pending := if frames = 0 ∨ frames > BridgeRequests.maxFrames then s.pending
                               else mergeParameterCommands s.pending commands }
    | _ => none
  | .client =>
    match s.base.client with
    | .readSequence _ i =>
      some { s with front := { s.front with
        applied := max s.front.applied ((s.sequences[i]?).getD 0) } }
    | .fill _ i =>
      let changes := s.pending.take maxParameterChanges
      some { s with changes := s.changes.set i changes,
                    sequences := s.sequences.set i (maxSequence s.pending), pending := [],
                    batches := s.batches ++ [changes] }
    | _ => some s
  | .worker =>
    match s.base.worker with
    | .reject p => some { s with lost := s.lost ++ (s.changes[p]?).getD [] }
    | _ => some s
  | .executed ok _ =>
    match s.base.worker with
    | .run p =>
      let changes := (s.changes[p]?).getD []
      if ok then
        some { s with done := s.done ++ changes.filter (applies cache),
                      lost := s.lost ++ changes.filter fun c => !applies cache c }
      else some { s with lost := s.lost ++ changes }
    | _ => none
  | _ => some s

/-- The sizes `render_audio_block` passes on.
mirrors src-tauri/src/audio/callback.rs:236-246, runtime_state.rs:622-644 -/
def rendered (maxBlock : Nat) : BridgeRequests.Lbl D O → Bool
  | .process frames _ _ => decide (frames ≠ 0 ∧ frames ≤ maxBlock)
  | _ => true

def bridgeStep (maxBlock : Nat) (cache : List Metadata) (s : BridgeSt V D O) :
    BridgeLbl V D O → Option (BridgeSt V D O)
  | .front l => (frontStep cache s.front l).map fun front => { s with front }
  | .drain => drainStep s s.drain
  | .bridge l =>
    if rendered maxBlock l then do
      let base ← BridgeRequests.step maxBlock s.base l
      let t ← carry cache s l
      return { t with base }
    else none

def bridgeLts (V D O : Type) (maxBlock : Nat) (cache : List Metadata) :
    LTS (BridgeSt V D O) (BridgeLbl V D O) :=
  .ofStep (fun s => maxBlock ≤ BridgeRequests.maxFrames ∧
      ∃ sampleRate, s = bridgeInit V D O BridgeRequests.bridgeSlots sampleRate)
    (bridgeStep maxBlock cache)

/-! ## Steps of the bridge -/

/-- The host is writing a request that it has not published. -/
def writing : BridgeRequests.Client → Bool
  | .storeSequence _ | .publish _ => true
  | _ => false

/-- The requests that were executed without an error. -/
def okCount (s : BridgeRequests.St D O) : Nat :=
  match s.worker with
  | .fail _ | .dead => s.executed.length - 1
  | _ => s.executed.length

section Base

variable {maxBlock : Nat} {s s' : BridgeRequests.St D O} {l : BridgeRequests.Lbl D O}

theorem getElem?_modify_cases {slots : List (BridgeRequests.Slot D O)} {p i : Nat}
    {f : BridgeRequests.Slot D O → BridgeRequests.Slot D O} {slot' : BridgeRequests.Slot D O}
    (h : (slots.modify p f)[i]? = some slot') :
    (i ≠ p ∧ slots[i]? = some slot') ∨ (i = p ∧ ∃ slot, slots[i]? = some slot ∧ slot' = f slot) := by
  rw [List.getElem?_modify] at h
  cases hs : slots[i]? with
  | none => simp [hs] at h
  | some slot =>
    by_cases hp : p = i
    · subst hp
      simp only [hs, if_true, Option.map_eq_map, Option.map_some, Option.some.injEq] at h
      exact .inr ⟨rfl, slot, rfl, h.symm⟩
    · simp only [hs, if_neg hp, Option.map_eq_map, Option.map_some, Option.some.injEq] at h
      exact .inl ⟨Ne.symm hp, by rw [h]⟩

/-- A slot that is not EMPTY had its request before the step, and was not
EMPTY then unless it is the one published; it is READY only if it was, or the
worker marked it. -/
def SlotFrom (s : BridgeRequests.St D O) (l : BridgeRequests.Lbl D O) (i : Nat)
    (slot' : BridgeRequests.Slot D O) : Prop :=
  ∃ slot, s.slots[i]? = some slot ∧ slot'.request = slot.request ∧
    ((slot.state ≠ .empty ∧ (slot'.state = .ready → slot.state = .ready ∨ s.worker = .ready i)) ∨
      (l = .client ∧ s.client = .publish i ∧ slot'.state = .requested))

theorem SlotFrom.same {i : Nat} {slot' : BridgeRequests.Slot D O} (h : s.slots[i]? = some slot')
    (hne : slot'.state ≠ .empty) : SlotFrom s l i slot' :=
  ⟨slot', h, rfl, .inl ⟨hne, fun hr => .inl hr⟩⟩

theorem slotFrom_modify {p i : Nat} {f : BridgeRequests.Slot D O → BridgeRequests.Slot D O}
    {slot' : BridgeRequests.Slot D O} (h : (s.slots.modify p f)[i]? = some slot')
    (hne : slot'.state ≠ .empty)
    (hf : ∀ slot, s.slots[p]? = some slot → (f slot).state ≠ .empty →
      (f slot).request = slot.request ∧ ((slot.state ≠ .empty ∧
        ((f slot).state = .ready → slot.state = .ready ∨ s.worker = .ready p)) ∨
          (l = .client ∧ s.client = .publish p ∧ (f slot).state = .requested))) :
    SlotFrom s l i slot' := by
  rcases getElem?_modify_cases h with ⟨_, hs⟩ | ⟨rfl, slot, hs, rfl⟩
  · exact .same hs hne
  · obtain ⟨hr, hc⟩ := hf slot hs hne
    exact ⟨slot, hs, hr, hc⟩

theorem slotFrom_free {p i : Nat} {slot' : BridgeRequests.Slot D O}
    (h : (BridgeRequests.setState s p .empty).slots[i]? = some slot')
    (hne : slot'.state ≠ .empty) : SlotFrom s l i slot' :=
  slotFrom_modify h hne fun _ _ he => absurd rfl he

theorem slots_finishRead {t : BridgeRequests.St D O} {j : BridgeRequests.Job}
    {r : Option (Nat × Option O)} : (BridgeRequests.finishRead t j r).slots = t.slots := by
  unfold BridgeRequests.finishRead
  split
  · rfl
  · split <;> rfl

theorem clientStep_slots {i : Nat} {slot' : BridgeRequests.Slot D O}
    (I : BridgeRequests.Inv maxBlock s) (h : BridgeRequests.clientStep s s.client = some s')
    (hi : s'.slots[i]? = some slot') (hne : slot'.state ≠ .empty) :
    SlotFrom s (.client : BridgeRequests.Lbl D O) i slot' := by
  have hc := I.client
  cases hu : s.client with
  | idle => simp [hu, BridgeRequests.clientStep] at h
  | readState j n =>
    rw [hu] at h
    simp only [BridgeRequests.clientStep] at h
    split at h
    · cases h
      rw [slots_finishRead] at hi
      exact .same hi hne
    · cases h
      exact .same hi hne
  | readSequence j n | readFrames j n =>
    rw [hu] at h
    simp only [BridgeRequests.clientStep, Option.map_eq_some_iff] at h
    obtain ⟨_, _, rfl⟩ := h
    exact .same hi hne
  | discard j n =>
    rw [hu] at h
    cases h
    exact slotFrom_free hi hne
  | mismatch j n =>
    rw [hu] at h
    cases h
    rw [slots_finishRead] at hi
    exact slotFrom_free hi hne
  | take j n =>
    rw [hu] at h
    simp only [BridgeRequests.clientStep, Option.map_eq_some_iff] at h
    obtain ⟨_, _, rfl⟩ := h
    rw [slots_finishRead] at hi
    exact slotFrom_free hi hne
  | findEmpty j n =>
    rw [hu] at h
    simp only [BridgeRequests.clientStep] at h
    split at h
    · cases h
      exact .same hi hne
    · cases h
      exact .same hi hne
  | fill j n =>
    rw [hu] at h hc
    obtain ⟨_, slot, hs, he⟩ := hc
    cases h
    refine slotFrom_modify hi hne fun slot₂ hs₂ hne₂ => ?_
    rw [hs] at hs₂
    cases hs₂
    exact absurd he hne₂
  | storeSequence n =>
    rw [hu] at h hc
    obtain ⟨slot, hs, he, _⟩ := hc
    cases h
    refine slotFrom_modify hi hne fun slot₂ hs₂ hne₂ => ?_
    rw [hs] at hs₂
    cases hs₂
    exact absurd he hne₂
  | publish n =>
    rw [hu] at h
    simp only [BridgeRequests.clientStep, Option.map_eq_some_iff] at h
    obtain ⟨_, _, rfl⟩ := h
    exact slotFrom_modify hi hne fun _ _ _ => ⟨rfl, .inr ⟨rfl, hu, rfl⟩⟩

theorem workerStep_slots {i : Nat} {slot' : BridgeRequests.Slot D O}
    (I : BridgeRequests.Inv maxBlock s)
    (h : BridgeRequests.workerStep maxBlock s s.worker = some s')
    (hi : s'.slots[i]? = some slot') (hne : slot'.state ≠ .empty) :
    SlotFrom s (.worker : BridgeRequests.Lbl D O) i slot' := by
  obtain ⟨pend, S⟩ := I.sched
  have hw := S.worker
  cases hu : s.worker with
  | idle | run | dead => simp [hu, BridgeRequests.workerStep] at h
  | scan n best =>
    rw [hu] at h
    simp only [BridgeRequests.workerStep] at h
    split at h
    · cases h
      exact .same hi hne
    · split at h <;> cases h <;> exact .same hi hne
  | key n best | load n =>
    rw [hu] at h
    simp only [BridgeRequests.workerStep, Option.map_eq_some_iff] at h
    obtain ⟨_, _, rfl⟩ := h
    exact .same hi hne
  | reject n | fail n =>
    rw [hu] at h
    cases h
    exact slotFrom_free hi hne
  | ready n =>
    rw [hu] at h hw
    obtain ⟨r, hr⟩ := hw
    obtain ⟨slot, hs, hreq, _⟩ := BridgeRequests.req_eq_some.mp hr
    cases h
    refine slotFrom_modify hi hne fun slot₂ hs₂ _ => ⟨rfl, .inl ⟨?_, fun _ => .inr hu⟩⟩
    rw [hs] at hs₂
    cases hs₂
    rw [hreq]
    exact fun h => by cases h

theorem step_slots {i : Nat} {slot' : BridgeRequests.Slot D O} (I : BridgeRequests.Inv maxBlock s)
    (h : BridgeRequests.step maxBlock s l = some s') (hi : s'.slots[i]? = some slot')
    (hne : slot'.state ≠ .empty) : SlotFrom s l i slot' := by
  cases l with
  | enqueue p =>
    cases h
    exact .same hi hne
  | clearQueue | panicAllNotes | cycle =>
    simp only [BridgeRequests.step] at h
    split at h <;> cases h
    exact .same hi hne
  | process =>
    simp only [BridgeRequests.step] at h
    split at h
    · split at h <;> cases h <;> exact .same hi hne
    · cases h
  | client => exact clientStep_slots I h hi hne
  | worker => exact workerStep_slots I h hi hne
  | executed ok output =>
    simp only [BridgeRequests.step] at h
    split at h
    · rename_i p hu
      simp only [Option.map_eq_some_iff] at h
      obtain ⟨slot, hs, rfl⟩ := h
      cases ok with
      | true => exact slotFrom_modify hi hne fun _ _ he => ⟨rfl, .inl ⟨he, fun hr => .inl hr⟩⟩
      | false => exact .same hi hne
    · cases h

/-- A step that executes, writes and publishes nothing. -/
structure Calm (s s' : BridgeRequests.St D O) : Prop where
  published : s'.published = s.published
  nextSequence : s'.nextSequence = s.nextSequence
  executed : s'.executed.length = s.executed.length
  okCount : okCount s' = okCount s
  ready : ∀ p, s'.worker = .ready p → s.worker = .ready p
  client : s'.client = s.client ∨ (writing s.client = false ∧ writing s'.client = false)
  length : s'.slots.length = s.slots.length

theorem calm_finishRead {t : BridgeRequests.St D O} {j : BridgeRequests.Job}
    {r : Option (Nat × Option O)} (h : Calm s t) (hc : writing s.client = false) :
    Calm s (BridgeRequests.finishRead t j r) := by
  have hk : ∀ {u : BridgeRequests.St D O}, u.published = t.published →
      u.nextSequence = t.nextSequence → u.executed = t.executed → u.worker = t.worker →
      writing u.client = false → u.slots = t.slots → Calm s u := by
    intro u h₁ h₂ h₃ h₄ h₅ h₆
    exact ⟨h₁.trans h.published, h₂.trans h.nextSequence, by rw [h₃, h.executed],
      by rw [← h.okCount]; unfold BridgeParameters.okCount; rw [h₃, h₄],
      by rw [h₄]; exact h.ready, .inr ⟨hc, h₅⟩, by rw [h₆, h.length]⟩
  unfold BridgeRequests.finishRead
  split
  · exact hk rfl rfl rfl rfl rfl rfl
  · split <;> exact hk rfl rfl rfl rfl rfl rfl

theorem calm_refl (s : BridgeRequests.St D O) : Calm s s :=
  ⟨rfl, rfl, rfl, rfl, fun _ h => h, .inl rfl, rfl⟩

theorem calm_free (s : BridgeRequests.St D O) (p : Nat) :
    Calm s (BridgeRequests.setState s p .empty) :=
  { calm_refl s with length := List.length_modify _ _ _ }

theorem calm_client {u : BridgeRequests.Client} (h : writing s.client = false)
    (h' : writing u = false) : Calm s { s with client := u } :=
  { calm_refl s with client := .inr ⟨h, h'⟩ }

theorem calm_worker {w : BridgeRequests.Worker}
    (hw : ∀ p, w ≠ .ready p) (ho : okCount { s with worker := w } = okCount s) :
    Calm s { s with worker := w } :=
  { calm_refl s with okCount := ho, ready := fun p h => absurd h (hw p) }

theorem clientStep_calm (h : BridgeRequests.clientStep s s.client = some s')
    (hf : ∀ j i, s.client ≠ .fill j i) (hw : writing s.client = false) : Calm s s' := by
  cases hu : s.client with
  | idle => simp [hu, BridgeRequests.clientStep] at h
  | storeSequence | publish => simp [hu, writing] at hw
  | fill j i => exact absurd hu (hf j i)
  | readState j n =>
    rw [hu] at h
    simp only [BridgeRequests.clientStep] at h
    split at h
    · cases h
      exact calm_finishRead (calm_refl s) hw
    · cases h
      exact calm_client hw (by split <;> rfl)
  | readSequence j n =>
    rw [hu] at h
    simp only [BridgeRequests.clientStep, Option.map_eq_some_iff] at h
    obtain ⟨_, _, rfl⟩ := h
    exact calm_client hw (by split <;> [rfl; (split <;> rfl)])
  | readFrames j n =>
    rw [hu] at h
    simp only [BridgeRequests.clientStep, Option.map_eq_some_iff] at h
    obtain ⟨_, _, rfl⟩ := h
    exact calm_client hw (by split <;> rfl)
  | discard j n =>
    rw [hu] at h
    cases h
    exact { calm_free s n with client := .inr ⟨hw, rfl⟩ }
  | mismatch j n =>
    rw [hu] at h
    cases h
    exact calm_finishRead (calm_free s n) hw
  | take j n =>
    rw [hu] at h
    simp only [BridgeRequests.clientStep, Option.map_eq_some_iff] at h
    obtain ⟨_, _, rfl⟩ := h
    exact calm_finishRead { calm_free s n with } hw
  | findEmpty j n =>
    rw [hu] at h
    simp only [BridgeRequests.clientStep] at h
    split at h
    · cases h
      exact calm_client hw rfl
    · cases h
      exact calm_client hw (by split <;> rfl)

theorem workerStep_calm (h : BridgeRequests.workerStep maxBlock s s.worker = some s') :
    Calm s s' := by
  have hoc : ∀ {w : BridgeRequests.Worker}, (∀ p, s.worker ≠ .fail p) → s.worker ≠ .dead →
      (∀ p, w ≠ .fail p) → w ≠ .dead → okCount { s with worker := w } = okCount s := by
    intro w h₁ h₂ h₃ h₄
    unfold okCount
    cases w <;> cases hu : s.worker <;> simp_all
  cases hu : s.worker with
  | idle | run | dead => simp [hu, BridgeRequests.workerStep] at h
  | scan n best =>
    rw [hu] at h
    simp only [BridgeRequests.workerStep] at h
    split at h
    · cases h
      split <;> exact calm_worker (by simp) (hoc (by simp [hu]) (by simp [hu]) (by simp) (by simp))
    · split at h <;> cases h <;>
        exact calm_worker (by simp) (hoc (by simp [hu]) (by simp [hu]) (by simp) (by simp))
  | key n best =>
    rw [hu] at h
    simp only [BridgeRequests.workerStep, Option.map_eq_some_iff] at h
    obtain ⟨_, _, rfl⟩ := h
    exact calm_worker (by simp) (hoc (by simp [hu]) (by simp [hu]) (by simp) (by simp))
  | load n =>
    rw [hu] at h
    simp only [BridgeRequests.workerStep, Option.map_eq_some_iff] at h
    obtain ⟨_, _, rfl⟩ := h
    split <;> exact calm_worker (by simp) (hoc (by simp [hu]) (by simp [hu]) (by simp) (by simp))
  | reject n | ready n =>
    rw [hu] at h
    cases h
    have hc := hoc (w := .scan 0 none) (by simp [hu]) (by simp [hu]) (by simp) (by simp)
    exact { calm_refl s with okCount := hc, ready := (by simp), length := List.length_modify _ _ _ }
  | fail n =>
    rw [hu] at h
    cases h
    have hc : okCount { s with worker := .dead } = okCount s := by
      unfold okCount
      rw [hu]
    exact { calm_refl s with okCount := hc, ready := (by simp), length := List.length_modify _ _ _ }

theorem workerStep_client (h : BridgeRequests.workerStep maxBlock s s.worker = some s') :
    s'.client = s.client := by
  cases hu : s.worker with
  | idle | run | dead => simp [hu, BridgeRequests.workerStep] at h
  | scan n best =>
    rw [hu] at h
    simp only [BridgeRequests.workerStep] at h
    split at h
    · cases h
      rfl
    · split at h <;> cases h <;> rfl
  | key n best | load n =>
    rw [hu] at h
    simp only [BridgeRequests.workerStep, Option.map_eq_some_iff] at h
    obtain ⟨_, _, rfl⟩ := h
    rfl
  | reject n | ready n | fail n =>
    rw [hu] at h
    cases h
    rfl

theorem step_calm (h : BridgeRequests.step maxBlock s l = some s')
    (hc : l = .client → (∀ j i, s.client ≠ .fill j i) ∧ writing s.client = false)
    (he : ∀ ok output, l ≠ .executed ok output) : Calm s s' := by
  cases l with
  | enqueue p =>
    cases h
    exact { calm_refl s with }
  | clearQueue =>
    simp only [BridgeRequests.step] at h
    split at h <;> cases h
    exact { calm_refl s with }
  | panicAllNotes =>
    simp only [BridgeRequests.step] at h
    split at h <;> cases h
    exact { calm_refl s with }
  | cycle =>
    simp only [BridgeRequests.step] at h
    split at h
    · rename_i hu
      cases h
      refine calm_worker (by simp) ?_
      unfold okCount
      rw [hu]
    · cases h
  | process =>
    simp only [BridgeRequests.step] at h
    split at h
    · rename_i hu
      split at h
      · cases h
        exact { calm_refl s with }
      · cases h
        exact calm_client (by rw [hu]; rfl) rfl
    · cases h
  | client => exact clientStep_calm h (hc rfl).1 (hc rfl).2
  | worker => exact workerStep_calm h
  | executed ok output => exact absurd rfl (he ok output)

/-- Only `process` begins a call. -/
theorem step_idle (h : BridgeRequests.step maxBlock s l = some s') (hi : s.client = .idle)
    (hl : ∀ frames sourceEndUs nextIngressUs, l ≠ .process frames sourceEndUs nextIngressUs) :
    s'.client = .idle := by
  cases l with
  | process a b c => exact absurd rfl (hl a b c)
  | enqueue p =>
    cases h
    exact hi
  | clearQueue | panicAllNotes =>
    simp only [BridgeRequests.step, if_pos hi] at h
    cases h
    exact hi
  | cycle =>
    simp only [BridgeRequests.step] at h
    split at h <;> cases h
    exact hi
  | client => simp [BridgeRequests.step, hi, BridgeRequests.clientStep] at h
  | worker =>
    have hc := workerStep_client h
    rw [hc, hi]
  | executed ok output =>
    simp only [BridgeRequests.step] at h
    split at h
    · simp only [Option.map_eq_some_iff] at h
      obtain ⟨slot, _, rfl⟩ := h
      cases ok <;> exact hi
    · cases h

end Base

end RtpOscMidi.L5.BridgeParameters
