import RtpOscMidi.Core.Monitor
import RtpOscMidi.L5Concurrency.BridgeRequests

/-!
# What the bridge plays

`BridgeRequests` with the history of what was published, completed and
returned, and of the panics between. `watch` is the specification: a monitor
that reads the history and says which block a call may return, what a ramp may
start from and how a request must begin.

`stale` has the slots that were READY with a result of no use when the call
began, `stopped` the slot at which its look at the READY slots ended early.
-/
namespace RtpOscMidi.L5.BridgeFreshness

open Core L2.MidiPlayback BridgeRequests

variable {D O : Type}

inductive Ev (D O : Type) where
  | panic
  | published (r : Request D)
  | completed (r : Request D) (output : O)
  | returned (r : Result O)
  deriving DecidableEq, Repr

/-! ## The specification -/

/-- What the monitor knows: `barrier` is the number of the first request after
the last panic, `panicked` says that this request is still to come, `last` is
the frame a ramp may start from. -/
structure Known (D O : Type) where
  published : List (Request D)
  barrier : Nat
  panicked : Bool
  completed : List (Request D × O)
  rendered : List Nat
  last : Option (Option O × Nat)

def note (k : Known D O) : Ev D O → Known D O
  | .panic => { k with barrier := k.published.length + 1, panicked := true, last := none }
  | .published r => { k with published := k.published ++ [r], panicked := false }
  | .completed r output => { k with completed := (r, output) :: k.completed }
  | .returned (.rendered sequence frames output) =>
    { k with rendered := sequence :: k.rendered, last := some (output, frames - 1) }
  | .returned (.ramp _ _) => { k with last := none }
  | .returned _ => k

/-- Requests are numbered from 1; the first one after a panic begins with the
reset events. A call returns the completed block of the last request, of its
own frame count, published after the last panic and not returned before; a ramp
starts from the last block returned since the last panic or ramp. -/
def allowed (k : Known D O) : Ev D O → Prop
  | .panic => True
  | .published r => r.sequence = k.published.length + 1 ∧
      ∃ midi, (∀ e ∈ midi, e.packet.isSome) ∧
        r.events = (if k.panicked then writePanicEvents D else []) ++ midi
  | .completed r _ => r ∈ k.published
  | .returned (.rendered sequence frames output) =>
      sequence = k.published.length ∧ k.barrier ≤ sequence ∧ sequence ∉ k.rendered ∧
        ∃ r o, output = some o ∧ (r, o) ∈ k.completed ∧ k.published.getLast? = some r ∧
          r.frames = frames
  | .returned (.ramp start _) => start = k.last
  | .returned _ => True

def watch (D O : Type) : Monitor (Known D O) (Ev D O) where
  start := ⟨[], 0, false, [], [], none⟩
  note := note
  allowed := allowed

/-! ## The bridge with its history -/

structure FreshSt (D O : Type) where
  base : St D O
  history : List (Ev D O)
  stale : List Nat
  stopped : Option Nat
  deriving DecidableEq, Repr

/-- What a step from `s` to `s'` adds to the history. -/
def events (s s' : St D O) : Lbl D O → List (Ev D O)
  | .panicAllNotes => [.panic]
  | .executed ok output =>
    match s.worker with
    | .run p => if ok then (s.slots[p]?.map (.completed ·.request output)).toList else []
    | _ => []
  | _ => (s'.returned.drop s.returned.length).map .returned ++
      (s'.published.drop s.published.length).map .published

/-- The slots that hold a result older than the one a call is about to ask
for, or than the last panic. -/
def staleSlots (s : St D O) : List Nat :=
  (List.range s.slots.length).filter fun i =>
    s.slots[i]?.any fun slot => slot.state = .ready ∧
      (slot.request.sequence < s.nextSequence - 1 ∨ slot.request.sequence < s.minOutputSequence)

/-- Where a call's look at the READY slots ends early. -/
def stopsAt (s : St D O) (stopped : Option Nat) : Lbl D O → Option Nat
  | .process .. => none
  | .client =>
    match s.client with
    | .mismatch _ i | .take _ i => some i
    | _ => stopped
  | _ => stopped

def freshStep (maxBlock : Nat) (s : FreshSt D O) (l : Lbl D O) : Option (FreshSt D O) :=
  (step maxBlock s.base l).map fun base =>
    { base, history := s.history ++ events s.base base l,
      stale := match l with
        | .process .. => staleSlots s.base
        | _ => s.stale
      stopped := stopsAt s.base s.stopped l }

def freshLts (D O : Type) (maxBlock : Nat) : LTS (FreshSt D O) (Lbl D O) :=
  .ofStep (fun s => ∃ sampleRate, s = ⟨init D O bridgeSlots sampleRate, [], [], none⟩)
    (freshStep maxBlock)

/-! ## Invariant -/

/-- A request that was published and not yet returned, with its block once the
slot is READY. -/
def Held (k : Known D O) (slot : Slot D O) : Prop :=
  ∃ n, slot.request.sequence = n + 1 ∧ k.published[n]? = some slot.request ∧ n + 1 ∉ k.rendered ∧
    (slot.state = .ready → ∃ o, slot.output = some o ∧ (slot.request, o) ∈ k.completed)

structure SlotsHold (k : Known D O) (slots : List (Slot D O)) : Prop where
  held : ∀ (i : Nat) (slot : Slot D O), slots[i]? = some slot → slot.state ≠ .empty → Held k slot
  distinct : ∀ (i j : Nat) (a b : Slot D O), slots[i]? = some a → slots[j]? = some b →
    a.state ≠ .empty → b.state ≠ .empty → a.request.sequence = b.request.sequence → i = j

def InState (slots : List (Slot D O)) (state : SlotState) (i : Nat) : Prop :=
  ∃ slot, slots[i]? = some slot ∧ slot.state = state

/-- The slots the worker has chosen, or seen, are REQUESTED. -/
def WorkerHolds (k : Known D O) (slots : List (Slot D O)) : Worker → Prop
  | .scan _ best => ∀ p q, best = some (p, q) → InState slots .requested p
  | .key i best => (∀ p q, best = some (p, q) → InState slots .requested p) ∧
      InState slots .requested i
  | .load p | .reject p | .run p | .fail p => InState slots .requested p
  | .ready p => ∃ slot, slots[p]? = some slot ∧ slot.state = .requested ∧
      ∃ o, slot.output = some o ∧ (slot.request, o) ∈ k.completed
  | .idle | .dead => True

/-- The events of the request to come. -/
def Begins (k : Known D O) (events : List (Event D)) : Prop :=
  ∃ midi, (∀ e ∈ midi, e.packet.isSome) ∧
    events = (if k.panicked then writePanicEvents D else []) ++ midi

def ClientHolds (k : Known D O) (s : St D O) : Client → Prop
  | .idle | .findEmpty _ _ => s.nextSequence = k.published.length + 1 ∧ s.panicPending = k.panicked
  | .readState j _ => s.nextSequence = k.published.length + 1 ∧ s.panicPending = k.panicked ∧
      j.expected = k.published.length
  | .readSequence j i | .discard j i => s.nextSequence = k.published.length + 1 ∧
      s.panicPending = k.panicked ∧ j.expected = k.published.length ∧ InState s.slots .ready i
  | .readFrames j i | .mismatch j i => s.nextSequence = k.published.length + 1 ∧
      s.panicPending = k.panicked ∧ j.expected = k.published.length ∧
      ∃ slot, s.slots[i]? = some slot ∧ slot.state = .ready ∧ slot.request.sequence = j.expected ∧
        k.barrier ≤ j.expected
  | .take j i => s.nextSequence = k.published.length + 1 ∧ s.panicPending = k.panicked ∧
      j.expected = k.published.length ∧
      ∃ slot, s.slots[i]? = some slot ∧ slot.state = .ready ∧ slot.request.sequence = j.expected ∧
        k.barrier ≤ j.expected ∧ slot.request.frames = j.frames
  | .fill _ i => s.nextSequence = k.published.length + 1 ∧ s.panicPending = k.panicked ∧
      InState s.slots .empty i
  | .storeSequence i => s.nextSequence = k.published.length + 1 ∧ s.panicPending = false ∧
      ∃ slot, s.slots[i]? = some slot ∧ slot.state = .empty ∧ Begins k slot.request.events
  | .publish i => s.nextSequence = k.published.length + 2 ∧ s.panicPending = false ∧
      ∃ slot, s.slots[i]? = some slot ∧ slot.state = .empty ∧ Begins k slot.request.events ∧
        slot.request.sequence = k.published.length + 1

structure Holds (k : Known D O) (s : St D O) : Prop where
  slots : SlotsHold k s.slots
  rendered : ∀ q ∈ k.rendered, q ≤ k.published.length
  last : s.lastOutput = k.last
  barrier : s.minOutputSequence = k.barrier
  worker : WorkerHolds k s.slots s.worker
  client : ClientHolds k s s.client

/-! ## Slots -/

section Slots

variable {k k' : Known D O} {slots slots' : List (Slot D O)} {i : Nat} {a : Slot D O}
  {f : Slot D O → Slot D O}

theorem SlotsHold.mono (h : SlotsHold k slots) (hk : ∀ slot, Held k slot → Held k' slot) :
    SlotsHold k' slots :=
  ⟨fun i slot hs he => hk slot (h.held i slot hs he), h.distinct⟩

/-- A slot changes, and keeps its number unless it is freed. -/
theorem SlotsHold.modify (h : SlotsHold k slots) (hi : slots[i]? = some a)
    (hf : (f a).state ≠ .empty → Held k (f a) ∧ a.state ≠ .empty ∧
      (f a).request.sequence = a.request.sequence) : SlotsHold k (slots.modify i f) := by
  have hget : ∀ (j : Nat) (b : Slot D O), (slots.modify i f)[j]? = some b → b.state ≠ .empty →
      Held k b ∧ ∃ b' : Slot D O, slots[j]? = some b' ∧ b'.state ≠ .empty ∧
        b.request.sequence = b'.request.sequence := by
    intro j b hb he
    rw [List.getElem?_modify] at hb
    by_cases hij : i = j
    · subst hij
      simp only [if_true, hi, Option.map_eq_map, Option.map_some, Option.some.injEq] at hb
      subst hb
      obtain ⟨hh, hne, hseq⟩ := hf he
      exact ⟨hh, a, hi, hne, hseq⟩
    · simp only [if_neg hij, Option.map_eq_map, id_eq, Option.map_id_fun'] at hb
      exact ⟨h.held j b hb he, b, hb, he, rfl⟩
  refine ⟨fun j b hb he => (hget j b hb he).1, fun j j' b b' hb hb' he he' hs => ?_⟩
  obtain ⟨_, c, hc, hce, hcs⟩ := hget j b hb he
  obtain ⟨_, c', hc', hce', hcs'⟩ := hget j' b' hb' he'
  exact h.distinct j j' c c' hc hc' hce hce' (by rw [← hcs, ← hcs', hs])

theorem SlotsHold.free (h : SlotsHold k slots) (hi : slots[i]? = some a) :
    SlotsHold k (slots.modify i fun slot => { slot with state := .empty }) :=
  h.modify hi fun he => absurd rfl he

/-- A request is written into an EMPTY slot. -/
theorem SlotsHold.edit (h : SlotsHold k slots) (hi : slots[i]? = some a)
    (hf : (f a).state = .empty) : SlotsHold k (slots.modify i f) :=
  h.modify hi fun he => absurd hf he

theorem held_note_completed {slot : Slot D O} {r : Request D} {o : O} (h : Held k slot) :
    Held (note k (.completed r o)) slot := by
  obtain ⟨n, hs, hp, hr, ho⟩ := h
  refine ⟨n, hs, hp, hr, fun he => ?_⟩
  obtain ⟨o, ho, hm⟩ := ho he
  exact ⟨o, ho, List.mem_cons_of_mem _ hm⟩

theorem held_note_published {slot : Slot D O} {r : Request D} (h : Held k slot) :
    Held (note k (.published r)) slot := by
  obtain ⟨n, hs, hp, hr, ho⟩ := h
  refine ⟨n, hs, ?_, hr, ho⟩
  have hlt := (List.getElem?_eq_some_iff.mp hp).1
  exact (List.getElem?_append_left hlt).trans hp

theorem Held.lt {slot : Slot D O} (h : Held k slot) :
    slot.request.sequence ≤ k.published.length := by
  obtain ⟨n, hs, hp, _, _⟩ := h
  have := (List.getElem?_eq_some_iff.mp hp).1
  omega

/-- The slot of a request becomes REQUESTED. -/
theorem SlotsHold.publish (h : SlotsHold k slots) (hr : ∀ q ∈ k.rendered, q ≤ k.published.length)
    (hi : slots[i]? = some a) (hs : a.request.sequence = k.published.length + 1) :
    SlotsHold (note k (.published a.request))
      (slots.modify i fun slot => { slot with state := .requested }) := by
  have hget : ∀ (j : Nat) (b : Slot D O),
      (slots.modify i fun slot => { slot with state := .requested })[j]? = some b →
      (j = i ∧ b = { a with state := .requested }) ∨ (j ≠ i ∧ slots[j]? = some b) := by
    intro j b hb
    rw [List.getElem?_modify] at hb
    by_cases hij : i = j
    · subst hij
      simp only [if_true, hi, Option.map_eq_map, Option.map_some, Option.some.injEq] at hb
      exact .inl ⟨rfl, hb.symm⟩
    · simp only [if_neg hij, Option.map_eq_map, id_eq, Option.map_id_fun'] at hb
      exact .inr ⟨Ne.symm hij, hb⟩
  refine ⟨fun j b hb he => ?_, fun j j' b b' hb hb' he he' hseq => ?_⟩
  · rcases hget j b hb with ⟨_, rfl⟩ | ⟨_, hb⟩
    · refine ⟨k.published.length, hs, ?_, fun hm => ?_, nofun⟩
      · simp [note]
      · have := hr _ hm
        omega
    · exact held_note_published (h.held j b hb he)
  · rcases hget j b hb with ⟨rfl, rfl⟩ | ⟨_, hb⟩
    · rcases hget j' b' hb' with ⟨rfl, _⟩ | ⟨_, hb'⟩
      · rfl
      · have := (h.held j' b' hb' he').lt
        simp only [hs] at hseq
        omega
    · have hlt := (h.held j b hb he).lt
      rcases hget j' b' hb' with ⟨rfl, rfl⟩ | ⟨_, hb'⟩
      · simp only [hs] at hseq
        omega
      · exact h.distinct j j' b b' hb hb' he he' hseq

/-- A READY slot is freed and its block returned. -/
theorem SlotsHold.render {frames : Nat} {output : Option O} (h : SlotsHold k slots)
    (hi : slots[i]? = some a) (ha : a.state = .ready) :
    SlotsHold (note k (.returned (.rendered a.request.sequence frames output)))
      (slots.modify i fun slot => { slot with state := .empty }) := by
  have hfree := h.free hi
  refine ⟨fun j b hb he => ?_, hfree.distinct⟩
  obtain ⟨n, hs, hp, hr, ho⟩ := hfree.held j b hb he
  refine ⟨n, hs, hp, fun hm => ?_, ho⟩
  rcases List.mem_cons.mp hm with hm | hm
  · -- another slot of the same number
    rw [List.getElem?_modify] at hb
    by_cases hij : i = j
    · subst hij
      simp only [if_true, hi, Option.map_eq_map, Option.map_some, Option.some.injEq] at hb
      exact he (hb ▸ rfl)
    · simp only [if_neg hij, Option.map_eq_map, id_eq, Option.map_id_fun'] at hb
      exact hij (h.distinct i j a b hi hb (by rw [ha]; nofun) he (by omega))
  · exact hr hm

/-- The slots in the states `p` are the same in both lists. -/
def Keeps (p : SlotState → Prop) (slots slots' : List (Slot D O)) : Prop :=
  ∀ (j : Nat) (b : Slot D O), slots[j]? = some b → p b.state → slots'[j]? = some b

theorem keeps_refl (p : SlotState → Prop) : Keeps p slots slots := fun _ _ h _ => h

theorem keeps_modify {p : SlotState → Prop} (hi : slots[i]? = some a) (ha : ¬p a.state) :
    Keeps p slots (slots.modify i f) := by
  intro j b hb hp
  rw [List.getElem?_modify, hb]
  have hij : i ≠ j := by
    intro hij
    subst hij
    rw [hi] at hb
    cases hb
    exact ha hp
  simp [hij]

theorem InState.keeps {p : SlotState → Prop} {state : SlotState} {j : Nat}
    (h : InState slots state j) (hk : Keeps p slots slots') (hp : p state) :
    InState slots' state j := by
  obtain ⟨slot, hs, hst⟩ := h
  exact ⟨slot, hk j slot hs (hst ▸ hp), hst⟩

theorem getElem?_modify_self (hi : slots[i]? = some a) : (slots.modify i f)[i]? = some (f a) := by
  simp [hi]

theorem inState_modify (hi : slots[i]? = some a) : InState (slots.modify i f) (f a).state i :=
  ⟨f a, getElem?_modify_self hi, rfl⟩

end Slots

/-! ## Steps of the worker -/

section Steps

variable {k k' : Known D O} {s s' : St D O}

/-- The worker has changed REQUESTED slots only. -/
structure WorkerMoved (s s' : St D O) : Prop where
  slots : Keeps (· ≠ .requested) s.slots s'.slots
  client : s'.client = s.client
  nextSequence : s'.nextSequence = s.nextSequence
  minOutputSequence : s'.minOutputSequence = s.minOutputSequence
  panicPending : s'.panicPending = s.panicPending
  lastOutput : s'.lastOutput = s.lastOutput
  returned : s'.returned = s.returned
  published : s'.published = s.published

theorem ClientHolds.moved {u : Client} (h : ClientHolds k s u) (m : WorkerMoved s s')
    (hp : k'.published = k.published) (hq : k'.panicked = k.panicked)
    (hb : k'.barrier = k.barrier) : ClientHolds k' s' u := by
  have begins : ∀ events, Begins k events → Begins k' events := by
    intro events hv
    unfold Begins
    rw [hq]
    exact hv
  cases u with
  | idle | findEmpty | readState =>
    simp only [ClientHolds, hp, hq, m.nextSequence, m.panicPending]
    exact h
  | readSequence j i | discard j i =>
    obtain ⟨h₁, h₂, h₃, h₄⟩ := h
    simp only [ClientHolds, hp, hq, m.nextSequence, m.panicPending]
    exact ⟨h₁, h₂, h₃, h₄.keeps m.slots nofun⟩
  | readFrames j i | mismatch j i | take j i =>
    obtain ⟨h₁, h₂, h₃, slot, hs, hst, h₄⟩ := h
    simp only [ClientHolds, hp, hq, hb, m.nextSequence, m.panicPending]
    exact ⟨h₁, h₂, h₃, slot, m.slots i slot hs (by rw [hst]; nofun), hst, h₄⟩
  | fill j i =>
    obtain ⟨h₁, h₂, h₃⟩ := h
    simp only [ClientHolds, hp, hq, m.nextSequence, m.panicPending]
    exact ⟨h₁, h₂, h₃.keeps m.slots nofun⟩
  | storeSequence i =>
    obtain ⟨h₁, h₂, slot, hs, hst, hv⟩ := h
    simp only [ClientHolds, hp, m.nextSequence, m.panicPending]
    exact ⟨h₁, h₂, slot, m.slots i slot hs (by rw [hst]; nofun), hst, begins _ hv⟩
  | publish i =>
    obtain ⟨h₁, h₂, slot, hs, hst, hv, hq⟩ := h
    simp only [ClientHolds, hp, m.nextSequence, m.panicPending]
    exact ⟨h₁, h₂, slot, m.slots i slot hs (by rw [hst]; nofun), hst, begins _ hv, hq⟩

theorem Holds.moved (H : Holds k s) (m : WorkerMoved s s') (hs : SlotsHold k s'.slots)
    (hw : WorkerHolds k s'.slots s'.worker) : Holds k s' where
  slots := hs
  rendered := H.rendered
  last := m.lastOutput.trans H.last
  barrier := m.minOutputSequence.trans H.barrier
  worker := hw
  client := by
    rw [m.client]
    exact H.client.moved m rfl rfl rfl

theorem workerMoved_modify {i : Nat} {a : Slot D O} {f : Slot D O → Slot D O} {w : Worker}
    {executed : List (Request D)} (hi : s.slots[i]? = some a) (ha : a.state = .requested) :
    WorkerMoved s { s with slots := s.slots.modify i f, worker := w, executed } :=
  ⟨keeps_modify hi fun hne => hne ha, rfl, rfl, rfl, rfl, rfl, rfl, rfl⟩

theorem workerMoved_worker {w : Worker} : WorkerMoved s { s with worker := w } :=
  ⟨keeps_refl _, rfl, rfl, rfl, rfl, rfl, rfl, rfl⟩

theorem better_holds {slots : List (Slot D O)} {best : Option (Nat × Nat)} {i q : Nat}
    (hb : ∀ p q, best = some (p, q) → InState slots .requested p)
    (hi : InState slots .requested i) :
    ∀ p q', some (better best i q) = some (p, q') → InState slots .requested p := by
  intro p q' h
  simp only [Option.some.injEq] at h
  unfold better at h
  split at h
  · split at h
    · cases h
      exact hi
    · cases h
      exact hb _ _ rfl
  · cases h
    exact hi

theorem holds_workerStep {mb : Nat} (H : Holds k s) (hst : workerStep mb s s.worker = some s') :
    WorkerMoved s s' ∧ Holds k s' := by
  have hw := H.worker
  have scan_start : ∀ {slots : List (Slot D O)}, WorkerHolds k slots (.scan 0 none) := by
    intro slots p q h
    cases h
  cases hu : s.worker with
  | idle | run | dead => simp [hu, workerStep] at hst
  | scan i best =>
    rw [hu] at hst hw
    simp only [workerStep] at hst
    split at hst
    · rename_i slot hi
      simp only [Option.some.injEq] at hst; subst hst
      refine ⟨workerMoved_worker, H.moved workerMoved_worker H.slots ?_⟩
      show WorkerHolds k s.slots _
      split
      · rename_i hr
        exact ⟨hw, slot, hi, hr⟩
      · exact hw
    · cases best with
      | some b =>
        simp only [Option.some.injEq] at hst; subst hst
        exact ⟨workerMoved_worker, H.moved workerMoved_worker H.slots (hw b.1 b.2 rfl)⟩
      | none =>
        simp only [Option.some.injEq] at hst; subst hst
        exact ⟨workerMoved_worker, H.moved workerMoved_worker H.slots trivial⟩
  | key i best =>
    rw [hu] at hst hw
    simp only [workerStep, Option.map_eq_some_iff] at hst
    obtain ⟨slot, -, rfl⟩ := hst
    exact ⟨workerMoved_worker, H.moved workerMoved_worker H.slots (better_holds hw.1 hw.2)⟩
  | load p =>
    rw [hu] at hst hw
    simp only [workerStep, Option.map_eq_some_iff] at hst
    obtain ⟨slot, -, rfl⟩ := hst
    refine ⟨workerMoved_worker, H.moved workerMoved_worker H.slots ?_⟩
    show WorkerHolds k s.slots _
    split <;> exact hw
  | reject p =>
    rw [hu] at hst hw
    obtain ⟨slot, hs, hr⟩ := hw
    simp only [workerStep, Option.some.injEq] at hst; subst hst
    exact ⟨workerMoved_modify hs hr,
      H.moved (workerMoved_modify hs hr) (H.slots.free hs) scan_start⟩
  | fail p =>
    rw [hu] at hst hw
    obtain ⟨slot, hs, hr⟩ := hw
    simp only [workerStep, Option.some.injEq] at hst; subst hst
    exact ⟨workerMoved_modify hs hr, H.moved (workerMoved_modify hs hr) (H.slots.free hs) trivial⟩
  | ready p =>
    rw [hu] at hst hw
    obtain ⟨slot, hs, hr, o, ho⟩ := hw
    simp only [workerStep, Option.some.injEq] at hst; subst hst
    have hne : slot.state ≠ .empty := by
      rw [hr]
      exact fun h => by cases h
    obtain ⟨n, h₁, h₂, h₃, _⟩ := H.slots.held p slot hs hne
    have hslots := H.slots.modify (f := fun slot => { slot with state := .ready }) hs
      fun _ => ⟨⟨n, h₁, h₂, h₃, fun _ => ⟨o, ho⟩⟩, hne, rfl⟩
    exact ⟨workerMoved_modify hs hr, H.moved (workerMoved_modify hs hr) hslots scan_start⟩

theorem holds_completed {p : Nat} {slot : Slot D O} {output : O} (H : Holds k s)
    (hu : s.worker = .run p) (hs : s.slots[p]? = some slot) :
    allowed k (.completed slot.request output) ∧
      Holds (note k (.completed slot.request output))
        { s with slots := s.slots.modify p fun slot => { slot with output := some output },
                 executed := s.executed ++ [slot.request], worker := .ready p } := by
  have hw := H.worker
  rw [hu] at hw
  obtain ⟨slot', hs', hr⟩ := hw
  rw [hs] at hs'
  cases hs'
  have hne : slot.state ≠ .empty := by
    rw [hr]
    nofun
  have hheld := H.slots.held p slot hs hne
  refine ⟨?_, ?_, H.rendered, H.last, H.barrier, ?_, ?_⟩
  · obtain ⟨n, _, h₂, _⟩ := hheld
    exact List.mem_of_getElem? h₂
  · refine (H.slots.mono fun b => held_note_completed).modify hs fun _ => ?_
    obtain ⟨n, h₁, h₂, h₃, _⟩ := hheld
    exact ⟨⟨n, h₁, h₂, h₃, fun h => by simp [hr] at h⟩, hne, rfl⟩
  · refine ⟨{ slot with output := some output }, by simp [hs], hr, output, rfl, ?_⟩
    exact List.mem_cons_self
  · exact H.client.moved (workerMoved_modify hs hr) rfl rfl rfl

/-! ## Steps of the host -/

theorem writeBridgeMidiEvents_isSome (room : Nat) :
    ∀ (timing : MidiBlockTiming) (midi : List (MidiPacket D)),
      ∀ e ∈ (writeBridgeMidiEvents room timing midi).1, e.packet.isSome := by
  induction room with
  | zero => simp [writeBridgeMidiEvents]
  | succ room ih =>
    intro timing midi
    cases midi with
    | nil => simp [writeBridgeMidiEvents]
    | cons p midi =>
      unfold writeBridgeMidiEvents
      split
      · intro e he
        rcases List.mem_cons.mp he with rfl | he
        · rfl
        · exact ih _ _ e he
      · simp

theorem WorkerHolds.keeps {slots slots' : List (Slot D O)} {w : Worker}
    (h : WorkerHolds k slots w) (hk : Keeps (· = .requested) slots slots')
    (hc : k'.completed = k.completed) : WorkerHolds k' slots' w := by
  cases w with
  | idle | dead => trivial
  | scan i best => exact fun p q hb => (h p q hb).keeps hk rfl
  | key i best => exact ⟨fun p q hb => (h.1 p q hb).keeps hk rfl, h.2.keeps hk rfl⟩
  | load p | reject p | run p | fail p => exact InState.keeps h hk rfl
  | ready p =>
    obtain ⟨slot, hs, hr, o, ho, hm⟩ := h
    exact ⟨slot, hk p slot hs hr, hr, o, ho, by rw [hc]; exact hm⟩

/-- What one step of a call adds to the history is allowed, and what is then
known holds. -/
def Grows (k : Known D O) (s s' : St D O) : Prop :=
  ∃ rs ps, s'.returned = s.returned ++ rs ∧ s'.published = s.published ++ ps ∧
    (watch D O).Allows k (rs.map .returned ++ ps.map .published) ∧
    Holds ((watch D O).after k (rs.map .returned ++ ps.map .published)) s'

theorem grows_quiet (hr : s'.returned = s.returned) (hp : s'.published = s.published)
    (H : Holds k s') : Grows k s s' :=
  ⟨[], [], by simp [hr], by simp [hp], (watch D O).allows_nil k, H⟩

theorem grows_returned {r : Result O} (hr : s'.returned = s.returned ++ [r])
    (hp : s'.published = s.published) (ha : allowed k (.returned r))
    (H : Holds (note k (.returned r)) s') : Grows k s s' :=
  ⟨[r], [], hr, by simp [hp], (watch D O).allows_singleton ha, H⟩

/-- `Holds` between two calls; a call keeps what it says of the rest. -/
theorem Holds.idle (H : Holds k s) (hn : s.nextSequence = k.published.length + 1)
    (hp : s.panicPending = k.panicked) : Holds k { s with client := .idle } :=
  { H with client := ⟨hn, hp⟩ }

theorem Holds.reads {u : Client} (H : Holds k s) (hc : ClientHolds k s u) :
    Holds k { s with client := u } :=
  { H with
    client := by
      cases u <;> exact hc }

/-- A slot that the worker does not own is freed. -/
theorem Holds.free {i : Nat} {slot : Slot D O} (H : Holds k { s with client := .idle })
    (hs : s.slots[i]? = some slot) (hr : slot.state ≠ .requested) :
    Holds k { setState s i .empty with client := .idle } where
  slots := H.slots.free hs
  rendered := H.rendered
  last := H.last
  barrier := H.barrier
  worker := H.worker.keeps (keeps_modify hs hr) rfl
  client := H.client

/-- A call that found no block to return. -/
theorem grows_finishRead {t : St D O} (j : Job) (hr : t.returned = s.returned)
    (hp : t.published = s.published) (H : Holds k { t with client := .idle }) :
    Grows k s (finishRead t j none) := by
  unfold finishRead
  simp only
  split
  · exact grows_returned (r := .primed) (congrArg (· ++ _) hr) hp trivial
      { H with client := H.client }
  · exact grows_returned (r := .ramp t.lastOutput j.frames) (congrArg (· ++ _) hr) hp H.last
      { slots := H.slots.mono fun _ h => h
        rendered := H.rendered
        last := rfl
        barrier := H.barrier
        worker := H.worker.keeps (keeps_refl _) rfl
        client := H.client }

theorem grows_take {j : Job} {i : Nat} (H : Holds k s) (hu : s.client = .take j i)
    (hst : clientStep s s.client = some s') : Grows k s s' := by
  have hc := H.client
  rw [hu] at hst hc
  obtain ⟨hn, hp, he, slot, hs, hr, hq, hb, hf⟩ := hc
  simp only [clientStep, hs, Option.map_some, Option.some.injEq] at hst; subst hst
  have hne : slot.state ≠ .empty := by
    rw [hr]
    exact fun h => by cases h
  obtain ⟨n, h₁, h₂, h₃, h₄⟩ := H.slots.held i slot hs hne
  obtain ⟨o, ho, hm⟩ := h₄ hr
  have hlen : k.published.length = n + 1 := by omega
  have hlast : k.published.getLast? = some slot.request := by
    rw [List.getLast?_eq_getElem?, hlen]
    exact h₂
  refine grows_returned (r := .rendered slot.request.sequence j.frames slot.output) rfl rfl ?_ ?_
  · refine ⟨by omega, by omega, ?_, slot.request, o, ho, hm, hlast, hf⟩
    rw [h₁]
    exact h₃
  · exact
      { slots := H.slots.render hs hr
        rendered := by
          intro q hq'
          rcases List.mem_cons.mp hq' with rfl | hq'
          · show slot.request.sequence ≤ k.published.length
            omega
          · exact H.rendered q hq'
        last := rfl
        barrier := H.barrier
        worker := H.worker.keeps (keeps_modify hs (by simp [hr])) rfl
        client := ⟨hn, hp⟩ }

theorem holds_fillSlot {j : Job} {i : Nat} (H : Holds k s) (hu : s.client = .fill j i) :
    Holds k (fillSlot s j i) := by
  have hc := H.client
  rw [hu] at hc
  obtain ⟨hn, hp, slot, hs, he⟩ := hc
  simp only [fillSlot]
  rw [hp]
  generalize hpan : (if k.panicked then writePanicEvents D else []) = panic
  generalize s.clock.beginBlock j.frames s.sampleRate j.sourceEndUs
    (s.midi.head?.map (·.timestampUs)) = timing
  have hsome := writeBridgeMidiEvents_isSome (maxMidi - panic.length) timing s.midi
  generalize writeBridgeMidiEvents (maxMidi - panic.length) timing s.midi = w at hsome
  exact
    { slots := H.slots.edit hs he
      rendered := H.rendered
      last := H.last
      barrier := H.barrier
      worker := H.worker.keeps (keeps_modify hs (by simp [he])) rfl
      client := by
        refine ⟨hn, rfl, _, getElem?_modify_self hs, he, w.1, hsome, ?_⟩
        rw [hpan] }

theorem holds_storeSequence {i : Nat} (H : Holds k s) (hu : s.client = .storeSequence i)
    (hst : clientStep s s.client = some s') :
    s'.returned = s.returned ∧ s'.published = s.published ∧ Holds k s' := by
  have hc := H.client
  rw [hu] at hst hc
  obtain ⟨hn, hp, slot, hs, he, hb⟩ := hc
  simp only [clientStep, Option.some.injEq] at hst; subst hst
  refine ⟨rfl, rfl, ?_⟩
  exact
    { slots := H.slots.edit hs he
      rendered := H.rendered
      last := H.last
      barrier := H.barrier
      worker := H.worker.keeps (keeps_modify hs (by simp [he])) rfl
      client := by
        refine ⟨?_, hp, _, getElem?_modify_self hs, he, hb, hn⟩
        show s.nextSequence + 1 = k.published.length + 2
        rw [hn] }

theorem grows_publish {i : Nat} (H : Holds k s) (hu : s.client = .publish i)
    (hst : clientStep s s.client = some s') : Grows k s s' := by
  have hc := H.client
  rw [hu] at hst hc
  obtain ⟨hn, hp, slot, hs, he, hb, hq⟩ := hc
  simp only [clientStep, hs, Option.map_some, Option.some.injEq] at hst; subst hst
  refine ⟨[], [slot.request], (List.append_nil _).symm, rfl,
    (watch D O).allows_singleton ⟨hq, hb⟩, ?_⟩
  exact
    { slots := H.slots.publish H.rendered hs hq
      rendered := by
        intro q hq'
        have := H.rendered q hq'
        show q ≤ (k.published ++ [slot.request]).length
        rw [List.length_append]
        omega
      last := H.last
      barrier := H.barrier
      worker := H.worker.keeps (keeps_modify hs (by simp [he])) rfl
      client := by
        refine ⟨?_, hp⟩
        show s.nextSequence = (k.published ++ [slot.request]).length + 1
        rw [hn, List.length_append]
        rfl }

theorem grows_clientStep (H : Holds k s) (hst : clientStep s s.client = some s') :
    Grows k s s' := by
  have hc := H.client
  cases hu : s.client with
  | idle => simp [hu, clientStep] at hst
  | readState j i =>
    rw [hu] at hst hc
    simp only [clientStep] at hst
    split at hst
    · simp only [Option.some.injEq] at hst; subst hst
      exact grows_finishRead j rfl rfl (H.idle hc.1 hc.2.1)
    · rename_i slot hi
      simp only [Option.some.injEq] at hst; subst hst
      refine grows_quiet rfl rfl (H.reads ?_)
      split
      · rename_i hr
        exact ⟨hc.1, hc.2.1, hc.2.2, slot, hi, hr⟩
      · exact hc
  | readSequence j i =>
    rw [hu] at hst hc
    obtain ⟨hn, hp, he, slot, hs, hr⟩ := hc
    simp only [clientStep, hs, Option.map_some, Option.some.injEq] at hst; subst hst
    refine grows_quiet rfl rfl (H.reads ?_)
    split
    · exact ⟨hn, hp, he, slot, hs, hr⟩
    · split
      · exact ⟨hn, hp, he⟩
      · rename_i hlt heq
        have := H.barrier
        exact ⟨hn, hp, he, slot, hs, hr, by omega, by omega⟩
  | readFrames j i =>
    rw [hu] at hst hc
    obtain ⟨hn, hp, he, slot, hs, hr, hq, hb⟩ := hc
    simp only [clientStep, hs, Option.map_some, Option.some.injEq] at hst; subst hst
    refine grows_quiet rfl rfl (H.reads ?_)
    split
    · exact ⟨hn, hp, he, slot, hs, hr, hq, hb⟩
    · rename_i hf
      exact ⟨hn, hp, he, slot, hs, hr, hq, hb, by omega⟩
  | discard j i =>
    rw [hu] at hst hc
    obtain ⟨hn, hp, he, slot, hs, hr⟩ := hc
    simp only [clientStep, Option.some.injEq] at hst; subst hst
    have hfree := (H.idle hn hp).free hs (by simp [hr])
    exact grows_quiet rfl rfl { hfree with client := ⟨hn, hp, he⟩ }
  | mismatch j i =>
    rw [hu] at hst hc
    obtain ⟨hn, hp, he, slot, hs, hr, _⟩ := hc
    simp only [clientStep, Option.some.injEq] at hst; subst hst
    exact grows_finishRead j rfl rfl ((H.idle hn hp).free hs (by simp [hr]))
  | take j i => exact grows_take H hu hst
  | findEmpty j i =>
    rw [hu] at hst hc
    simp only [clientStep] at hst
    split at hst
    · simp only [Option.some.injEq] at hst; subst hst
      exact grows_quiet rfl rfl (H.reads hc)
    · rename_i slot hi
      simp only [Option.some.injEq] at hst; subst hst
      refine grows_quiet rfl rfl (H.reads ?_)
      split
      · rename_i he
        exact ⟨hc.1, hc.2, slot, hi, he⟩
      · exact hc
  | fill j i =>
    have hf := holds_fillSlot H hu
    rw [hu] at hst
    simp only [clientStep, Option.some.injEq] at hst; subst hst
    exact grows_quiet rfl rfl hf
  | storeSequence i =>
    obtain ⟨hr, hp, H'⟩ := holds_storeSequence H hu hst
    exact grows_quiet hr hp H'
  | publish i => exact grows_publish H hu hst

end Steps

/-! ## The slots a call frees -/

/-- A READY slot whose result no call will return. -/
def Unusable (s : St D O) (j : Job) (i : Nat) : Prop :=
  ∃ slot, s.slots[i]? = some slot ∧ slot.state = .ready ∧
    (slot.request.sequence < j.expected ∨ slot.request.sequence < s.minOutputSequence)

/-- The call has looked at the slots below `i`. -/
def Looking (stale : List Nat) (stopped : Option Nat) (s : St D O) (j : Job) (i : Nat) : Prop :=
  stopped = none ∧
    ∀ n ∈ stale, (n < i → InState s.slots .empty n) ∧ (i ≤ n → Unusable s j n)

/-- The slots the call has freed: those before the one it stopped at, and that
one. -/
def Freed (stale : List Nat) (stopped : Option Nat) (slots : List (Slot D O)) : Prop :=
  (∀ n ∈ stale, (∀ p, stopped = some p → n < p) → InState slots .empty n) ∧
    ∀ p, stopped = some p → InState slots .empty p

def ScanHolds (stale : List Nat) (stopped : Option Nat) (s : St D O) : Client → Prop
  | .readState j i | .readSequence j i | .discard j i => Looking stale stopped s j i
  | .readFrames j i | .mismatch j i | .take j i => Looking stale stopped s j i
  | .findEmpty _ _ => Freed stale stopped s.slots
  | _ => True

section Scan

variable {stale : List Nat} {stopped : Option Nat} {s s' : St D O} {j : Job} {i : Nat}
  {slot : Slot D O}

theorem Unusable.keeps {n : Nat} {p : SlotState → Prop} (h : Unusable s j n)
    (hk : Keeps p s.slots s'.slots) (hp : p .ready)
    (hm : s'.minOutputSequence = s.minOutputSequence) : Unusable s' j n := by
  obtain ⟨slot, hs, hr, hq⟩ := h
  exact ⟨slot, hk n slot hs (hr ▸ hp), hr, by rw [hm]; exact hq⟩

theorem ScanHolds.moved {u : Client} (h : ScanHolds stale stopped s u) (m : WorkerMoved s s') :
    ScanHolds stale stopped s' u := by
  have looking : ∀ j i, Looking stale stopped s j i → Looking stale stopped s' j i :=
    fun j i h => ⟨h.1, fun n hn => ⟨fun hlt => ((h.2 n hn).1 hlt).keeps m.slots nofun,
      fun hle => ((h.2 n hn).2 hle).keeps m.slots nofun m.minOutputSequence⟩⟩
  cases u with
  | idle | fill | storeSequence | publish => trivial
  | readState j i | readSequence j i | discard j i => exact looking j i h
  | readFrames j i | mismatch j i | take j i => exact looking j i h
  | findEmpty j i =>
    exact ⟨fun n hn hp => (h.1 n hn hp).keeps m.slots nofun,
      fun p hp => (h.2 p hp).keeps m.slots nofun⟩

/-- The slot at `i` is not among those to be freed. -/
theorem Looking.next (h : Looking stale stopped s j i) (hi : ¬Unusable s j i) :
    Looking stale stopped s j (i + 1) := by
  refine ⟨h.1, fun n hn => ⟨fun hlt => ?_, fun hle => (h.2 n hn).2 (by omega)⟩⟩
  obtain ⟨hempty, hun⟩ := h.2 n hn
  by_cases heq : n = i
  · subst heq
    exact absurd (hun (Nat.le_refl n)) hi
  · exact hempty (by omega)

theorem not_unusable (hs : s.slots[i]? = some slot)
    (h : slot.state = .ready → j.expected ≤ slot.request.sequence ∧
      s.minOutputSequence ≤ slot.request.sequence) : ¬Unusable s j i := by
  intro ⟨slot', hs', hr, hq⟩
  rw [hs] at hs'
  cases hs'
  have := h hr
  omega

theorem inState_free {n : Nat} (hs : s.slots[i]? = some slot) (h : n = i ∨ InState s.slots .empty n) :
    InState (setState s i .empty).slots .empty n := by
  by_cases hn : n = i
  · subst hn
    exact inState_modify hs
  · obtain ⟨b, hb, he⟩ := h.resolve_left hn
    refine ⟨b, ?_, he⟩
    rw [setState, List.getElem?_modify, hb]
    simp [Ne.symm hn]

theorem Looking.discard (h : Looking stale stopped s j i) (hs : s.slots[i]? = some slot) :
    Looking stale stopped (setState s i .empty) j (i + 1) := by
  refine ⟨h.1, fun n hn => ⟨fun hlt => inState_free hs ?_, fun hle => ?_⟩⟩
  · by_cases heq : n = i
    · exact .inl heq
    · exact .inr ((h.2 n hn).1 (by omega))
  · obtain ⟨b, hb, hr, hq⟩ := (h.2 n hn).2 (by omega)
    refine ⟨b, ?_, hr, hq⟩
    have hne : i ≠ n := by omega
    rw [setState, List.getElem?_modify, hb]
    simp [hne]

/-- The call has looked at every slot. -/
theorem Looking.all (h : Looking stale stopped s j i) (hi : s.slots[i]? = none) :
    Freed stale stopped s.slots := by
  refine ⟨fun n hn _ => ?_, fun p hp => by rw [h.1] at hp; cases hp⟩
  by_cases hlt : n < i
  · exact (h.2 n hn).1 hlt
  · obtain ⟨b, hb, _⟩ := (h.2 n hn).2 (by omega)
    have hlen := (List.getElem?_eq_some_iff.mp hb).1
    have := List.getElem?_eq_none_iff.mp hi
    omega

/-- The call stops at slot `i` and frees it. -/
theorem Looking.stop (h : Looking stale stopped s j i) (hs : s.slots[i]? = some slot) :
    Freed stale (some i) (setState s i .empty).slots := by
  refine ⟨fun n hn hp => inState_free hs (.inr ((h.2 n hn).1 (hp i rfl))), fun p hp => ?_⟩
  cases hp
  exact inState_free hs (.inl rfl)

theorem scan_finishRead {t : St D O} {r : Option (Nat × Option O)}
    (h : Freed stale stopped t.slots) :
    ScanHolds stale stopped (finishRead t j r) (finishRead t j r).client := by
  unfold finishRead
  split
  · exact h
  · split <;> exact h

theorem scan_clientStep {k : Known D O} (H : Holds k s) (h : ScanHolds stale stopped s s.client)
    (hst : clientStep s s.client = some s') :
    ScanHolds stale (stopsAt s stopped (.client : Lbl D O)) s' s'.client := by
  have hc := H.client
  unfold stopsAt
  cases hu : s.client with
  | idle => simp [hu, clientStep] at hst
  | readState j i =>
    rw [hu] at hst h
    simp only [clientStep] at hst
    split at hst
    · rename_i hi
      simp only [Option.some.injEq] at hst; subst hst
      exact scan_finishRead (Looking.all h hi)
    · rename_i slot hs
      simp only [Option.some.injEq] at hst; subst hst
      dsimp only
      split
      · exact h
      · rename_i hr
        exact Looking.next h (not_unusable hs fun h => absurd h hr)
  | readSequence j i =>
    rw [hu] at hst hc h
    obtain ⟨_, _, _, slot, hs, hr⟩ := hc
    simp only [clientStep, hs, Option.map_some, Option.some.injEq] at hst; subst hst
    dsimp only
    split
    · exact h
    · split
      · rename_i hlt hne
        have hge : j.expected ≤ slot.request.sequence ∧
            s.minOutputSequence ≤ slot.request.sequence := by omega
        exact Looking.next h (not_unusable hs fun _ => hge)
      · exact h
  | readFrames j i =>
    rw [hu] at hst h
    simp only [clientStep, Option.map_eq_some_iff] at hst
    obtain ⟨slot, -, rfl⟩ := hst
    dsimp only
    split <;> exact h
  | discard j i =>
    rw [hu] at hst hc h
    obtain ⟨_, _, _, slot, hs, _⟩ := hc
    simp only [clientStep, Option.some.injEq] at hst; subst hst
    exact Looking.discard h hs
  | mismatch j i =>
    rw [hu] at hst hc h
    obtain ⟨_, _, _, slot, hs, _⟩ := hc
    simp only [clientStep, Option.some.injEq] at hst; subst hst
    exact scan_finishRead (Looking.stop h hs)
  | take j i =>
    rw [hu] at hst hc h
    obtain ⟨_, _, _, slot, hs, _⟩ := hc
    simp only [clientStep, hs, Option.map_some, Option.some.injEq] at hst; subst hst
    exact scan_finishRead (Looking.stop h hs)
  | findEmpty j i =>
    rw [hu] at hst h
    simp only [clientStep] at hst
    split at hst
    · simp only [Option.some.injEq] at hst; subst hst
      trivial
    · simp only [Option.some.injEq] at hst; subst hst
      dsimp only
      split
      · trivial
      · exact h
  | fill j i =>
    rw [hu] at hst
    simp only [clientStep, Option.some.injEq] at hst; subst hst
    trivial
  | storeSequence i =>
    rw [hu] at hst
    simp only [clientStep, Option.some.injEq] at hst; subst hst
    trivial
  | publish i =>
    rw [hu] at hst
    simp only [clientStep, Option.map_eq_some_iff] at hst
    obtain ⟨slot, -, rfl⟩ := hst
    trivial

theorem unusable_of_mem {n : Nat} (h : n ∈ staleSlots s) (hj : j.expected = s.nextSequence - 1) :
    Unusable s j n := by
  obtain ⟨_, hany⟩ := List.mem_filter.mp h
  obtain ⟨slot, hs, hq⟩ := (Option.any_eq_true _ _).mp hany
  obtain ⟨hr, hq⟩ := of_decide_eq_true hq
  exact ⟨slot, hs, hr, by rw [hj]; exact hq⟩

end Scan

/-! ## Headline property -/

structure FreshInv (s : FreshSt D O) : Prop where
  clean : (watch D O).Clean s.history
  holds : Holds ((watch D O).state s.history) s.base
  scan : ScanHolds s.stale s.stopped s.base s.base.client

theorem FreshInv.grows {s : FreshSt D O} {base : St D O} {stale : List Nat} {stopped : Option Nat}
    {es : List (Ev D O)} (I : FreshInv s)
    (he : (watch D O).Allows ((watch D O).state s.history) es)
    (H : Holds ((watch D O).after ((watch D O).state s.history) es) base)
    (hs : ScanHolds stale stopped base base.client) :
    FreshInv ⟨base, s.history ++ es, stale, stopped⟩ :=
  ⟨I.clean.append he, by rw [Monitor.state_append]; exact H, hs⟩

theorem events_eq {s s' : St D O} {rs : List (Result O)} {ps : List (Request D)}
    (hr : s'.returned = s.returned ++ rs) (hp : s'.published = s.published ++ ps) :
    (s'.returned.drop s.returned.length).map Ev.returned ++
      (s'.published.drop s.published.length).map Ev.published =
      rs.map Ev.returned ++ ps.map Ev.published := by
  rw [hr, hp, List.drop_left, List.drop_left]

theorem events_quiet {s s' : St D O} (hr : s'.returned = s.returned)
    (hp : s'.published = s.published) :
    (s'.returned.drop s.returned.length).map Ev.returned ++
      (s'.published.drop s.published.length).map Ev.published = [] :=
  @events_eq D O s s' [] [] (by simp [hr]) (by simp [hp])

theorem FreshInv.quiet {s : FreshSt D O} {base : St D O} {stale : List Nat} {stopped : Option Nat}
    (I : FreshInv s) (hr : base.returned = s.base.returned)
    (hp : base.published = s.base.published) (H : Holds ((watch D O).state s.history) base)
    (hs : ScanHolds stale stopped base base.client) :
    FreshInv ⟨base, s.history ++ ((base.returned.drop s.base.returned.length).map .returned ++
      (base.published.drop s.base.published.length).map .published), stale, stopped⟩ := by
  rw [events_quiet hr hp]
  exact I.grows (Monitor.allows_nil _ _) H hs

/-- A step that touches neither the host nor what is known. -/
theorem FreshInv.moved {s : FreshSt D O} {base : St D O} (I : FreshInv s)
    (m : WorkerMoved s.base base) (H : Holds ((watch D O).state s.history) base) :
    FreshInv ⟨base, s.history ++ ((base.returned.drop s.base.returned.length).map .returned ++
      (base.published.drop s.base.published.length).map .published), s.stale, s.stopped⟩ := by
  refine I.quiet m.returned m.published H ?_
  rw [m.client]
  exact I.scan.moved m

theorem fresh_panicAllNotes {mb : Nat} {s s' : FreshSt D O} (I : FreshInv s)
    (hst : freshStep mb s .panicAllNotes = some s') : FreshInv s' := by
  obtain ⟨base, hb, rfl⟩ := Option.map_eq_some_iff.mp hst
  have H := I.holds
  simp only [step] at hb
  split at hb
  · rename_i hu
    simp only [Option.some.injEq] at hb; subst hb
    have hc := H.client
    rw [hu] at hc
    have ha : (watch D O).Allows ((watch D O).state s.history) [.panic] :=
      Monitor.allows_singleton _ trivial
    refine I.grows ha ?_ (by rw [hu]; trivial)
    exact
      { slots := H.slots.mono fun _ h => h
        rendered := H.rendered
        last := rfl
        barrier := hc.1
        worker := H.worker.keeps (keeps_refl _) rfl
        client := by
          rw [hu]
          exact ⟨hc.1, rfl⟩ }
  · cases hb

theorem fresh_process {mb : Nat} {s s' : FreshSt D O} {frames sourceEndUs : Nat}
    {nextIngressUs : Option Nat} (I : FreshInv s)
    (hst : freshStep mb s (.process frames sourceEndUs nextIngressUs) = some s') :
    FreshInv s' := by
  obtain ⟨base, hb, rfl⟩ := Option.map_eq_some_iff.mp hst
  have H := I.holds
  simp only [step] at hb
  split at hb
  · rename_i hu
    have hc := H.client
    rw [hu] at hc
    split at hb
    · simp only [Option.some.injEq] at hb; subst hb
      have he : events s.base { s.base with returned := s.base.returned ++ [.refused] }
          (.process frames sourceEndUs nextIngressUs : Lbl D O) = [.returned .refused] :=
        @events_eq D O s.base _ [.refused] [] rfl (List.append_nil _).symm
      rw [he]
      refine I.grows (Monitor.allows_singleton _ trivial) ?_ (by rw [hu]; trivial)
      exact { H with client := by rw [hu]; exact hc }
    · simp only [Option.some.injEq] at hb; subst hb
      refine I.quiet rfl rfl (H.reads ?_) ?_
      · refine ⟨hc.1, hc.2, ?_⟩
        show s.base.nextSequence - 1 = _
        rw [hc.1]
        rfl
      · exact ⟨rfl, fun n hn => ⟨fun hlt => absurd hlt (Nat.not_lt_zero n),
          fun _ => unusable_of_mem hn rfl⟩⟩
  · cases hb

theorem fresh_executed {mb : Nat} {s s' : FreshSt D O} {ok : Bool} {output : O} (I : FreshInv s)
    (hst : freshStep mb s (.executed ok output) = some s') : FreshInv s' := by
  obtain ⟨base, hb, rfl⟩ := Option.map_eq_some_iff.mp hst
  have H := I.holds
  have hw := H.worker
  simp only [step] at hb
  split at hb
  · rename_i p hu
    rw [hu] at hw
    obtain ⟨slot, hs, hr⟩ := hw
    simp only [hs, Option.map_some, Option.some.injEq] at hb; subst hb
    cases ok with
    | true =>
      obtain ⟨ha, H'⟩ := @holds_completed D O _ _ p slot output H hu hs
      have he : ∀ base, events s.base base (.executed true output : Lbl D O) =
          [.completed slot.request output] := by
        intro base
        simp [events, hu, hs]
      rw [he]
      exact I.grows (Monitor.allows_singleton _ ha) H' (I.scan.moved (workerMoved_modify hs hr))
    | false =>
      have he : ∀ base, events s.base base (.executed false output : Lbl D O) = [] := by
        intro base
        simp [events, hu]
      rw [he]
      have m : WorkerMoved s.base { s.base with
          executed := s.base.executed ++ [slot.request], worker := .fail p } :=
        ⟨keeps_refl _, rfl, rfl, rfl, rfl, rfl, rfl, rfl⟩
      exact I.grows (Monitor.allows_nil _ _) (H.moved m H.slots ⟨slot, hs, hr⟩) (I.scan.moved m)
  · cases hb

theorem fresh_step {mb : Nat} {s s' : FreshSt D O} {l : Lbl D O} (I : FreshInv s)
    (hst : freshStep mb s l = some s') : FreshInv s' := by
  have H := I.holds
  cases l with
  | panicAllNotes => exact fresh_panicAllNotes I hst
  | process => exact fresh_process I hst
  | executed => exact fresh_executed I hst
  | enqueue p =>
    obtain ⟨base, hb, rfl⟩ := Option.map_eq_some_iff.mp hst
    simp only [step, Option.some.injEq] at hb; subst hb
    have m : WorkerMoved s.base
        { s.base with midi := s.base.midi ++ [p], arrived := s.base.arrived ++ [p] } :=
      ⟨keeps_refl _, rfl, rfl, rfl, rfl, rfl, rfl, rfl⟩
    exact I.moved m (H.moved m H.slots H.worker)
  | clearQueue =>
    obtain ⟨base, hb, rfl⟩ := Option.map_eq_some_iff.mp hst
    simp only [step] at hb
    split at hb
    · simp only [Option.some.injEq] at hb; subst hb
      have m : WorkerMoved s.base { s.base with midi := [], arrived := s.base.taken } :=
        ⟨keeps_refl _, rfl, rfl, rfl, rfl, rfl, rfl, rfl⟩
      exact I.moved m (H.moved m H.slots H.worker)
    · cases hb
  | client =>
    obtain ⟨base, hb, rfl⟩ := Option.map_eq_some_iff.mp hst
    obtain ⟨rs, ps, hr, hp, ha, H'⟩ := grows_clientStep H hb
    have he : events s.base base (.client : Lbl D O) = _ := events_eq hr hp
    rw [he]
    exact I.grows ha H' (scan_clientStep H I.scan hb)
  | cycle =>
    obtain ⟨base, hb, rfl⟩ := Option.map_eq_some_iff.mp hst
    simp only [step] at hb
    split at hb
    · simp only [Option.some.injEq] at hb; subst hb
      exact I.moved workerMoved_worker (H.moved workerMoved_worker H.slots (by intro p q h; cases h))
    · cases hb
  | worker =>
    obtain ⟨base, hb, rfl⟩ := Option.map_eq_some_iff.mp hst
    obtain ⟨m, H'⟩ := holds_workerStep H hb
    exact I.moved m H'

theorem fresh_init (D O : Type) (n sampleRate : Nat) :
    FreshInv (⟨init D O n sampleRate, [], [], none⟩ : FreshSt D O) where
  clean := Monitor.clean_nil _
  holds :=
    { slots := by
        have hempty : ∀ (i : Nat) (slot : Slot D O), (init D O n sampleRate).slots[i]? = some slot →
            slot.state = .empty := by
          intro i slot hs
          rw [List.eq_of_mem_replicate (List.mem_of_getElem? hs)]
        exact ⟨fun i slot hs hne => absurd (hempty i slot hs) hne,
          fun i j a b ha _ hne => absurd (hempty i a ha) hne⟩
      rendered := nofun
      last := rfl
      barrier := rfl
      worker := trivial
      client := ⟨rfl, rfl⟩ }
  scan := trivial

theorem fresh_inductive (D O : Type) (mb : Nat) : (freshLts D O mb).Inductive FreshInv where
  init := by
    intro s ⟨sampleRate, hs⟩
    subst hs
    exact fresh_init D O bridgeSlots sampleRate
  step _ _ _ I hst := fresh_step I hst

/-- In every run what is published and returned is as `watch` says. When a
call starts to look for an EMPTY slot it has freed every slot that held a
result of no use as it began, except behind the slot of the expected number,
where it stops; so if there was one, a slot is EMPTY. -/
theorem bridge_freshness (D O : Type) (maxBlock : Nat) (s : FreshSt D O)
    (h : (freshLts D O maxBlock).Reachable s) :
    (watch D O).Clean s.history ∧
      ∀ j, s.base.client = .findEmpty j 0 →
        Freed s.stale s.stopped s.base.slots ∧
        (s.stale ≠ [] → ∃ i, InState s.base.slots .empty i) := by
  have I := (fresh_inductive D O maxBlock).reachable s h
  refine ⟨I.clean, fun j hu => ?_⟩
  have hf := I.scan
  rw [hu] at hf
  refine ⟨hf, fun hne => ?_⟩
  obtain ⟨n, hn⟩ := List.exists_mem_of_ne_nil _ hne
  cases hp : s.stopped with
  | some p => exact ⟨p, hf.2 p hp⟩
  | none => exact ⟨n, hf.1 n hn fun p h => by rw [hp] at h; cases h⟩

/-! ## Non-vacuity and the slot that is passed over -/

def call (clients : Nat) : List (Lbl Nat Nat) :=
  .process 64 0 none :: List.replicate clients .client

def complete (workers output : Nat) : List (Lbl Nat Nat) :=
  List.replicate workers .worker ++ [.executed true output, .worker]

def fresh0 : FreshSt Nat Nat := ⟨init Nat Nat 3 48000, [], [], none⟩

theorem reachable_of_run {p : FreshSt Nat Nat → Bool} (ls : List (Lbl Nat Nat))
    (h : (LTS.exec (freshStep 512) fresh0 ls).any p = true) :
    ∃ s, (freshLts Nat Nat 512).Reachable s ∧ p s = true :=
  LTS.reachable_of_any ls ⟨48000, rfl⟩ h

/-- A panic while request 1 runs; request 2 begins with the resets. -/
def tracePanic : List (Lbl Nat Nat) :=
  List.flatten [call 8, [.panicAllNotes, .cycle], complete 6 5, call 10, complete 6 6, call 4]

def panicHistory : List (Ev Nat Nat) :=
  [.returned .primed, .published ⟨1, 64, []⟩, .panic, .completed ⟨1, 64, []⟩ 5,
    .returned .primed, .published ⟨2, 64, writePanicEvents Nat⟩,
    .completed ⟨2, 64, writePanicEvents Nat⟩ 6, .returned (.rendered 2 64 (some 6))]

theorem tracePanic_result :
    (LTS.exec (freshStep 512) fresh0 tracePanic).any
      (fun s : FreshSt Nat Nat => decide (s.history = panicHistory ∧
        s.base.client = .findEmpty ⟨64, 0, none, false, 2⟩ 0)) = true := by
  decide +kernel

theorem panic_restarts : ∃ s : FreshSt Nat Nat, s.history = panicHistory ∧
    (watch Nat Nat).Clean s.history ∧ Freed s.stale s.stopped s.base.slots := by
  obtain ⟨s, hr, hp⟩ := reachable_of_run tracePanic tracePanic_result
  obtain ⟨hh, hu⟩ := of_decide_eq_true hp
  obtain ⟨hc, hf⟩ := bridge_freshness Nat Nat 512 s hr
  exact ⟨s, hh, hc, (hf _ hu).1⟩

/-- Request 3 is in slot 0 and request 2, executed too late, in slot 1. -/
def traceKept : List (Lbl Nat Nat) :=
  List.flatten [call 8, call 9, [.cycle], complete 7 5, call 10, complete 7 6, complete 6 7, call 4]

theorem traceKept_result :
    (LTS.exec (freshStep 512) fresh0 traceKept).any
      (fun s : FreshSt Nat Nat => decide (s.base.client = .findEmpty ⟨64, 0, none, false, 3⟩ 0 ∧
        s.stale = [1] ∧ s.base.slots[1]? = some ⟨.ready, ⟨2, 64, []⟩, some 6⟩)) = true := by
  decide +kernel

/-- A call that finds request 3 leaves the READY slot of request 2 as it is. -/
theorem older_slot_kept :
    ¬∀ s : FreshSt Nat Nat, (freshLts Nat Nat 512).Reachable s →
      ∀ j, s.base.client = .findEmpty j 0 → ∀ i ∈ s.stale, ∀ slot, s.base.slots[i]? = some slot →
        slot.request.sequence < j.expected → slot.state ≠ .ready := by
  intro h
  obtain ⟨s, hr, hp⟩ := reachable_of_run traceKept traceKept_result
  obtain ⟨hu, hs, hslot⟩ := of_decide_eq_true hp
  exact h s hr _ hu 1 (by rw [hs]; exact List.mem_cons_self) _ hslot (by decide) rfl

end RtpOscMidi.L5.BridgeFreshness
