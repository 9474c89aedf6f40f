import RtpOscMidi.Core.LTS
import RtpOscMidi.L1Encoding.OscDecode
import RtpOscMidi.L2Machine.MidiQueue

/-!
# Scheduling of the OSC input

`receive` decodes datagrams into MIDI events with deadlines. An event that is
due and finds nothing waiting goes to the pipeline at once; the others wait in
a heap, which is drained by deadline and order of arrival. When the reset
generation has moved, what waits is dropped.

A step is one access of the task to the reset generation, the clock or the
pipeline; resets come and time passes between any two. The heap is the list of
its entries in the order `pop` gives them. What the input profiles make of an
event (`prepared`), the order in which `select!` finds its branches ready, and
whether the pipeline asks for a reset while it takes an event are left to the
run. The order counter and the generations do not wrap.

`arrival` numbers the events of all datagrams; `seen` is the reset generation
as the task last read it; `admitted` records what went to the pipeline.
-/
namespace RtpOscMidi.L5.OscInput

open Core L1.MidiMessage L1.OscPacket L2.MidiQueue

/-- mirrors src-tauri/src/osc_input/mod.rs:22 -/
def pendingCapacity : Nat := 4096

structure Entry where
  event : ScheduledMidi
  arrival : Nat
  deriving DecidableEq, Repr

/-- The order of the heap.
mirrors src-tauri/src/osc_input/packet.rs:6-14 -/
def Entry.le (a b : Entry) : Prop :=
  a.event.deadline < b.event.deadline ∨
    (a.event.deadline = b.event.deadline ∧ a.event.order ≤ b.event.order)

instance (a b : Entry) : Decidable (a.le b) := inferInstanceAs (Decidable (_ ∨ _))

/-- `pending.push` -/
def push (e : Entry) (pending : List Entry) : List Entry := pending.orderedInsert Entry.le e

/-- A loop that admits events: a drain, at the head of the task's loop or when
a deadline has come, or the events of a datagram. -/
inductive Turn where
  | drain (top : Bool) (now budget : Nat)
  | packet (now : Nat) (rest : List ScheduledMidi)
  deriving DecidableEq, Repr

inductive Pc where
  | observe
  | drainStart (top : Bool)
  | turn (t : Turn)
  /-- before the generation is read for the entry popped -/
  | popped (top : Bool) (now budget : Nat) (e : Entry)
  /-- before `try_enqueue_midi_frame` -/
  | offer (t : Turn) (e : Entry)
  /-- before the generation is read again -/
  | check (t : Turn) (e : Entry)
  | select
  | received (bytes : List UInt8) (wall : Int)
  | stamped (bytes : List UInt8) (wall : Int) (now : Nat)
  | decoding (bytes : List UInt8) (wall : Int) (now : Nat)
  | overflow
  | failing
  | stopping
  | done
  deriving DecidableEq, Repr

structure Admitted where
  entry : Entry
  time : Nat
  seen : Nat
  deriving DecidableEq, Repr

structure St where
  pc : Pc
  pending : List Entry
  order : Nat
  /-- the generation the task works for -/
  generation : Nat
  errors : Nat
  /-- `MIDI_RESET_GENERATION` -/
  current : Nat
  clock : Nat
  arrived : Nat
  seen : Nat
  admitted : List Admitted
  deriving DecidableEq, Repr

def init : St := ⟨.observe, [], 0, 0, 0, 0, 0, 0, 0, []⟩

inductive Choice where
  | next
  | stop
  | due
  | datagram (bytes : List UInt8) (wall : Int)
  | socketError
  /-- what the input profiles make of the event; `none`: they refuse it -/
  | prepared (data : Option (List UInt8))
  | enqueue (resets : Bool)
  deriving DecidableEq, Repr

/-- mirrors src-tauri/src/bridge/pipeline.rs:147-155; an event has three bytes at most -/
def classifyInputFrame (prepared : Option (List UInt8)) : Bool :=
  prepared.any isCriticalReleaseMessage

/-- mirrors src-tauri/src/osc_input/mod.rs:166 -/
def limit (critical : Bool) : Nat :=
  if critical then pendingCapacity else pendingCapacity - reserve pendingCapacity

/-- Where the task is when a loop ends. -/
def Turn.leave : Turn → Pc
  | .drain true _ _ => .select
  | .drain false _ _ | .packet _ _ => .observe

/-- The task takes note of a newer generation.
mirrors src-tauri/src/osc_input/mod.rs:96-100,156-157 -/
def observeGeneration (s : St) (pc : Pc) : St :=
  if s.generation ≠ s.current then
    { s with pending := [], generation := s.current, seen := s.current, pc }
  else { s with seen := s.current, pc }

/-- The next event of a datagram.
mirrors src-tauri/src/osc_input/mod.rs:163-184 -/
def packetStep (s : St) (now : Nat) (event : ScheduledMidi) (rest : List ScheduledMidi)
    (critical : Bool) : St :=
  if limit critical ≤ s.pending.length then
    { s with
      arrived := s.arrived + 1
      pc := if critical then .overflow else .turn (.packet now rest) }
  else if s.pending = [] ∧ event.deadline ≤ now then
    { s with arrived := s.arrived + 1, pc := .offer (.packet now rest) ⟨event, s.arrived⟩ }
  else
    { s with
      arrived := s.arrived + 1
      pending := push ⟨{ event with order := s.order }, s.arrived⟩ s.pending
      order := s.order + 1
      pc := .turn (.packet now rest) }

/-- mirrors src-tauri/src/osc_input/mod.rs:93-190 -/
def taskStep (s : St) (c : Choice) : Option St :=
  match s.pc, c with
  | .observe, .next => some (observeGeneration s (.drainStart true))
  | .drainStart top, .next => some { s with pc := .turn (.drain top s.clock 256) }
  | .turn (.drain top now budget), .next =>
    match budget, s.pending with
    | budget + 1, e :: pending =>
      if e.event.deadline ≤ now then some { s with pending, pc := .popped top now budget e }
      else some { s with pc := (Turn.drain top now (budget + 1)).leave }
    | budget, _ => some { s with pc := (Turn.drain top now budget).leave }
  | .popped top now budget e, .next =>
    some { s with
      seen := s.current
      pc := if e.event.generation ≠ s.current then .turn (.drain top now budget)
        else .offer (.drain top now budget) e }
  | .offer t e, .enqueue resets =>
    some { s with
      admitted := s.admitted ++ [⟨e, s.clock, s.seen⟩]
      current := if resets then s.current + 1 else s.current
      pc := .check t e }
  | .check t e, .next =>
    if e.event.generation ≠ s.current then
      some { s with pending := [], seen := s.current, pc := t.leave }
    else some { s with seen := s.current, pc := .turn t }
  | .select, .stop => some { s with pc := .stopping }
  | .select, .due =>
    if s.pending.head?.any (fun e => e.event.deadline ≤ s.clock) then
      some { s with pc := .drainStart false }
    else none
  | .select, .datagram bytes wall => some { s with errors := 0, pc := .received bytes wall }
  | .select, .socketError =>
    some { s with
      errors := s.errors + 1, pc := if 20 ≤ s.errors + 1 then .failing else .observe }
  | .received bytes wall, .next => some { s with pc := .stamped bytes wall s.clock }
  | .stamped bytes wall now, .next => some (observeGeneration s (.decoding bytes wall now))
  | .decoding bytes wall now, .next =>
    match decode bytes wall now s.generation with
    | (.ok (), events) => some { s with pc := .turn (.packet now events) }
    | (.error _, _) => some { s with pc := .observe }
  | .turn (.packet _ []), .next => some { s with pc := .observe }
  | .turn (.packet now (event :: rest)), .prepared data =>
    some (packetStep s now event rest (classifyInputFrame data))
  | .overflow, .next =>
    some { s with current := s.current + 1, pending := [], pc := .observe }
  | .failing, .next => some { s with current := s.current + 1, pc := .stopping }
  | .stopping, .next => some { s with current := s.current + 1, pc := .done }
  | _, _ => none

inductive Lbl where
  | task (c : Choice)
  | reset
  | elapse (ns : Nat)
  deriving DecidableEq, Repr

def step (s : St) : Lbl → Option St
  | .task c => taskStep s c
  | .reset => some { s with current := s.current + 1 }
  | .elapse ns => some { s with clock := s.clock + ns }

def system : LTS St Lbl := LTS.ofStep (· = init) step

/-! ## The heap -/

/-- Due earlier, or at the same time and arrived earlier. -/
def Before (a b : Entry) : Prop :=
  a.event.deadline < b.event.deadline ∨
    (a.event.deadline = b.event.deadline ∧ a.arrival < b.arrival)

/-- `Before`, for the order counter too. -/
def Prior (a b : Entry) : Prop :=
  a.event.deadline < b.event.deadline ∨
    (a.event.deadline = b.event.deadline ∧ a.event.order < b.event.order ∧ a.arrival < b.arrival)

theorem Prior.before {a b : Entry} (h : Prior a b) : Before a b :=
  h.imp_right fun h => ⟨h.1, h.2.2⟩

theorem mem_push {e u : Entry} {l : List Entry} : u ∈ push e l ↔ u = e ∨ u ∈ l :=
  List.mem_orderedInsert _

theorem length_push (e : Entry) (l : List Entry) : (push e l).length = l.length + 1 :=
  List.orderedInsert_length _ _ _

/-- The newest entry goes behind all that are not due later. -/
theorem prior_push {e : Entry} {l : List Entry} (hl : l.Pairwise Prior)
    (hnew : ∀ u ∈ l, u.event.order < e.event.order ∧ u.arrival < e.arrival) :
    (push e l).Pairwise Prior := by
  induction l with
  | nil => exact List.pairwise_singleton _ _
  | cons u us ih =>
    obtain ⟨hu, hus⟩ := List.pairwise_cons.mp hl
    obtain ⟨ho, ha⟩ := hnew u List.mem_cons_self
    unfold push
    rw [List.orderedInsert]
    split
    · rename_i hle
      have hlt : e.event.deadline < u.event.deadline := by
        rcases hle with h | ⟨-, h⟩
        · exact h
        · omega
      refine List.pairwise_cons.mpr ⟨fun v hv => .inl ?_, hl⟩
      rcases List.mem_cons.mp hv with rfl | hv
      · exact hlt
      · rcases hu v hv with h | ⟨h, -⟩
        · omega
        · omega
    · rename_i hle
      refine List.pairwise_cons.mpr ⟨fun v hv => ?_, ih hus fun v hv =>
        hnew v (List.mem_cons_of_mem u hv)⟩
      rcases mem_push.mp hv with rfl | hv
      · unfold Entry.le at hle
        unfold Prior
        omega
      · exact hu v hv

/-- The decoder's events are not due before the datagram came. -/
theorem decode_event {bytes : List UInt8} {wall : Int} {now generation : Nat}
    {out : List ScheduledMidi} (h : decode bytes wall now generation = (.ok (), out)) :
    ∀ e ∈ out, now ≤ e.deadline ∧ e.generation = generation := by
  have hp := packet_eq_ok wall now generation 17 [] bytes [] out (Nat.zero_le _)
  obtain ⟨tree, leaves, -, -, -, -, -, rfl⟩ := hp.mp ((decode_ok ..).mp h)
  intro e he
  rw [List.nil_append] at he
  obtain ⟨i, hi, rfl⟩ := List.mem_mapIdx.mp he
  exact ⟨now_le_due .., rfl⟩

/-! ## What holds at every step -/

def inHand : Pc → List Entry
  | .popped _ _ _ e | .offer _ e => [e]
  | _ => []

def St.waiting (s : St) : List Entry := inHand s.pc ++ s.pending

/-- A datagram came at `now`, after everything admitted was due. -/
def Fresh (s : St) (now : Nat) : Prop :=
  now ≤ s.clock ∧ ∀ a ∈ s.admitted, a.entry.event.deadline ≤ now

/-- What is left of a datagram. -/
def Later (s : St) (now : Nat) (rest : List ScheduledMidi) : Prop :=
  s.seen = s.generation ∧ ∀ e ∈ rest, now ≤ e.deadline ∧ e.generation = s.generation

def Place (s : St) : Prop :=
  match s.pc with
  | .turn (.drain _ now _) | .check (.drain _ now _) _ => now ≤ s.clock
  | .popped _ now _ e => now ≤ s.clock ∧ e.event.deadline ≤ now
  | .offer (.drain _ now _) e =>
    now ≤ s.clock ∧ e.event.deadline ≤ now ∧ e.event.generation = s.seen
  | .stamped _ _ now => Fresh s now
  | .decoding _ _ now => Fresh s now ∧ s.seen = s.generation
  | .turn (.packet now rest) => Fresh s now ∧ Later s now rest
  | .offer (.packet now rest) e => Fresh s now ∧ Later s now (e.event :: rest) ∧
    e.event.deadline ≤ now ∧ s.pending = []
  | .check (.packet now rest) e => Fresh s now ∧ Later s now (e.event :: rest)
  | _ => True

structure Inv (s : St) : Prop where
  sorted : s.waiting.Pairwise Prior
  newest : ∀ e ∈ s.waiting, e.arrival < s.arrived
  orders : ∀ e ∈ s.pending, e.event.order < s.order
  log : (s.admitted.map Admitted.entry).Pairwise Before
  ahead : ∀ a ∈ s.admitted, ∀ e ∈ s.waiting, Before a.entry e
  arrivals : ∀ a ∈ s.admitted, a.entry.arrival < s.arrived
  past : ∀ a ∈ s.admitted, a.entry.event.deadline ≤ a.time ∧ a.time ≤ s.clock
  seen_le : s.seen ≤ s.current
  stamped : ∀ a ∈ s.admitted, a.entry.event.generation = a.seen
  length_le : s.pending.length ≤ pendingCapacity
  place : Place s

variable {s s' : St}

theorem inv_init : Inv init where
  sorted := List.Pairwise.nil
  newest e h := by cases h
  orders e h := by cases h
  log := List.Pairwise.nil
  ahead a h := by cases h
  arrivals a h := by cases h
  past a h := by cases h
  seen_le := Nat.le_refl 0
  stamped a h := by cases h
  length_le := Nat.zero_le _
  place := trivial

/-- Part of what waits is dropped, and the task goes on. -/
theorem Inv.go {pc : Pc} {pending : List Entry} {generation errors current clock seen : Nat}
    (I : Inv s) (hsub : (inHand pc ++ pending).Sublist s.waiting)
    (hpending : pending.Sublist s.pending)
    (hseen : seen ≤ current) (hclock : s.clock ≤ clock)
    (hplace : Place { s with pc, pending, generation, errors, current, clock, seen }) :
    Inv { s with pc, pending, generation, errors, current, clock, seen } where
  sorted := I.sorted.sublist hsub
  newest e he := I.newest e (hsub.subset he)
  orders e he := I.orders e (hpending.subset he)
  log := I.log
  ahead a ha e he := I.ahead a ha e (hsub.subset he)
  arrivals := I.arrivals
  past a ha := ⟨(I.past a ha).1, Nat.le_trans (I.past a ha).2 hclock⟩
  seen_le := hseen
  stamped := I.stamped
  length_le := Nat.le_trans hpending.length_le I.length_le
  place := hplace

theorem Inv.keep {pc : Pc} {seen : Nat} (I : Inv s) (hpc : inHand pc = []) (hseen : seen ≤ s.current)
    (hplace : Place { s with pc, seen }) : Inv { s with pc, seen } := by
  refine I.go ?_ (List.Sublist.refl _) hseen (Nat.le_refl _) hplace
  rw [hpc]
  exact List.sublist_append_right _ _

theorem Fresh.of_clock (I : Inv s) : Fresh s s.clock :=
  ⟨Nat.le_refl _, fun a ha => Nat.le_trans (I.past a ha).1 (I.past a ha).2⟩

theorem inv_observe {pc : Pc} (I : Inv s) (hpc : inHand pc = [])
    (hplace : ∀ pending generation, generation = s.current →
      Place { s with pending, generation, seen := s.current, pc }) :
    Inv (observeGeneration s pc) := by
  unfold observeGeneration
  split
  · exact I.go (by rw [hpc]; exact List.nil_sublist _) (List.nil_sublist _) (Nat.le_refl _)
      (Nat.le_refl _) (hplace [] _ rfl)
  · rename_i heq
    exact I.keep hpc (Nat.le_refl _) (hplace s.pending s.generation (Decidable.not_not.mp heq))

/-- The head of the heap is taken in hand. -/
theorem inv_pop {e : Entry} {pending : List Entry} {top : Bool} {now budget : Nat} (I : Inv s)
    (hpending : s.pending = e :: pending) (hnow : now ≤ s.clock) (hdue : e.event.deadline ≤ now) :
    Inv { s with pending, pc := .popped top now budget e } := by
  have hwait : (e :: pending).Sublist s.waiting := by
    rw [← hpending]
    exact List.sublist_append_right _ _
  refine I.go hwait ?_ I.seen_le (Nat.le_refl _) ⟨hnow, hdue⟩
  rw [hpending]
  exact List.sublist_cons_self _ _

/-- The entry in hand goes to the pipeline. -/
theorem inv_admit {t : Turn} {e : Entry} {current : Nat} (I : Inv s) (hpc : s.pc = .offer t e)
    (hdue : e.event.deadline ≤ s.clock) (hgen : e.event.generation = s.seen)
    (hcurrent : s.current ≤ current)
    (hplace : Place { s with
      admitted := s.admitted ++ [⟨e, s.clock, s.seen⟩], current, pc := .check t e }) :
    Inv { s with
      admitted := s.admitted ++ [⟨e, s.clock, s.seen⟩], current, pc := .check t e } := by
  have hwait : s.waiting = e :: s.pending := by simp [St.waiting, hpc, inHand]
  have hsorted := I.sorted
  have hnewest := I.newest
  have hahead := I.ahead
  rw [hwait] at hsorted hnewest hahead
  obtain ⟨hhead, htail⟩ := List.pairwise_cons.mp hsorted
  have hmem : ∀ {P : Admitted → Prop}, (∀ a ∈ s.admitted, P a) → P ⟨e, s.clock, s.seen⟩ →
      ∀ a ∈ s.admitted ++ [⟨e, s.clock, s.seen⟩], P a := by
    intro P hold hnew a ha
    rcases List.mem_append.mp ha with ha | ha
    · exact hold a ha
    · rw [List.mem_singleton.mp ha]
      exact hnew
  refine ⟨htail, fun u hu => hnewest u (List.mem_cons_of_mem _ hu), I.orders, ?_, ?_, ?_, ?_,
    Nat.le_trans I.seen_le hcurrent, ?_, I.length_le, hplace⟩
  · rw [List.map_append, List.pairwise_append]
    refine ⟨I.log, List.pairwise_singleton _ _, ?_⟩
    intro u hu v hv
    obtain ⟨a, ha, rfl⟩ := List.mem_map.mp hu
    rw [List.mem_singleton.mp hv]
    exact hahead a ha e List.mem_cons_self
  · exact hmem (fun a ha u hu => hahead a ha u (List.mem_cons_of_mem _ hu))
      fun u hu => (hhead u hu).before
  · exact hmem I.arrivals (hnewest e List.mem_cons_self)
  · exact hmem I.past ⟨hdue, Nat.le_refl _⟩
  · exact hmem I.stamped hgen

/-- An event of a datagram is due no earlier than all that was admitted. -/
theorem before_new {now : Nat} {e : Entry} (I : Inv s) (hfresh : Fresh s now)
    (hnow : now ≤ e.event.deadline) (harrival : e.arrival = s.arrived) :
    ∀ a ∈ s.admitted, Before a.entry e := by
  intro a ha
  have hdue := hfresh.2 a ha
  have harr := I.arrivals a ha
  unfold Before
  omega

theorem inv_packetStep {now : Nat} {event : ScheduledMidi} {rest : List ScheduledMidi}
    {critical : Bool} (I : Inv s) (hpc : s.pc = .turn (.packet now (event :: rest)))
    (hfresh : Fresh s now) (hlater : Later s now (event :: rest)) :
    Inv (packetStep s now event rest critical) := by
  have hwait : s.waiting = s.pending := by simp [St.waiting, hpc, inHand]
  have hrest : Later s now rest := ⟨hlater.1, fun e he => hlater.2 e (List.mem_cons_of_mem _ he)⟩
  have hnow := (hlater.2 event List.mem_cons_self).1
  have hsorted := I.sorted
  have hnewest := I.newest
  have hahead := I.ahead
  rw [hwait] at hsorted hnewest hahead
  have harr : ∀ a ∈ s.admitted, a.entry.arrival < s.arrived + 1 :=
    fun a ha => Nat.lt_succ_of_lt (I.arrivals a ha)
  unfold packetStep
  split
  · have hskip : ∀ pc, inHand pc = [] → Place { s with arrived := s.arrived + 1, pc } →
        Inv { s with arrived := s.arrived + 1, pc } := by
      intro pc hhand hplace
      have hw : ∀ u, u ∈ inHand pc ++ s.pending → u ∈ s.pending := by simp [hhand]
      refine ⟨?_, fun u hu => Nat.lt_succ_of_lt (hnewest u (hw u hu)), I.orders, I.log,
        fun a ha u hu => hahead a ha u (hw u hu), harr, I.past, I.seen_le, I.stamped,
        I.length_le, hplace⟩
      simpa [St.waiting, hhand] using hsorted
    cases critical with
    | true => exact hskip _ rfl trivial
    | false => exact hskip _ rfl ⟨hfresh, hrest⟩
  · rename_i hroom
    split
    · rename_i hdirect
      have hw : ∀ u, u ∈ [(⟨event, s.arrived⟩ : Entry)] ++ s.pending →
          u = ⟨event, s.arrived⟩ := by simp [hdirect.1]
      refine ⟨?_, ?_, I.orders, I.log, ?_, harr, I.past, I.seen_le, I.stamped,
        I.length_le, ⟨hfresh, hlater, hdirect.2, hdirect.1⟩⟩
      · simp [St.waiting, inHand, hdirect.1]
      · intro u hu
        rw [hw u hu]
        exact Nat.lt_succ_self _
      · intro a ha u hu
        rw [hw u hu]
        exact before_new I hfresh hnow rfl a ha
    · have hlimit : limit critical ≤ pendingCapacity := by
        unfold limit
        split
        · exact Nat.le_refl _
        · exact Nat.sub_le _ _
      refine ⟨?_, ?_, ?_, I.log, ?_, harr, I.past, I.seen_le, I.stamped, ?_, ⟨hfresh, hrest⟩⟩
      · exact prior_push hsorted fun u hu => ⟨I.orders u hu, hnewest u hu⟩
      · intro u hu
        rcases mem_push.mp hu with rfl | hu
        · exact Nat.lt_succ_self _
        · exact Nat.lt_succ_of_lt (hnewest u hu)
      · intro u hu
        rcases mem_push.mp hu with rfl | hu
        · exact Nat.lt_succ_self _
        · exact Nat.lt_succ_of_lt (I.orders u hu)
      · intro a ha u hu
        rcases mem_push.mp hu with rfl | hu
        · exact before_new I hfresh hnow rfl a ha
        · exact hahead a ha u hu
      · rw [length_push]
        omega

theorem inHand_leave (t : Turn) : inHand t.leave = [] := by
  rcases t with ⟨_ | _, now, budget⟩ | ⟨now, rest⟩ <;> rfl

theorem place_leave {t : Turn} (hpc : s.pc = t.leave) : Place s := by
  unfold Place
  rw [hpc]
  rcases t with ⟨_ | _, now, budget⟩ | ⟨now, rest⟩ <;> trivial

/-- Nothing but the head of a heap in order stays behind at the end of a drain. -/
theorem inv_drain {top : Bool} {now budget : Nat} (I : Inv s)
    (hpc : s.pc = .turn (.drain top now budget))
    (h : taskStep s .next = some s') : Inv s' := by
  have hnow : now ≤ s.clock := by
    have hplace := I.place
    rwa [Place, hpc] at hplace
  have hleave : ∀ budget, Inv { s with pc := (Turn.drain top now budget).leave } :=
    fun budget => I.keep (inHand_leave _) I.seen_le (place_leave rfl)
  unfold taskStep at h
  rw [hpc] at h
  cases budget with
  | zero =>
    cases h
    exact hleave 0
  | succ budget =>
    cases hpending : s.pending with
    | nil =>
      simp only [hpending] at h
      cases h
      rw [← hpending]
      exact hleave _
    | cons e pending =>
      simp only [hpending] at h
      split at h
      · rename_i hdue
        cases h
        exact inv_pop I hpending hnow hdue
      · cases h
        rw [← hpending]
        exact hleave _

theorem inv_popped {top : Bool} {now budget : Nat} {e : Entry} (I : Inv s)
    (hpc : s.pc = .popped top now budget e)
    (h : taskStep s .next = some s') : Inv s' := by
  obtain ⟨hnow, hdue⟩ : now ≤ s.clock ∧ e.event.deadline ≤ now := by
    have hplace := I.place
    rwa [Place, hpc] at hplace
  unfold taskStep at h
  rw [hpc] at h
  cases h
  split
  · exact I.keep rfl (Nat.le_refl _) hnow
  · rename_i hgen
    refine I.go ?_ (List.Sublist.refl _) (Nat.le_refl _) (Nat.le_refl _)
      ⟨hnow, hdue, Decidable.not_not.mp hgen⟩
    simp [St.waiting, hpc, inHand]

theorem inv_offer {t : Turn} {e : Entry} {resets : Bool} (I : Inv s) (hpc : s.pc = .offer t e)
    (h : taskStep s (.enqueue resets) = some s') : Inv s' := by
  have hplace := I.place
  have hcurrent : s.current ≤ if resets then s.current + 1 else s.current := by
    split <;> omega
  rw [Place, hpc] at hplace
  unfold taskStep at h
  rw [hpc] at h
  cases h
  cases t with
  | drain top now budget =>
    obtain ⟨hnow, hdue, hgen⟩ := hplace
    exact inv_admit I hpc (Nat.le_trans hdue hnow) hgen hcurrent hnow
  | packet now rest =>
    obtain ⟨hfresh, hlater, hdue, -⟩ := hplace
    have hgen : e.event.generation = s.seen :=
      (hlater.2 _ List.mem_cons_self).2.trans hlater.1.symm
    refine inv_admit I hpc (Nat.le_trans hdue hfresh.1) hgen hcurrent ⟨⟨hfresh.1, ?_⟩, hlater⟩
    intro a ha
    rcases List.mem_append.mp ha with ha | ha
    · exact hfresh.2 a ha
    · rw [List.mem_singleton.mp ha]
      exact hdue

theorem inv_check {t : Turn} {e : Entry} (I : Inv s) (hpc : s.pc = .check t e)
    (h : taskStep s .next = some s') : Inv s' := by
  have hplace := I.place
  rw [Place, hpc] at hplace
  unfold taskStep at h
  rw [hpc] at h
  simp only at h
  split at h
  · cases h
    exact I.go (by rw [inHand_leave]; exact List.nil_sublist _) (List.nil_sublist _)
      (Nat.le_refl _) (Nat.le_refl _) (place_leave rfl)
  · rename_i hgen
    have hgen := Decidable.not_not.mp hgen
    cases h
    refine I.keep rfl (Nat.le_refl _) ?_
    cases t with
    | drain top now budget => exact hplace
    | packet now rest =>
      obtain ⟨hfresh, hlater⟩ := hplace
      exact ⟨hfresh, hgen.symm.trans (hlater.2 _ List.mem_cons_self).2,
        fun u hu => hlater.2 u (List.mem_cons_of_mem _ hu)⟩

theorem inv_decoding {bytes : List UInt8} {wall : Int} {now : Nat} (I : Inv s)
    (hpc : s.pc = .decoding bytes wall now)
    (h : taskStep s .next = some s') : Inv s' := by
  obtain ⟨hfresh, hseen⟩ : Fresh s now ∧ s.seen = s.generation := by
    have hplace := I.place
    rwa [Place, hpc] at hplace
  unfold taskStep at h
  rw [hpc] at h
  simp only at h
  split at h
  · rename_i events hdecode
    cases h
    exact I.keep rfl I.seen_le ⟨hfresh, hseen, decode_event hdecode⟩
  · cases h
    exact I.keep rfl I.seen_le trivial

theorem inv_taskStep {c : Choice} (I : Inv s) (h : taskStep s c = some s') : Inv s' := by
  have hplace := I.place
  unfold Place at hplace
  have hall := h
  unfold taskStep at h
  split at h
  · cases h
    exact inv_observe I rfl fun _ _ _ => trivial
  · cases h
    exact I.keep rfl I.seen_le (Nat.le_refl _)
  · exact inv_drain I ‹_› hall
  · exact inv_popped I ‹_› hall
  · exact inv_offer I ‹_› hall
  · exact inv_check I ‹_› hall
  · cases h
    exact I.keep rfl I.seen_le trivial
  · split at h
    · cases h
      exact I.keep rfl I.seen_le trivial
    · cases h
  · cases h
    exact I.go (List.sublist_append_right _ _) (List.Sublist.refl _) I.seen_le (Nat.le_refl _)
      trivial
  · cases h
    refine I.go ?_ (List.Sublist.refl _) I.seen_le (Nat.le_refl _) ?_
    · split
      · exact List.sublist_append_right _ _
      · exact List.sublist_append_right _ _
    · split
      · trivial
      · trivial
  · cases h
    exact I.keep rfl I.seen_le (Fresh.of_clock I)
  · rename_i hpc
    rw [hpc] at hplace
    cases h
    exact inv_observe I rfl fun _ _ hg => ⟨hplace, hg.symm⟩
  · exact inv_decoding I ‹_› hall
  · cases h
    exact I.keep rfl I.seen_le trivial
  · rename_i hpc
    rw [hpc] at hplace
    cases h
    exact inv_packetStep I hpc hplace.1 hplace.2
  · cases h
    exact I.go (List.nil_sublist _) (List.nil_sublist _) (Nat.le_succ_of_le I.seen_le)
      (Nat.le_refl _) trivial
  · cases h
    exact I.go (List.sublist_append_right _ _) (List.Sublist.refl _) (Nat.le_succ_of_le I.seen_le)
      (Nat.le_refl _) trivial
  · cases h
    exact I.go (List.sublist_append_right _ _) (List.Sublist.refl _) (Nat.le_succ_of_le I.seen_le)
      (Nat.le_refl _) trivial
  · cases h

/-- A place does not look at the generation, and at the clock only from below. -/
theorem Place.mono {current clock : Nat} (h : Place s) (hclock : s.clock ≤ clock) :
    Place { s with current, clock } := by
  unfold Place at *
  split <;> simp_all [Fresh, Later] <;> omega

theorem inv_inductive : system.Inductive Inv where
  init s h := by
    rw [show s = init from h]
    exact inv_init
  step s l s' I h := by
    cases l with
    | task c => exact inv_taskStep I h
    | reset =>
      cases h
      exact I.go (List.Sublist.refl _) (List.Sublist.refl _) (Nat.le_succ_of_le I.seen_le)
        (Nat.le_refl _) (I.place.mono (Nat.le_refl _))
    | elapse ns =>
      cases h
      exact I.go (List.Sublist.refl _) (List.Sublist.refl _) I.seen_le (Nat.le_add_right _ _)
        (I.place.mono (Nat.le_add_right _ _))

/-! ## What one step does -/

/-- A step reads the generation or leaves `seen`; it admits at the time it is
taken; the heap grows past the part kept free for critical releases only. -/
structure Effect (s : St) (l : Lbl) (s' : St) : Prop where
  seen : s'.seen = s.seen ∨ s'.seen = s.current
  admitted : ∀ a ∈ s'.admitted, a ∈ s.admitted ∨ (a.time = s.clock ∧ a.seen = s.seen)
  reserved : s.pending.length < s'.pending.length →
    s'.pending.length ≤ pendingCapacity - reserve pendingCapacity ∨
      ∃ data, l = .task (.prepared (some data)) ∧ isCriticalReleaseMessage data = true

theorem Effect.keep {l : Lbl} (hseen : s'.seen = s.seen ∨ s'.seen = s.current)
    (hadmitted : s'.admitted = s.admitted) (hpending : s'.pending.length ≤ s.pending.length) :
    Effect s l s' where
  seen := hseen
  admitted _ ha := .inl (hadmitted ▸ ha)
  reserved h := absurd hpending (Nat.not_le.mpr h)

theorem effect_observe {l : Lbl} {pc : Pc} : Effect s l (observeGeneration s pc) := by
  unfold observeGeneration
  split
  · exact .keep (.inr rfl) rfl (Nat.zero_le _)
  · exact .keep (.inr rfl) rfl (Nat.le_refl _)

theorem effect_packetStep {now : Nat} {event : ScheduledMidi} {rest : List ScheduledMidi}
    {data : Option (List UInt8)} :
    Effect s (.task (.prepared data)) (packetStep s now event rest (classifyInputFrame data)) := by
  unfold packetStep
  split
  · exact .keep (.inl rfl) rfl (Nat.le_refl _)
  · rename_i hroom
    split
    · exact .keep (.inl rfl) rfl (Nat.le_refl _)
    · refine ⟨.inl rfl, fun a ha => .inl ha, fun _ => ?_⟩
      rw [length_push]
      cases hc : classifyInputFrame data with
      | false =>
        simp only [limit, hc, Bool.false_eq_true, if_false] at hroom
        exact .inl (Nat.not_le.mp hroom)
      | true =>
        cases data with
        | none => cases hc
        | some data => exact .inr ⟨data, rfl, hc⟩

theorem effect_taskStep {c : Choice} (h : taskStep s c = some s') : Effect s (.task c) s' := by
  unfold taskStep at h
  split at h
  · cases h
    exact effect_observe
  · cases h
    exact .keep (.inl rfl) rfl (Nat.le_refl _)
  · split at h
    · rename_i hpending _
      split at h
      · cases h
        refine .keep (.inl rfl) rfl ?_
        rw [hpending]
        exact Nat.le_succ _
      · cases h
        exact .keep (.inl rfl) rfl (Nat.le_refl _)
    · cases h
      exact .keep (.inl rfl) rfl (Nat.le_refl _)
  · cases h
    exact .keep (.inr rfl) rfl (Nat.le_refl _)
  · cases h
    refine ⟨.inl rfl, fun a ha => ?_, fun h => absurd h (Nat.lt_irrefl _)⟩
    rcases List.mem_append.mp ha with ha | ha
    · exact .inl ha
    · rw [List.mem_singleton.mp ha]
      exact .inr ⟨rfl, rfl⟩
  · split at h
    · cases h
      exact .keep (.inr rfl) rfl (Nat.zero_le _)
    · cases h
      exact .keep (.inr rfl) rfl (Nat.le_refl _)
  · cases h
    exact .keep (.inl rfl) rfl (Nat.le_refl _)
  · split at h
    · cases h
      exact .keep (.inl rfl) rfl (Nat.le_refl _)
    · cases h
  · cases h
    exact .keep (.inl rfl) rfl (Nat.le_refl _)
  · cases h
    exact .keep (.inl rfl) rfl (Nat.le_refl _)
  · cases h
    exact .keep (.inl rfl) rfl (Nat.le_refl _)
  · cases h
    exact effect_observe
  · split at h
    · cases h
      exact .keep (.inl rfl) rfl (Nat.le_refl _)
    · cases h
      exact .keep (.inl rfl) rfl (Nat.le_refl _)
  · cases h
    exact .keep (.inl rfl) rfl (Nat.le_refl _)
  · cases h
    exact effect_packetStep
  · cases h
    exact .keep (.inl rfl) rfl (Nat.zero_le _)
  · cases h
    exact .keep (.inl rfl) rfl (Nat.le_refl _)
  · cases h
    exact .keep (.inl rfl) rfl (Nat.le_refl _)
  · cases h

theorem effect_step {l : Lbl} (h : step s l = some s') : Effect s l s' := by
  cases l with
  | task c => exact effect_taskStep h
  | reset =>
    cases h
    exact .keep (.inl rfl) rfl (Nat.le_refl _)
  | elapse ns =>
    cases h
    exact .keep (.inl rfl) rfl (Nat.le_refl _)

/-! ## The order of admission -/

/-- Events go to the pipeline by deadline and arrival, and before all that
still wait; none before its deadline; and only those stamped with the
generation the task read last. -/
theorem osc_input {s : St} (hs : system.Reachable s) :
    (s.admitted.map Admitted.entry).Pairwise Before ∧
      (∀ a ∈ s.admitted, ∀ e ∈ s.pending, Before a.entry e) ∧
      (∀ a ∈ s.admitted, a.entry.event.deadline ≤ a.time ∧ a.time ≤ s.clock) ∧
      (∀ a ∈ s.admitted, a.entry.event.generation = a.seen) ∧ s.seen ≤ s.current ∧
      s.pending.length ≤ pendingCapacity ∧
      ∀ l s', step s l = some s' → Effect s l s' := by
  have I := inv_inductive.reachable s hs
  exact ⟨I.log, fun a ha e he => I.ahead a ha e (List.mem_append_right _ he), I.past, I.stamped,
    I.seen_le, I.length_le, fun _ _ h => effect_step h⟩

/-- A note-on for `/midi`, as one datagram. -/
def noteOnDatagram : List UInt8 :=
  [47, 109, 105, 100, 105, 0, 0, 0, 44, 109, 0, 0, 0, 0x90, 60, 100]

/-- The task up to the offer of that event. -/
def offered : List Lbl :=
  [.task .next, .task .next, .task .next, .task (.datagram noteOnDatagram 0), .task .next,
    .task .next, .task .next, .task (.prepared (some [0x90, 60, 100]))]

/-- A pass up to the datagram, which has one event that has to wait. -/
def waits (bytes : List UInt8) : List Lbl :=
  [.task .next, .task .next, .task .next, .task (.datagram bytes 0), .task .next, .task .next,
    .task .next, .task (.prepared (some [0x90, 60, 100])), .task .next]

/-- A drain from its first entry, up to the end of the pipeline's call. -/
def drained : List Lbl := [.task .next, .task .next, .task .next, .task (.enqueue false)]

/-- A note for nine seconds later, then one for now: the second goes first, the
first when it is due. -/
theorem osc_input_twoDatagrams :
    ∃ s : St, system.Reachable s ∧ s.admitted.map (·.entry.arrival) = [1, 0] ∧
      (s.admitted.map Admitted.entry).Pairwise Before ∧
      ∀ a ∈ s.admitted, a.entry.event.deadline ≤ a.time ∧ a.time ≤ s.clock := by
  have hrun : ∃ s, system.Reachable s ∧
      decide (s.admitted.map (·.entry.arrival) = [1, 0]) = true :=
    LTS.reachable_of_any
      (waits (noteBundle 9487534691884990464) ++ waits noteOnDatagram ++ [.task .next] ++ drained ++
        [.task .next, .task .next, .elapse 9000000000, .task .due] ++ drained)
      rfl (by decide +kernel)
  obtain ⟨s, hs, h⟩ := hrun
  obtain ⟨hlog, -, hpast, -⟩ := osc_input hs
  exact ⟨s, hs, of_decide_eq_true h, hlog, hpast⟩

/-- A reset between the last read and the offer: the event goes to the
pipeline with the generation before. -/
theorem superseded_admitted :
    ∃ s s' : St, system.Reachable s ∧ step s (.task (.enqueue false)) = some s' ∧
      ∃ a ∈ s'.admitted, a ∉ s.admitted ∧ a.entry.event.generation < s.current := by
  have hrun : ∃ s, system.Reachable s ∧
      (decide (s.admitted = []) && (step s (.task (.enqueue false))).any fun s' =>
        s'.admitted.any fun a => decide (a.entry.event.generation < s.current)) = true :=
    LTS.reachable_of_any (offered ++ [.reset]) rfl (by decide +kernel)
  obtain ⟨s, hs, h⟩ := hrun
  obtain ⟨hnone, h⟩ := (Bool.and_eq_true _ _).mp h
  obtain ⟨s', hst, h⟩ := (Option.any_eq_true _ _).mp h
  obtain ⟨a, ha, hgen⟩ := List.any_eq_true.mp h
  have hnone : s.admitted = [] := of_decide_eq_true hnone
  exact ⟨s, s', hs, hst, a, ha, by simp [hnone], of_decide_eq_true hgen⟩

end RtpOscMidi.L5.OscInput
