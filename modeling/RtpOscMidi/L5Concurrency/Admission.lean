import RtpOscMidi.Core.LTS
import RtpOscMidi.Core.Lists
import RtpOscMidi.L2Machine.MidiQueue

/-!
# Admission to the bounded MIDI queue

`midi_queue::bounded` and `async_channel` put a count of permits in front of
a bounded FIFO channel: a noncritical message takes one of
`capacity - reserve(capacity)` permits before it is sent, the permit travels
inside the queued entry and returns when the entry is received, dropped or
could not be sent. Critical messages (releases) need none, so the reserved
slots are theirs.

Any number of operations are in flight, one per entry of `St.ops`; a step is
one atomic access of one of them (the load and the compare-exchange of
`fetch_update` are two steps and the exchange may fail spuriously). The
channel itself is a linearizable bounded FIFO: `try_send` and `recv` are one
step each. The async queue is the same system with `tokio`'s semaphore in
the place of `Admission::used` (`used` is the limit less the available
permits; its `try_acquire` is the same loop) and no retryable send
(`Cfg.isAsync`). Its test-only `send` is not modelled, and neither are the
depth and latency figures of `Recovery`, which nothing decides on.

`accepted`, `received`, `failures` and `abandoned` record what callers and
readers saw; the code does not have them.
-/
namespace RtpOscMidi.L5.Admission

open Core L2.MidiQueue

variable {α : Type}

structure Cfg (α : Type) where
  capacity : Nat
  critical : α → Bool
  isAsync : Bool

/-- `Admission::limit`.
mirrors src-tauri/src/midi_queue.rs:204,360-362 -/
def Cfg.limit (c : Cfg α) : Nat := c.capacity - reserve c.capacity

inductive SendError where
  | full
  | disconnected
  deriving DecidableEq, Repr

/-- A queued message and whether it carries a permit. -/
structure Entry (α : Type) where
  value : α
  permit : Bool
  deriving DecidableEq, Repr

/-- Where an operation on the queue stands. `abandoned` is the argument of
`try_send_inner`.
mirrors src-tauri/src/midi_queue.rs:231-282,367-404 -/
inductive Op (α : Type) where
  /-- before the first load of `used` -/
  | load (v : α) (abandoned : Bool)
  /-- `used` was read as `seen` -/
  | exchange (v : α) (abandoned : Bool) (seen : Nat)
  | trySend (v : α) (abandoned permit : Bool)
  /-- failed, before `recovery.rejected` -/
  | rejected (v : α) (abandoned permit : Bool) (e : SendError)
  /-- an abandoned message, before `recovery.dropped` -/
  | dropped (v : α) (permit : Bool) (e : SendError)
  /-- the error gives the message back and lets go of the permit -/
  | unwind (v : α) (abandoned permit : Bool) (e : SendError)
  | failed (v : α) (abandoned : Bool) (e : SendError)
  /-- an entry taken out of the queue, its permit not yet returned -/
  | taken (permit : Bool)
  | done
  deriving DecidableEq, Repr

/-- One counter for each priority of `Recovery`.
mirrors src-tauri/src/midi_queue.rs:119-134 -/
structure Counters where
  noncritical : Nat
  critical : Nat
  deriving DecidableEq, Repr

def Counters.bump (k : Counters) (critical : Bool) : Counters :=
  if critical then { k with critical := k.critical + 1 }
  else { k with noncritical := k.noncritical + 1 }

def Counters.get (k : Counters) (critical : Bool) : Nat :=
  if critical then k.critical else k.noncritical

theorem Counters.get_bump (k : Counters) (b c : Bool) :
    (k.bump b).get c = k.get c + if b = c then 1 else 0 := by
  cases b <;> cases c <;> simp [bump, get]

structure St (α : Type) where
  used : Nat
  queue : List (Entry α)
  closed : Bool
  ops : List (Op α)
  rejections : Counters
  drops : Counters
  accepted : List α
  received : List α
  failures : List α
  abandoned : List α
  deriving DecidableEq, Repr

def init : St α := ⟨0, [], false, [], ⟨0, 0⟩, ⟨0, 0⟩, [], [], [], []⟩

inductive Lbl (α : Type) where
  /-- a caller enters `try_send` (`abandoned`) or `try_send_retryable` -/
  | start (v : α) (abandoned : Bool)
  | op (i : Nat)
  /-- the weak compare-exchange of operation `i` fails although `used` matches -/
  | spurious (i : Nat)
  /-- the caller of a failed retryable send tries again -/
  | retry (i : Nat) (abandoned : Bool)
  | recordAbandoned (i : Nat)
  | recv
  /-- the receiver is dropped, and the queued entries with it -/
  | close
  deriving DecidableEq, Repr

def setOp (s : St α) (i : Nat) (o : Op α) : St α := { s with ops := s.ops.set i o }

/-- mirrors src-tauri/src/midi_queue.rs:245-249,373-376 -/
def enter (c : Cfg α) (v : α) (abandoned : Bool) : Op α :=
  if c.critical v then .trySend v abandoned false else .load v abandoned

/-- The next atomic access of an operation.
mirrors src-tauri/src/midi_queue.rs:161-166,244-282,371-404 -/
def opStep (c : Cfg α) (s : St α) (i : Nat) : Op α → Option (St α)
  | .load v ab => some (setOp s i (.exchange v ab s.used))
  | .exchange v ab seen =>
    if seen < c.limit then
      if s.used = seen then some (setOp { s with used := seen + 1 } i (.trySend v ab true))
      else some (setOp s i (.exchange v ab s.used))
    else some (setOp s i (.rejected v ab false .full))
  | .trySend v ab p =>
    if s.closed then some (setOp s i (.rejected v ab p .disconnected))
    else if s.queue.length < c.capacity then
      some (setOp { s with queue := s.queue ++ [⟨v, p⟩], accepted := s.accepted ++ [v] } i .done)
    else some (setOp s i (.rejected v ab p .full))
  | .rejected v ab p e =>
    some (setOp { s with rejections := s.rejections.bump (c.critical v) } i
      (if ab then .dropped v p e else .unwind v false p e))
  | .dropped v p e =>
    some (setOp { s with drops := s.drops.bump (c.critical v) } i (.unwind v true p e))
  | .unwind v ab p e =>
    some (setOp { s with used := s.used - p.toNat,
                         failures := s.failures ++ [v],
                         abandoned := if ab then s.abandoned ++ [v] else s.abandoned } i
      (.failed v ab e))
  | .taken p => some (setOp { s with used := s.used - p.toNat } i .done)
  | .failed _ _ _ => none
  | .done => none

/-- mirrors src-tauri/src/midi_queue.rs:231-329,367-446 -/
def step (c : Cfg α) (s : St α) : Lbl α → Option (St α)
  | .start v ab =>
    if c.isAsync = true ∧ ab = false then none
    else some { s with ops := s.ops ++ [enter c v ab] }
  | .op i => s.ops[i]?.bind (opStep c s i)
  | .spurious i =>
    match s.ops[i]? with
    | some (.exchange v ab _) => some (setOp s i (.exchange v ab s.used))
    | _ => none
  | .retry i ab =>
    match s.ops[i]? with
    | some (.failed v false _) => some (setOp s i (enter c v ab))
    | _ => none
  | .recordAbandoned i =>
    match s.ops[i]? with
    | some (.failed v false _) =>
      some (setOp { s with drops := s.drops.bump (c.critical v),
                           abandoned := s.abandoned ++ [v] } i .done)
    | _ => none
  | .recv =>
    match s.queue with
    | [] => none
    | e :: q => some { s with queue := q, received := s.received ++ [e.value],
                              ops := s.ops ++ [.taken e.permit] }
  | .close =>
    some { s with closed := true, queue := [],
                  ops := s.ops ++ s.queue.map fun e => .taken e.permit }

def lts (c : Cfg α) : LTS (St α) (Lbl α) := .ofStep (· = init) (step c)

/-! ## Invariant -/

/-- An operation in flight that holds a permit. -/
def holds : Op α → Bool
  | .trySend _ _ p | .rejected _ _ p _ | .dropped _ p _ | .unwind _ _ p _ | .taken p => p
  | _ => false

/-- A failed attempt of priority `b` that is already counted as rejected but
has not returned. -/
def rejecting (c : Cfg α) (b : Bool) : Op α → Bool
  | .dropped v _ _ | .unwind v _ _ _ => c.critical v == b
  | _ => false

/-- A failed attempt of priority `b` that is already counted as dropped but
has not returned. -/
def dropping (c : Cfg α) (b : Bool) : Op α → Bool
  | .unwind v true _ _ => c.critical v == b
  | _ => false

/-- Only noncritical messages go for a permit, and a message about to be
queued holds one exactly when it is noncritical. -/
def OpOk (c : Cfg α) : Op α → Prop
  | .load v _ | .exchange v _ _ => c.critical v = false
  | .trySend v _ p => p = !c.critical v
  | _ => True

structure Permits (c : Cfg α) (s : St α) : Prop where
  used : s.used = s.queue.countP (·.permit) + s.ops.countP holds
  limit : s.used ≤ c.limit
  entry : ∀ e ∈ s.queue, e.permit = !c.critical e.value
  op : ∀ o ∈ s.ops, OpOk c o

structure Fifo (c : Cfg α) (s : St α) : Prop where
  length : s.queue.length ≤ c.capacity
  pre : s.received <+: s.accepted
  opened : s.closed = false → s.accepted = s.received ++ s.queue.map Entry.value
  closed : s.closed = true → s.queue = []

structure Counted (c : Cfg α) (s : St α) : Prop where
  rejections : ∀ b, s.rejections.get b =
    s.failures.countP (fun v => c.critical v == b) + s.ops.countP (rejecting c b)
  drops : ∀ b, s.drops.get b =
    s.abandoned.countP (fun v => c.critical v == b) + s.ops.countP (dropping c b)

theorem enter_ok (c : Cfg α) (v : α) (ab : Bool) : OpOk c (enter c v ab) := by
  unfold enter
  split
  · rename_i h
    simp [OpOk, h]
  · rename_i h
    simpa [OpOk] using h

theorem holds_enter (c : Cfg α) (v : α) (ab : Bool) : holds (enter c v ab) = false := by
  unfold enter; split <;> rfl

theorem rejecting_enter (c : Cfg α) (b : Bool) (v : α) (ab : Bool) :
    rejecting c b (enter c v ab) = false := by
  unfold enter; split <;> rfl

theorem dropping_enter (c : Cfg α) (b : Bool) (v : α) (ab : Bool) :
    dropping c b (enter c v ab) = false := by
  unfold enter; split <;> rfl

theorem countP_holds_taken (q : List (Entry α)) :
    (q.map fun e => (.taken e.permit : Op α)).countP holds = q.countP (·.permit) := by
  rw [List.countP_map]
  rfl

theorem op_of_set {c : Cfg α} {ops : List (Op α)} {i : Nat} {o' : Op α}
    (h : ∀ o ∈ ops, OpOk c o) (h' : OpOk c o') : ∀ o ∈ ops.set i o', OpOk c o := by
  intro o ho
  rcases mem_of_set ho with ho | rfl
  · exact h o ho
  · exact h'

theorem permits_opStep {c : Cfg α} {s s' : St α} {i : Nat} {o : Op α} (P : Permits c s)
    (ho : s.ops[i]? = some o) (hst : opStep c s i o = some s') : Permits c s' := by
  obtain ⟨hu, hl, he, hop⟩ := P
  have hok := hop o (List.mem_of_getElem? ho)
  have hk := fun o' => countP_set_add holds o' ho
  cases o with
  | load v ab =>
    simp only [opStep, Option.some.injEq] at hst; subst hst
    have := hk (.exchange v ab s.used)
    simp only [holds] at this
    exact ⟨by simp only [setOp]; omega, hl, he, op_of_set hop hok⟩
  | exchange v ab seen =>
    simp only [opStep] at hst
    split at hst
    · split at hst
      · rename_i hlt heq
        simp only [Option.some.injEq] at hst; subst hst
        have := hk (.trySend v ab true)
        simp only [holds, Bool.toNat_false, Bool.toNat_true] at this
        refine ⟨by simp only [setOp]; omega, by simp only [setOp]; omega, he, op_of_set hop ?_⟩
        have : c.critical v = false := hok
        simp [OpOk, this]
      · simp only [Option.some.injEq] at hst; subst hst
        have := hk (.exchange v ab s.used)
        simp only [holds] at this
        exact ⟨by simp only [setOp]; omega, hl, he, op_of_set hop hok⟩
    · simp only [Option.some.injEq] at hst; subst hst
      have := hk (.rejected v ab false .full)
      simp only [holds] at this
      exact ⟨by simp only [setOp]; omega, hl, he, op_of_set hop trivial⟩
  | trySend v ab p =>
    simp only [opStep] at hst
    split at hst
    · simp only [Option.some.injEq] at hst; subst hst
      have := hk (.rejected v ab p .disconnected)
      simp only [holds] at this
      exact ⟨by simp only [setOp]; omega, hl, he, op_of_set hop trivial⟩
    · split at hst
      · simp only [Option.some.injEq] at hst; subst hst
        have := hk .done
        simp only [holds, Bool.toNat_false] at this
        refine ⟨by simp only [setOp, countP_concat]; omega, hl, ?_, op_of_set hop trivial⟩
        intro e hm
        simp only [setOp, List.mem_append, List.mem_singleton] at hm
        rcases hm with hm | rfl
        · exact he e hm
        · exact hok
      · simp only [Option.some.injEq] at hst; subst hst
        have := hk (.rejected v ab p .full)
        simp only [holds] at this
        exact ⟨by simp only [setOp]; omega, hl, he, op_of_set hop trivial⟩
  | rejected v ab p e =>
    simp only [opStep, Option.some.injEq] at hst; subst hst
    have := hk (if ab then .dropped v p e else .unwind v false p e)
    have hh : holds (if ab then .dropped v p e else .unwind v false p e : Op α) = p := by
      cases ab <;> rfl
    rw [hh] at this
    simp only [holds] at this
    refine ⟨by simp only [setOp]; omega, hl, he, op_of_set hop ?_⟩
    cases ab <;> trivial
  | dropped v p e =>
    simp only [opStep, Option.some.injEq] at hst; subst hst
    have := hk (.unwind v true p e)
    simp only [holds] at this
    exact ⟨by simp only [setOp]; omega, hl, he, op_of_set hop trivial⟩
  | unwind v ab p e =>
    simp only [opStep, Option.some.injEq] at hst; subst hst
    have := hk (.failed v ab e)
    simp only [holds, Bool.toNat_false] at this
    exact ⟨by simp only [setOp]; omega, by simp only [setOp]; omega, he, op_of_set hop trivial⟩
  | taken p =>
    simp only [opStep, Option.some.injEq] at hst; subst hst
    have := hk .done
    simp only [holds, Bool.toNat_false] at this
    exact ⟨by simp only [setOp]; omega, by simp only [setOp]; omega, he, op_of_set hop trivial⟩
  | failed v ab e => simp [opStep] at hst
  | done => simp [opStep] at hst

theorem op_of_concat {c : Cfg α} {ops : List (Op α)} {o' : Op α} (h : ∀ o ∈ ops, OpOk c o)
    (h' : OpOk c o') : ∀ o ∈ ops ++ [o'], OpOk c o := by
  intro o ho
  simp only [List.mem_append, List.mem_singleton] at ho
  rcases ho with ho | rfl
  · exact h o ho
  · exact h'

theorem permits_step {c : Cfg α} {s s' : St α} {l : Lbl α} (P : Permits c s)
    (hst : step c s l = some s') : Permits c s' := by
  cases l with
  | start v ab =>
    simp only [step] at hst
    split at hst
    · cases hst
    · simp only [Option.some.injEq] at hst; subst hst
      refine ⟨?_, P.limit, P.entry, op_of_concat P.op (enter_ok c v ab)⟩
      have := P.used
      simpa [countP_concat, holds_enter] using this
  | op i =>
    obtain ⟨o, ho, hst⟩ := Option.bind_eq_some_iff.mp hst
    exact permits_opStep P ho hst
  | spurious i =>
    simp only [step] at hst
    split at hst
    · rename_i v ab seen ho
      simp only [Option.some.injEq] at hst; subst hst
      have hk := countP_set_add holds (.exchange v ab s.used) ho
      have hok : OpOk c (.exchange v ab seen) := P.op _ (List.mem_of_getElem? ho)
      have hu := P.used
      simp only [holds] at hk
      exact ⟨by simp only [setOp]; omega, P.limit, P.entry, op_of_set P.op hok⟩
    · cases hst
  | retry i ab =>
    simp only [step] at hst
    split at hst
    · rename_i v e ho
      simp only [Option.some.injEq] at hst; subst hst
      have hk := countP_set_add holds (enter c v ab) ho
      have hu := P.used
      rw [holds_enter] at hk
      simp only [holds] at hk
      exact ⟨by simp only [setOp]; omega, P.limit, P.entry, op_of_set P.op (enter_ok c v ab)⟩
    · cases hst
  | recordAbandoned i =>
    simp only [step] at hst
    split at hst
    · rename_i v e ho
      simp only [Option.some.injEq] at hst; subst hst
      have hk := countP_set_add holds .done ho
      have hu := P.used
      simp only [holds] at hk
      exact ⟨by simp only [setOp]; omega, P.limit, P.entry, op_of_set P.op trivial⟩
    · cases hst
  | recv =>
    simp only [step] at hst
    split at hst
    · cases hst
    · rename_i e q hq
      simp only [Option.some.injEq] at hst; subst hst
      have hu := P.used
      rw [hq, countP_cons_toNat] at hu
      refine ⟨?_, P.limit, fun x hx => P.entry x (by simp [hq, hx]), op_of_concat P.op trivial⟩
      simp only [countP_concat, holds]
      omega
  | close =>
    simp only [step, Option.some.injEq] at hst; subst hst
    have hu := P.used
    refine ⟨?_, P.limit, by simp, ?_⟩
    · simp only [List.countP_append, countP_holds_taken, List.countP_nil]
      omega
    · intro o ho
      simp only [List.mem_append, List.mem_map] at ho
      rcases ho with ho | ⟨e, -, rfl⟩
      · exact P.op o ho
      · trivial

theorem permits_inductive (c : Cfg α) : (lts c).Inductive (Permits c) where
  init s hs := by
    rw [hs]
    exact ⟨by simp [init], by simp [init], by simp [init], by simp [init]⟩
  step _ _ _ P hst := permits_step P hst

/-! ## Channel order -/

/-- Every step of an operation either leaves the channel alone or appends
the message it accepts. -/
theorem opStep_channel {c : Cfg α} {s s' : St α} {i : Nat} {o : Op α}
    (hst : opStep c s i o = some s') :
    s'.closed = s.closed ∧ s'.received = s.received ∧
      ((s'.queue = s.queue ∧ s'.accepted = s.accepted) ∨
        ∃ v p, s.closed = false ∧ s.queue.length < c.capacity ∧
          s'.queue = s.queue ++ [⟨v, p⟩] ∧ s'.accepted = s.accepted ++ [v]) := by
  cases o with
  | load v ab =>
    simp only [opStep, Option.some.injEq] at hst; subst hst
    exact ⟨rfl, rfl, .inl ⟨rfl, rfl⟩⟩
  | exchange v ab seen =>
    simp only [opStep] at hst
    split at hst
    · split at hst <;>
        (simp only [Option.some.injEq] at hst; subst hst; exact ⟨rfl, rfl, .inl ⟨rfl, rfl⟩⟩)
    · simp only [Option.some.injEq] at hst; subst hst
      exact ⟨rfl, rfl, .inl ⟨rfl, rfl⟩⟩
  | trySend v ab p =>
    simp only [opStep] at hst
    split at hst
    · simp only [Option.some.injEq] at hst; subst hst
      exact ⟨rfl, rfl, .inl ⟨rfl, rfl⟩⟩
    · rename_i hcl
      split at hst
      · rename_i hlt
        simp only [Option.some.injEq] at hst; subst hst
        exact ⟨rfl, rfl, .inr ⟨v, p, by simpa using hcl, hlt, rfl, rfl⟩⟩
      · simp only [Option.some.injEq] at hst; subst hst
        exact ⟨rfl, rfl, .inl ⟨rfl, rfl⟩⟩
  | rejected v ab p e =>
    simp only [opStep, Option.some.injEq] at hst; subst hst
    exact ⟨rfl, rfl, .inl ⟨rfl, rfl⟩⟩
  | dropped v p e =>
    simp only [opStep, Option.some.injEq] at hst; subst hst
    exact ⟨rfl, rfl, .inl ⟨rfl, rfl⟩⟩
  | unwind v ab p e =>
    simp only [opStep, Option.some.injEq] at hst; subst hst
    exact ⟨rfl, rfl, .inl ⟨rfl, rfl⟩⟩
  | taken p =>
    simp only [opStep, Option.some.injEq] at hst; subst hst
    exact ⟨rfl, rfl, .inl ⟨rfl, rfl⟩⟩
  | failed v ab e => simp [opStep] at hst
  | done => simp [opStep] at hst

theorem fifo_step {c : Cfg α} {s s' : St α} {l : Lbl α} (F : Fifo c s)
    (hst : step c s l = some s') : Fifo c s' := by
  obtain ⟨hlen, hpre, hop, hcl⟩ := F
  cases l with
  | start v ab =>
    simp only [step] at hst
    split at hst
    · cases hst
    · simp only [Option.some.injEq] at hst; subst hst
      exact ⟨hlen, hpre, hop, hcl⟩
  | op i =>
    obtain ⟨o, -, hst⟩ := Option.bind_eq_some_iff.mp hst
    obtain ⟨ec, er, ⟨eq, ea⟩ | ⟨v, p, hc, hlt, eq, ea⟩⟩ := opStep_channel hst
    · exact ⟨by rw [eq]; exact hlen, by rw [er, ea]; exact hpre,
        by rw [ec, er, ea, eq]; exact hop, by rw [ec, eq]; exact hcl⟩
    · refine ⟨?_, ?_, ?_, ?_⟩
      · rw [eq, List.length_append, List.length_singleton]; omega
      · rw [er, ea]; exact hpre.trans (List.prefix_append _ _)
      · intro _
        rw [er, ea, eq, hop hc]
        simp
      · intro h
        rw [ec, hc] at h
        cases h
  | spurious i =>
    simp only [step] at hst
    split at hst
    · simp only [Option.some.injEq] at hst; subst hst
      exact ⟨hlen, hpre, hop, hcl⟩
    · cases hst
  | retry i ab =>
    simp only [step] at hst
    split at hst
    · simp only [Option.some.injEq] at hst; subst hst
      exact ⟨hlen, hpre, hop, hcl⟩
    · cases hst
  | recordAbandoned i =>
    simp only [step] at hst
    split at hst
    · simp only [Option.some.injEq] at hst; subst hst
      exact ⟨hlen, hpre, hop, hcl⟩
    · cases hst
  | recv =>
    simp only [step] at hst
    split at hst
    · cases hst
    · rename_i e q hq
      simp only [Option.some.injEq] at hst; subst hst
      have ho : s.closed = false := by
        cases h : s.closed with
        | false => rfl
        | true => have := hcl h; rw [hq] at this; cases this
      have hacc := hop ho
      rw [hq] at hacc hlen
      refine ⟨Nat.le_of_succ_le hlen, ?_, ?_, ?_⟩
      · exact ⟨q.map Entry.value, by rw [hacc]; simp⟩
      · intro _; rw [hacc]; simp
      · intro h; rw [ho] at h; cases h
  | close =>
    simp only [step, Option.some.injEq] at hst; subst hst
    exact ⟨Nat.zero_le _, hpre, nofun, fun _ => rfl⟩

theorem fifo_inductive (c : Cfg α) : (lts c).Inductive (Fifo c) where
  init s hs := by
    rw [hs]
    exact ⟨Nat.zero_le _, List.prefix_refl _, fun _ => rfl, nofun⟩
  step _ _ _ F hst := fifo_step F hst

/-! ## Counters -/

theorem counted_opStep {c : Cfg α} {s s' : St α} {i : Nat} {o : Op α} (K : Counted c s)
    (ho : s.ops[i]? = some o) (hst : opStep c s i o = some s') : Counted c s' := by
  obtain ⟨hr, hd⟩ := K
  have kr := fun b o' => countP_set_add (rejecting c b) o' ho
  have kd := fun b o' => countP_set_add (dropping c b) o' ho
  -- a step that touches no counter and moves between uncounted places
  have still : ∀ o', (∀ b, rejecting c b o = false ∧ dropping c b o = false) →
      (∀ b, rejecting c b o' = false ∧ dropping c b o' = false) →
      ∀ t : St α, t.rejections = s.rejections → t.drops = s.drops → t.failures = s.failures →
        t.abandoned = s.abandoned → t.ops = s.ops.set i o' → Counted c t := by
    intro o' h h' t e1 e2 e3 e4 e5
    refine ⟨fun b => ?_, fun b => ?_⟩
    · have k := kr b o'; rw [(h b).1, (h' b).1] at k
      rw [e1, e3, e5, hr b]; omega
    · have k := kd b o'; rw [(h b).2, (h' b).2] at k
      rw [e2, e4, e5, hd b]; omega
  cases o with
  | load v ab =>
    simp only [opStep, Option.some.injEq] at hst; subst hst
    exact still (.exchange v ab s.used) (fun _ => ⟨rfl, rfl⟩) (fun _ => ⟨rfl, rfl⟩) _ rfl rfl rfl
      rfl rfl
  | exchange v ab seen =>
    simp only [opStep] at hst
    split at hst
    · split at hst
      · simp only [Option.some.injEq] at hst; subst hst
        exact still (.trySend v ab true) (fun _ => ⟨rfl, rfl⟩) (fun _ => ⟨rfl, rfl⟩) _ rfl rfl rfl
          rfl rfl
      · simp only [Option.some.injEq] at hst; subst hst
        exact still (.exchange v ab s.used) (fun _ => ⟨rfl, rfl⟩) (fun _ => ⟨rfl, rfl⟩) _ rfl rfl
          rfl rfl rfl
    · simp only [Option.some.injEq] at hst; subst hst
      exact still (.rejected v ab false .full) (fun _ => ⟨rfl, rfl⟩) (fun _ => ⟨rfl, rfl⟩) _ rfl
        rfl rfl rfl rfl
  | trySend v ab p =>
    simp only [opStep] at hst
    split at hst
    · simp only [Option.some.injEq] at hst; subst hst
      exact still (.rejected v ab p .disconnected) (fun _ => ⟨rfl, rfl⟩) (fun _ => ⟨rfl, rfl⟩) _
        rfl rfl rfl rfl rfl
    · split at hst
      · simp only [Option.some.injEq] at hst; subst hst
        exact still .done (fun _ => ⟨rfl, rfl⟩) (fun _ => ⟨rfl, rfl⟩) _ rfl rfl rfl rfl rfl
      · simp only [Option.some.injEq] at hst; subst hst
        exact still (.rejected v ab p .full) (fun _ => ⟨rfl, rfl⟩) (fun _ => ⟨rfl, rfl⟩) _ rfl rfl
          rfl rfl rfl
  | rejected v ab p e =>
    simp only [opStep, Option.some.injEq] at hst; subst hst
    refine ⟨fun b => ?_, fun b => ?_⟩
    · have k := kr b (if ab then .dropped v p e else .unwind v false p e)
      have h : rejecting c b (if ab then .dropped v p e else .unwind v false p e : Op α)
          = (c.critical v == b) := by cases ab <;> rfl
      rw [h] at k
      simp only [setOp, Counters.get_bump, hr b]
      by_cases hb : c.critical v = b
      · simp only [rejecting, hb, beq_self_eq_true, Bool.toNat_false, Bool.toNat_true] at k
        simp only [hb, if_true]; omega
      · have hb' : (c.critical v == b) = false := by simpa using hb
        simp only [rejecting, hb', Bool.toNat_false] at k
        simp only [hb, if_false]; omega
    · have k := kd b (if ab then .dropped v p e else .unwind v false p e)
      have h : dropping c b (if ab then .dropped v p e else .unwind v false p e : Op α)
          = false := by cases ab <;> rfl
      rw [h] at k
      simp only [dropping] at k
      simp only [setOp, hd b]; omega
  | dropped v p e =>
    simp only [opStep, Option.some.injEq] at hst; subst hst
    refine ⟨fun b => ?_, fun b => ?_⟩
    · have k := kr b (.unwind v true p e)
      simp only [rejecting] at k
      simp only [setOp, hr b]; omega
    · have k := kd b (.unwind v true p e)
      simp only [setOp, Counters.get_bump, hd b]
      by_cases hb : c.critical v = b
      · simp only [dropping, hb, beq_self_eq_true, Bool.toNat_false, Bool.toNat_true] at k
        simp only [hb, if_true]; omega
      · have hb' : (c.critical v == b) = false := by simpa using hb
        simp only [dropping, hb', Bool.toNat_false] at k
        simp only [hb, if_false]; omega
  | unwind v ab p e =>
    simp only [opStep, Option.some.injEq] at hst; subst hst
    refine ⟨fun b => ?_, fun b => ?_⟩
    · have k := kr b (.failed v ab e)
      simp only [rejecting, Bool.toNat_false] at k
      simp only [setOp, countP_concat, hr b]; omega
    · have k := kd b (.failed v ab e)
      cases ab with
      | true =>
        simp only [dropping, Bool.toNat_false] at k
        simp only [setOp, if_true, countP_concat, hd b]; omega
      | false =>
        simp only [dropping] at k
        simp only [setOp, Bool.false_eq_true, if_false, hd b]; omega
  | taken p =>
    simp only [opStep, Option.some.injEq] at hst; subst hst
    exact still .done (fun _ => ⟨rfl, rfl⟩) (fun _ => ⟨rfl, rfl⟩) _ rfl rfl rfl rfl rfl
  | failed v ab e => simp [opStep] at hst
  | done => simp [opStep] at hst

theorem counted_step {c : Cfg α} {s s' : St α} {l : Lbl α} (K : Counted c s)
    (hst : step c s l = some s') : Counted c s' := by
  cases l with
  | start v ab =>
    simp only [step] at hst
    split at hst
    · cases hst
    · simp only [Option.some.injEq] at hst; subst hst
      refine ⟨fun b => ?_, fun b => ?_⟩
      · simpa [countP_concat, rejecting_enter] using K.rejections b
      · simpa [countP_concat, dropping_enter] using K.drops b
  | op i =>
    obtain ⟨o, ho, hst⟩ := Option.bind_eq_some_iff.mp hst
    exact counted_opStep K ho hst
  | spurious i =>
    simp only [step] at hst
    split at hst
    · rename_i v ab seen ho
      simp only [Option.some.injEq] at hst; subst hst
      refine ⟨fun b => ?_, fun b => ?_⟩
      · have k := countP_set_add (rejecting c b) (.exchange v ab s.used) ho
        have := K.rejections b
        simp only [rejecting] at k
        simp only [setOp]; omega
      · have k := countP_set_add (dropping c b) (.exchange v ab s.used) ho
        have := K.drops b
        simp only [dropping] at k
        simp only [setOp]; omega
    · cases hst
  | retry i ab =>
    simp only [step] at hst
    split at hst
    · rename_i v e ho
      simp only [Option.some.injEq] at hst; subst hst
      refine ⟨fun b => ?_, fun b => ?_⟩
      · have k := countP_set_add (rejecting c b) (enter c v ab) ho
        have := K.rejections b
        rw [rejecting_enter] at k
        simp only [rejecting] at k
        simp only [setOp]; omega
      · have k := countP_set_add (dropping c b) (enter c v ab) ho
        have := K.drops b
        rw [dropping_enter] at k
        simp only [dropping] at k
        simp only [setOp]; omega
    · cases hst
  | recordAbandoned i =>
    simp only [step] at hst
    split at hst
    · rename_i v e ho
      simp only [Option.some.injEq] at hst; subst hst
      refine ⟨fun b => ?_, fun b => ?_⟩
      · have k := countP_set_add (rejecting c b) .done ho
        have := K.rejections b
        simp only [rejecting] at k
        simp only [setOp]; omega
      · have k := countP_set_add (dropping c b) .done ho
        have := K.drops b
        simp only [dropping] at k
        simp only [setOp, Counters.get_bump, countP_concat]
        by_cases hb : c.critical v = b
        · simp only [hb, if_true, beq_self_eq_true, Bool.toNat_true]; omega
        · have hb' : (c.critical v == b) = false := by simpa using hb
          simp only [hb, hb', if_false, Bool.toNat_false]; omega
    · cases hst
  | recv =>
    simp only [step] at hst
    split at hst
    · cases hst
    · simp only [Option.some.injEq] at hst; subst hst
      refine ⟨fun b => ?_, fun b => ?_⟩
      · simpa [countP_concat, rejecting] using K.rejections b
      · simpa [countP_concat, dropping] using K.drops b
  | close =>
    simp only [step, Option.some.injEq] at hst; subst hst
    refine ⟨fun b => ?_, fun b => ?_⟩
    · have h0 : (s.queue.map fun e => (.taken e.permit : Op α)).countP (rejecting c b) = 0 := by
        simp [List.countP_map, Function.comp_def, rejecting]
      simp only [List.countP_append, h0]
      exact K.rejections b
    · have h0 : (s.queue.map fun e => (.taken e.permit : Op α)).countP (dropping c b) = 0 := by
        simp [List.countP_map, Function.comp_def, dropping]
      simp only [List.countP_append, h0]
      exact K.drops b

theorem counted_inductive (c : Cfg α) : (lts c).Inductive (Counted c) where
  init s hs := by
    rw [hs]
    exact ⟨fun b => by cases b <;> rfl, fun b => by cases b <;> rfl⟩
  step _ _ _ K hst := counted_step K hst

/-! ## Headline property -/

theorem Permits.noncritical {c : Cfg α} {s : St α} (P : Permits c s) :
    s.queue.countP (fun e => !c.critical e.value) = s.queue.countP (·.permit) :=
  List.countP_congr fun e he => by rw [P.entry e he]

/-- A full queue holds `reserve` critical messages: the noncritical ones fit
in the permits. -/
theorem Permits.critical_of_full {c : Cfg α} {s : St α} (P : Permits c s)
    (hf : c.capacity ≤ s.queue.length) :
    reserve c.capacity ≤ s.queue.countP (fun e => c.critical e.value) := by
  have hsum := List.length_eq_countP_add_countP (fun e : Entry α => c.critical e.value) (l := s.queue)
  have hnc := P.noncritical
  simp only [Bool.not_eq_true, Bool.decide_eq_false] at hsum
  have hu := P.used
  have hl := P.limit
  have hr := reserve_le c.capacity
  unfold Cfg.limit at hl
  omega

/-- An operation that has not returned. -/
def inFlight : Op α → Bool
  | .failed _ _ _ | .done => false
  | _ => true

theorem countP_eq_zero_of_idle {s : St α} (h : ∀ o ∈ s.ops, inFlight o = false) (p : Op α → Bool)
    (hp : ∀ o, p o = true → inFlight o = true) : s.ops.countP p = 0 := by
  rw [List.countP_eq_zero]
  intro o ho hpo
  have := hp o hpo
  rw [h o ho] at this
  cases this

/-- What every interleaving of senders and receivers keeps: the noncritical
messages leave the reserved slots free, a release is turned away only by
other releases, permits are neither lost nor doubled, the channel delivers
in acceptance order, and the counters count. -/
theorem admission_reachable (c : Cfg α) (s : St α) (h : (lts c).Reachable s) :
    s.queue.countP (fun e => !c.critical e.value) ≤ c.capacity - reserve c.capacity ∧
    (∀ i v ab p s', s.ops[i]? = some (.trySend v ab p) → c.critical v = true →
      step c s (.op i) = some s' → s'.ops[i]? = some (.rejected v ab p .full) →
      reserve c.capacity ≤ s.queue.countP (fun e => c.critical e.value)) ∧
    s.used = s.queue.countP (fun e => !c.critical e.value) + s.ops.countP holds ∧
    (s.queue = [] → (∀ o ∈ s.ops, inFlight o = false) → s.used = 0) ∧
    s.received <+: s.accepted ∧
    (s.closed = false → s.accepted = s.received ++ s.queue.map Entry.value) ∧
    (∀ b, s.rejections.get b =
      s.failures.countP (fun v => c.critical v == b) + s.ops.countP (rejecting c b)) ∧
    (∀ b, s.drops.get b =
      s.abandoned.countP (fun v => c.critical v == b) + s.ops.countP (dropping c b)) ∧
    ((∀ o ∈ s.ops, inFlight o = false) → ∀ b,
      s.rejections.get b = s.failures.countP (fun v => c.critical v == b) ∧
      s.drops.get b = s.abandoned.countP (fun v => c.critical v == b)) := by
  have P := (permits_inductive c).reachable s h
  have F := (fifo_inductive c).reachable s h
  have K := (counted_inductive c).reachable s h
  have hnc := P.noncritical
  have hu := P.used
  refine ⟨?_, ?_, ?_, ?_, F.pre, F.opened, K.rejections, K.drops, ?_⟩
  · have := P.limit
    unfold Cfg.limit at this
    omega
  · intro i v ab p s' ho _ hst hrej
    simp only [step, ho, Option.bind_some, opStep] at hst
    split at hst
    · simp only [Option.some.injEq] at hst; subst hst
      simp only [setOp] at hrej
      obtain ⟨hi, -⟩ := List.getElem?_eq_some_iff.mp ho
      rw [List.getElem?_set_self hi] at hrej
      simp at hrej
    · split at hst
      · simp only [Option.some.injEq] at hst; subst hst
        simp only [setOp] at hrej
        obtain ⟨hi, -⟩ := List.getElem?_eq_some_iff.mp ho
        rw [List.getElem?_set_self hi] at hrej
        simp at hrej
      · exact P.critical_of_full (by omega)
  · omega
  · intro hq hidle
    rw [hu, hq, countP_eq_zero_of_idle hidle holds (by rintro (_ | _) <;> simp [holds, inFlight])]
    rfl
  · intro hidle b
    have h1 := countP_eq_zero_of_idle hidle (rejecting c b)
      (by rintro (_ | _) <;> simp [rejecting, inFlight])
    have h2 := countP_eq_zero_of_idle hidle (dropping c b)
      (by rintro (_ | _) <;> simp [dropping, inFlight])
    refine ⟨by rw [K.rejections b, h1, Nat.add_zero], by rw [K.drops b, h2, Nat.add_zero]⟩

/-! ## Non-vacuity: a queue filled up to its reserve -/

def cfg8 : Cfg Bool := ⟨8, id, false⟩

/-- Seven noncritical messages, a refused eighth, a release into the
reserved slot and a refused second release. -/
def traceFull : List (Lbl Bool) :=
  ((List.range 7).flatMap fun i => [.start false true, .op i, .op i, .op i]) ++
    [.start false true, .op 7, .op 7, .op 7, .op 7, .op 7,
     .start true false, .op 8, .start true false, .op 9]

def fullQueue : St Bool :=
  { used := 7, queue := List.replicate 7 ⟨false, true⟩ ++ [⟨true, false⟩], closed := false,
    ops := List.replicate 7 .done ++ [.failed false true .full, .done, .rejected true false false .full],
    rejections := ⟨1, 0⟩, drops := ⟨1, 0⟩,
    accepted := List.replicate 7 false ++ [true], received := [],
    failures := [false], abandoned := [false] }

theorem traceFull_result : LTS.exec (step cfg8) init traceFull = some fullQueue := by decide

theorem fullQueue_within_limit :
    fullQueue.queue.countP (fun e => !cfg8.critical e.value) ≤ 8 - reserve 8 ∧
      fullQueue.received <+: fullQueue.accepted :=
  have h := admission_reachable cfg8 fullQueue (LTS.reachable_of_exec traceFull rfl traceFull_result)
  ⟨h.1, h.2.2.2.2.1⟩

end RtpOscMidi.L5.Admission
