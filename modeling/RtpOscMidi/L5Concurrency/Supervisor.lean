import RtpOscMidi.Core.LTS
import RtpOscMidi.Core.Lists
import RtpOscMidi.L2Machine.RestartBudget

/-!
# Starts and stops of the VST worker

`start`, `stop` and the restarts as calls that share the `lifecycle` lock, the
published status, the session and the MIDI route, with the session tasks that
the starts spawn. Any number of calls and sessions run at once, and each load
and store is a step of its own.

What the operating system, the worker and the time limits answer is the
outcome of a step: `ok`, or `fail` with a text. `halt` is what ends a session
that is asked or made to stop. `returned` is a call that is about to let go of
the lock with its result. The budget of the restarts is an outcome too, and so
is a restart that finds nothing loaded left out, as every start notes its load
first. The end of the supervisor itself is not modelled.

* `start_failures`: where no start fails at a pipe or at the MIDI runtime, and
  no other task publishes a fault between its own and its return, a start that
  fails leaves the worker faulted with its error, and no session or route.
* `pipe_failure`: a start that fails at its control pipe leaves `Starting`.
-/
namespace RtpOscMidi.L5.Supervisor

open Core
open RtpOscMidi.L2.RestartBudget (VstWorkerState)

/-! ## Sessions -/

/-- Where a session task is. `ending` waits for its pipes, from `unroute` on
nothing is waited for.
mirrors src-tauri/src/vst_worker/supervisor.rs:1255-1456 -/
inductive SessionPc where
  | connecting
  | refused (error : String)
  | running
  | ending (error : String)
  | unroute (error : String)
  | unlink (error : String)
  | judge (error : String)
  | fault (error : String)
  | schedule
  | restart
  | ended
  deriving DecidableEq, Repr

structure Session where
  generation : Nat
  pc : SessionPc
  accepted : Bool
  deriving DecidableEq, Repr

def SessionPc.waits : SessionPc → Bool
  | .connecting | .running | .ending _ => true
  | _ => false

/-- An abort ends a task where it waits. -/
def Session.abort (t : Session) : Session := if t.pc.waits then { t with pc := .ended } else t

/-! ## Calls -/

inductive Kind where
  | user
  | restart
  | stop
  deriving DecidableEq, Repr

/-- What goes on after `stop_session`: the call that began with it, or the end
of a start that fails. -/
inductive Next where
  | enter
  | fail (error : String)
  deriving DecidableEq, Repr

/-- Where a call is: `unroute` to `settle` are `stop_session`, `publish` to
`fault` are the rest of `start_generation`, `failed` and `refault` the task of
a restart.
mirrors src-tauri/src/vst_worker/supervisor.rs:217-416,829-845 -/
inductive Pc where
  | entering
  | waiting
  | checking
  | unroute (next : Next)
  | halt (next : Next)
  | take (next : Next)
  | join (session : Nat) (next : Next)
  | settle (result : Except String Unit) (next : Next)
  | publish
  | controlPipe
  | midiRuntime
  | midiPipe
  | spawnWorker
  | connected (session : Nat)
  | cancel (session : Nat) (error : String)
  | storeSession (session : Nat)
  | storeRoute (session : Nat)
  | load
  | request
  | reply (generation : Nat)
  | ready
  | fault (error : String)
  | returned (result : Except String Unit)
  | failed (error : String)
  | refault (error : String)
  | done (result : Except String Unit)
  deriving DecidableEq, Repr

structure Call where
  kind : Kind
  generation : Nat
  pc : Pc
  deriving DecidableEq, Repr

/-- `session` and `route` hold the index of their session.
mirrors src-tauri/src/vst_worker/supervisor.rs:113-129 -/
structure St where
  lifecycleGeneration : Nat
  lifecycle : Option Nat
  state : VstWorkerState
  lastExit : Option String
  session : Option Nat
  midiRoute : Option Nat
  calls : List Call
  sessions : List Session
  deriving DecidableEq, Repr

inductive Outcome where
  | ok
  | fail (error : String)
  | halt
  deriving DecidableEq, Repr

inductive Label where
  | start
  | stop
  | call (i : Nat) (outcome : Outcome)
  | session (k : Nat) (outcome : Outcome)
  deriving DecidableEq, Repr

/-- mirrors src-tauri/src/vst_worker/supervisor.rs:781-785 -/
def St.fault (s : St) (error : String) : St := { s with state := .faulted, lastExit := some error }

def St.goto (s : St) (i : Nat) (c : Call) (pc : Pc) : St :=
  { s with calls := s.calls.set i { c with pc } }

def St.sessionGoto (s : St) (k : Nat) (t : Session) (pc : SessionPc) : St :=
  { s with sessions := s.sessions.set k { t with pc } }

def St.abort (s : St) (k : Nat) : St := { s with sessions := s.sessions.modify k Session.abort }

def St.ended (s : St) (k : Nat) : Bool := s.sessions[k]?.all (·.pc = .ended)

def St.accepted (s : St) (k : Nat) : Bool := s.sessions[k]?.any Session.accepted

/-- The task of a restart goes on with an error of its start. -/
def Call.after (c : Call) (result : Except String Unit) : Pc :=
  match c.kind, result with
  | .restart, .error error => .failed error
  | _, result => .done result

def startSuperseded : String := "Worker start superseded by another lifecycle request"

def commandSuperseded : String := "VST worker command superseded by a lifecycle change"

def notConnected : String := "VST worker is not connected"

def budgetExhausted : String := "VST worker restart budget exhausted (3 restarts in 60 seconds)"

/-- mirrors src-tauri/src/vst_worker/supervisor.rs:230-416,716-761,829-845 -/
def callStep (s : St) (i : Nat) (c : Call) (outcome : Outcome) : Option St :=
  match c.pc with
  | .entering => some (St.goto { s with midiRoute := none } i c .waiting)
  | .waiting =>
    if s.lifecycle = none then
      some (St.goto { s with lifecycle := some i } i c
        (if c.kind = .stop then .unroute .enter else .checking))
    else none
  | .checking =>
    if c.generation = s.lifecycleGeneration then some (s.goto i c (.unroute .enter))
    else some (St.goto { s with lifecycle := none } i c (c.after (.error startSuperseded)))
  | .unroute next => some (St.goto { s with midiRoute := none } i c (.halt next))
  | .halt next => some (St.goto { s with state := .stopping } i c (.take next))
  | .take next =>
    some (St.goto { s with session := none } i c
      (match s.session with
        | none => .settle (.ok ()) next
        | some k => .join k next))
  | .join k next =>
    match outcome with
    | .halt => some (s.abort k)
    | .ok => if s.ended k then some (s.goto i c (.settle (.ok ()) next)) else none
    | .fail error => if s.ended k then some (s.goto i c (.settle (.error error) next)) else none
  | .settle result next =>
    some (St.goto { s with state := if result.isOk then .disabled else .faulted } i c
      (match next with
        | .enter => if c.kind = .stop then .returned result else .publish
        | .fail error => .fault error))
  | .publish => some (St.goto { s with state := .starting } i c .controlPipe)
  | .controlPipe =>
    match outcome with
    | .ok => some (s.goto i c .midiRuntime)
    | .fail error => some (s.goto i c (.returned (.error error)))
    | .halt => none
  | .midiRuntime =>
    match outcome with
    | .ok => some (s.goto i c .midiPipe)
    | .fail error => some (s.goto i c (.returned (.error error)))
    | .halt => none
  | .midiPipe =>
    match outcome with
    | .ok => some (s.goto i c .spawnWorker)
    | .fail error => some (s.goto i c (.returned (.error error)))
    | .halt => none
  | .spawnWorker =>
    match outcome with
    | .ok =>
      some (St.goto { s with sessions := s.sessions ++ [⟨c.generation, .connecting, false⟩] } i c
        (.connected s.sessions.length))
    | .fail error => some (s.goto i c (.fault error))
    | .halt => none
  | .connected k =>
    match outcome with
    | .ok => if s.accepted k then some (s.goto i c (.storeSession k)) else none
    | .fail error => some ((s.abort k).goto i c (.cancel k error))
    | .halt => none
  | .cancel k error => if s.ended k then some (s.goto i c (.fault error)) else none
  | .storeSession k => some (St.goto { s with session := some k } i c (.storeRoute k))
  | .storeRoute k => some (St.goto { s with midiRoute := some k } i c .load)
  | .load => some (St.goto { s with state := .loading } i c .request)
  | .request =>
    match s.session.bind (s.sessions[·]?) with
    | none => some (s.goto i c (.unroute (.fail notConnected)))
    | some t =>
      if t.generation = s.lifecycleGeneration then some (s.goto i c (.reply t.generation))
      else some (s.goto i c (.unroute (.fail commandSuperseded)))
  | .reply generation =>
    match outcome with
    | .ok =>
      if generation = s.lifecycleGeneration then some (s.goto i c .ready)
      else some (s.goto i c (.unroute (.fail commandSuperseded)))
    | .fail error => some (s.goto i c (.unroute (.fail error)))
    | .halt => none
  | .ready => some (St.goto { s with state := .ready } i c (.returned (.ok ())))
  | .fault error => some ((s.fault error).goto i c (.returned (.error error)))
  | .returned result => some (St.goto { s with lifecycle := none } i c (c.after result))
  | .failed error =>
    if c.generation = s.lifecycleGeneration then some (s.goto i c (.refault error))
    else some (s.goto i c (.done (.error error)))
  | .refault error =>
    some ((s.fault ("VST worker restart failed: " ++ error)).goto i c (.done (.error error)))
  | .done _ => none

/-- The stored session is dropped, which aborts its task, in `unlink`.
mirrors src-tauri/src/vst_worker/supervisor.rs:787-846,1273-1300,1431-1456 -/
def sessionStep (s : St) (k : Nat) (t : Session) (outcome : Outcome) : Option St :=
  match t.pc with
  | .connecting =>
    match outcome with
    | .ok => some { s with sessions := s.sessions.set k { t with pc := .running, accepted := true } }
    | .fail error => some (s.sessionGoto k t (.refused error))
    | .halt => none
  | .refused error => some ((s.fault error).sessionGoto k t .ended)
  | .running =>
    match outcome with
    | .fail error => some (s.sessionGoto k t (.ending error))
    | .ok | .halt => none
  | .ending error =>
    if t.generation = s.lifecycleGeneration then some (s.sessionGoto k t (.unroute error))
    else some (s.sessionGoto k t .ended)
  | .unroute error => some (St.sessionGoto { s with midiRoute := none } k t (.unlink error))
  | .unlink error =>
    some ((St.sessionGoto { s with session := none } k t (.judge error)).abort
      (s.session.getD s.sessions.length))
  | .judge error =>
    if s.state = .stopping ∨ s.state = .disabled then some (s.sessionGoto k t .ended)
    else some (s.sessionGoto k t (.fault error))
  | .fault error => some ((s.fault error).sessionGoto k t .schedule)
  | .schedule =>
    if t.generation = s.lifecycleGeneration then some (s.sessionGoto k t .restart)
    else some (s.sessionGoto k t .ended)
  | .restart =>
    match outcome with
    | .ok =>
      some (St.sessionGoto { s with calls := s.calls ++ [⟨.restart, t.generation, .waiting⟩] } k t .ended)
    | .fail _ => some ((s.fault budgetExhausted).sessionGoto k t .ended)
    | .halt => none
  | .ended => none

/-- mirrors src-tauri/src/vst_worker/supervisor.rs:217-228,355-362 -/
def step (s : St) : Label → Option St
  | .start =>
    let generation := s.lifecycleGeneration + 1
    some { s with
      lifecycleGeneration := generation, calls := s.calls ++ [⟨.user, generation, .waiting⟩] }
  | .stop =>
    let generation := s.lifecycleGeneration + 1
    some { s with
      lifecycleGeneration := generation, calls := s.calls ++ [⟨.stop, generation, .entering⟩] }
  | .call i outcome => s.calls[i]?.bind fun c => callStep s i c outcome
  | .session k outcome => s.sessions[k]?.bind fun t => sessionStep s k t outcome

/-- mirrors src-tauri/src/vst_worker/supervisor.rs:169-191 -/
def new : St := ⟨0, none, .disabled, none, none, none, [], []⟩

def system : LTS St Label := .ofStep (· = new) step

/-! ## Who holds the lock -/

/-- The call has the lock. -/
def Pc.holds : Pc → Bool
  | .entering | .waiting | .failed _ | .refault _ | .done _ => false
  | _ => true

/-- The call has taken the session and cleared the route, and not stored new
ones. -/
def Pc.detached : Pc → Bool
  | .join .. | .settle .. | .publish | .controlPipe | .midiRuntime | .midiPipe | .spawnWorker
  | .connected _ | .cancel .. | .storeSession _ | .fault _ | .returned (.error _) => true
  | _ => false

/-- The call has cleared the route. -/
def Pc.unrouted : Pc → Bool
  | .halt _ | .take _ => true
  | _ => false

/-- The call is about to return an error. -/
def Pc.fails : Pc → Bool
  | .returned (.error _) => true
  | _ => false

structure CallOk (s : St) (i : Nat) (c : Call) : Prop where
  lifecycle : c.pc.holds → s.lifecycle = some i
  detached : c.pc.detached → s.session = none ∧ s.midiRoute = none
  unrouted : c.pc.unrouted → s.midiRoute = none

def Inv (s : St) : Prop := ∀ i c, s.calls[i]? = some c → CallOk s i c

theorem holds_of_detached {pc : Pc} (h : pc.detached = true) : pc.holds = true := by
  cases pc with
  | entering | waiting | failed | refault | done => cases h
  | _ => rfl

theorem holds_of_unrouted {pc : Pc} (h : pc.unrouted = true) : pc.holds = true := by
  cases pc with
  | halt | take => rfl
  | _ => cases h

/-- Nothing is known of a call without the lock. -/
theorem CallOk.of_idle {s : St} {i : Nat} {c : Call} (h : c.pc.holds = false) : CallOk s i c where
  lifecycle hholds := by
    rw [h] at hholds
    cases hholds
  detached hdetached := by
    rw [holds_of_detached hdetached] at h
    cases h
  unrouted hunrouted := by
    rw [holds_of_unrouted hunrouted] at h
    cases h

/-- No other call holds the lock. -/
theorem Inv.idle {s : St} (I : Inv s) {i j : Nat} {d : Call} (hlock : s.lifecycle = some i)
    (hj : s.calls[j]? = some d) (hne : j ≠ i) : d.pc.holds = false := by
  cases hholds : d.pc.holds with
  | true => exact absurd (Option.some.inj (((I j d hj).lifecycle hholds).symm.trans hlock)) hne
  | false => rfl

/-- What a task without the lock does: the session and the route may only go
away. -/
structure Milder (s s' : St) : Prop where
  lifecycle : s'.lifecycle = s.lifecycle
  session : s'.session = s.session ∨ s'.session = none
  midiRoute : s'.midiRoute = s.midiRoute ∨ s'.midiRoute = none

theorem CallOk.milder {s s' : St} {i : Nat} {c : Call} (h : CallOk s i c) (hm : Milder s s') :
    CallOk s' i c where
  lifecycle hholds := hm.lifecycle.trans (h.lifecycle hholds)
  detached hdetached := by
    obtain ⟨hsession, hroute⟩ := h.detached hdetached
    refine ⟨?_, ?_⟩
    · cases hm.session with
      | inl e => exact e.trans hsession
      | inr e => exact e
    · cases hm.midiRoute with
      | inl e => exact e.trans hroute
      | inr e => exact e
  unrouted hunrouted := by
    cases hm.midiRoute with
    | inl e => exact e.trans (h.unrouted hunrouted)
    | inr e => exact e

/-! ## Which starts the code answers for -/

/-- The exits of a start that leave through an error of the operating system
alone. -/
def Pc.leaves : Pc → Bool
  | .controlPipe | .midiRuntime | .midiPipe => true
  | _ => false

/-- A user's start leaves so. -/
def leaves (s : St) : Label → Bool
  | .call i (.fail _) => s.calls[i]?.any fun c => c.kind = .user ∧ c.pc.leaves
  | _ => false

def Pc.refaults : Pc → Bool
  | .refault _ => true
  | _ => false

def Session.publishes (t : Session) (outcome : Outcome) : Bool :=
  match t.pc, outcome with
  | .refused _, _ | .fault _, _ | .restart, .fail _ => true
  | _, _ => false

/-- A task other than a start publishes a fault. -/
def publishes (s : St) : Label → Bool
  | .start | .stop => false
  | .call i _ => s.calls[i]?.any (·.pc.refaults)
  | .session k outcome => s.sessions[k]?.any (·.publishes outcome)

structure Orderly (s : St) (l : Label) : Prop where
  leaves : leaves s l = false
  publishes : publishes s l = true → ∀ c ∈ s.calls, c.kind = .user → c.pc.fails = false

instance (s : St) (l : Label) : Decidable (Orderly s l) :=
  decidable_of_iff (leaves s l = false ∧
      (publishes s l = true → ∀ c ∈ s.calls, c.kind = .user → c.pc.fails = false))
    ⟨fun h => ⟨h.1, h.2⟩, fun h => ⟨h.leaves, h.publishes⟩⟩

/-! ## One step -/

/-- The status that a user's start is about to return with, unless it leaves
through an error of a pipe or of the runtime. -/
def Reports (s : St) (c : Call) (leaves : Prop) : Prop :=
  ∀ error, c.kind = .user → c.pc = .returned (.error error) →
    leaves ∨ s.state = .faulted ∧ s.lastExit = some error

/-- The call has gone on, and knows this. -/
structure Moved (calls : List Call) (i : Nat) (c : Call) (outcome : Outcome) (s' : St) (pc : Pc) :
    Prop where
  calls : s'.calls = calls.set i { c with pc }
  ok : CallOk s' i { c with pc }
  reports : Reports s' { c with pc } (c.pc.leaves = true ∧ ∃ error, outcome = .fail error)

section Makers

variable {s : St} {calls : List Call} {i : Nat} {c : Call} {pc : Pc} {outcome : Outcome}

theorem moved_idle (hcalls : s.calls = calls) (hidle : pc.holds = false) :
    Moved calls i c outcome (s.goto i c pc) pc where
  calls := by rw [← hcalls]; rfl
  ok := .of_idle hidle
  reports error _ h := by
    rw [show pc = .returned (.error error) from h] at hidle
    cases hidle

theorem moved_busy (hcalls : s.calls = calls) (hlock : s.lifecycle = some i)
    (hdetached : pc.detached = false) (hroute : pc.unrouted = true → s.midiRoute = none) :
    Moved calls i c outcome (s.goto i c pc) pc where
  calls := by rw [← hcalls]; rfl
  ok := by
    refine ⟨fun _ => hlock, fun h => ?_, hroute⟩
    rw [hdetached] at h
    cases h
  reports error _ h := by
    rw [show pc = .returned (.error error) from h] at hdetached
    cases hdetached

theorem moved_apart (hcalls : s.calls = calls) (hlock : s.lifecycle = some i)
    (hapart : s.session = none ∧ s.midiRoute = none)
    (hreports : Reports s { c with pc } (c.pc.leaves = true ∧ ∃ error, outcome = .fail error)) :
    Moved calls i c outcome (s.goto i c pc) pc where
  calls := by rw [← hcalls]; rfl
  ok := ⟨fun _ => hlock, fun _ => hapart, fun _ => hapart.2⟩
  reports := hreports

end Makers

theorem after_holds (c : Call) (result : Except String Unit) : (c.after result).holds = false := by
  unfold Call.after
  split
  · rfl
  · rfl

theorem set_of_getElem? {calls : List Call} {i : Nat} {c : Call} (h : calls[i]? = some c) :
    calls.set i c = calls := by
  obtain ⟨hlt, rfl⟩ := List.getElem?_eq_some_iff.mp h
  exact List.set_getElem_self hlt

/-- The call that takes a step. -/
theorem call_self {s s' : St} {i : Nat} {c : Call} {outcome : Outcome} (h : CallOk s i c)
    (hi : s.calls[i]? = some c) (hst : callStep s i c outcome = some s') :
    ∃ pc, Moved s.calls i c outcome s' pc := by
  obtain ⟨kind, generation, pc⟩ := c
  have hsame := h
  obtain ⟨hlock, hapart, hcut⟩ := h
  cases pc with
  | entering =>
    cases hst
    exact ⟨_, moved_idle rfl rfl⟩
  | waiting =>
    simp only [callStep] at hst
    split at hst
    · cases hst
      refine ⟨_, moved_busy rfl rfl ?_ ?_⟩
      · split <;> rfl
      · split <;> simp [Pc.unrouted]
    · cases hst
  | checking =>
    simp only [callStep] at hst
    split at hst
    · cases hst
      exact ⟨_, moved_busy rfl (hlock rfl) rfl (by simp [Pc.unrouted])⟩
    · cases hst
      exact ⟨_, moved_idle rfl (after_holds _ _)⟩
  | unroute next =>
    cases hst
    exact ⟨_, moved_busy rfl (hlock rfl) rfl fun _ => rfl⟩
  | halt next =>
    cases hst
    exact ⟨_, moved_busy rfl (hlock rfl) rfl fun _ => hcut rfl⟩
  | take next =>
    cases hst
    refine ⟨_, moved_apart rfl (hlock rfl) ⟨rfl, hcut rfl⟩ ?_⟩
    intro error _ hpc
    split at hpc
    · cases hpc
    · cases hpc
  | join k next =>
    simp only [callStep] at hst
    split at hst
    · cases hst
      refine ⟨_, (set_of_getElem? hi).symm, ?_, by simp [Reports]⟩
      exact ⟨hsame.lifecycle, hsame.detached, hsame.unrouted⟩
    · split at hst
      · cases hst
        exact ⟨_, moved_apart rfl (hlock rfl) (hapart rfl) (by simp [Reports])⟩
      · cases hst
    · split at hst
      · cases hst
        exact ⟨_, moved_apart rfl (hlock rfl) (hapart rfl) (by simp [Reports])⟩
      · cases hst
  | settle result next =>
    cases hst
    refine ⟨_, moved_apart rfl (hlock rfl) (hapart rfl) ?_⟩
    intro error hkind hpc
    split at hpc
    · rw [if_neg fun e => by rw [e] at hkind; cases hkind] at hpc
      cases hpc
    · cases hpc
  | publish =>
    cases hst
    exact ⟨_, moved_apart rfl (hlock rfl) (hapart rfl) (by simp [Reports])⟩
  | controlPipe | midiRuntime | midiPipe =>
    cases outcome with
    | ok =>
      cases hst
      exact ⟨_, moved_apart rfl (hlock rfl) (hapart rfl) (by simp [Reports])⟩
    | fail error =>
      cases hst
      refine ⟨_, moved_apart rfl (hlock rfl) (hapart rfl) ?_⟩
      intro _ _ _
      exact .inl ⟨rfl, error, rfl⟩
    | halt => cases hst
  | spawnWorker =>
    cases outcome with
    | ok | fail _ =>
      cases hst
      exact ⟨_, moved_apart rfl (hlock rfl) (hapart rfl) (by simp [Reports])⟩
    | halt => cases hst
  | connected k =>
    cases outcome with
    | ok =>
      simp only [callStep] at hst
      split at hst
      · cases hst
        exact ⟨_, moved_apart rfl (hlock rfl) (hapart rfl) (by simp [Reports])⟩
      · cases hst
    | fail error =>
      cases hst
      exact ⟨_, moved_apart rfl (hlock rfl) (hapart rfl) (by simp [Reports])⟩
    | halt => cases hst
  | cancel k error =>
    simp only [callStep] at hst
    split at hst
    · cases hst
      exact ⟨_, moved_apart rfl (hlock rfl) (hapart rfl) (by simp [Reports])⟩
    · cases hst
  | storeSession | storeRoute | load =>
    cases hst
    exact ⟨_, moved_busy rfl (hlock rfl) rfl (by simp [Pc.unrouted])⟩
  | request =>
    simp only [callStep] at hst
    split at hst
    · cases hst
      exact ⟨_, moved_busy rfl (hlock rfl) rfl (by simp [Pc.unrouted])⟩
    · split at hst
      · cases hst
        exact ⟨_, moved_busy rfl (hlock rfl) rfl (by simp [Pc.unrouted])⟩
      · cases hst
        exact ⟨_, moved_busy rfl (hlock rfl) rfl (by simp [Pc.unrouted])⟩
  | reply generation =>
    cases outcome with
    | ok =>
      simp only [callStep] at hst
      split at hst
      · cases hst
        exact ⟨_, moved_busy rfl (hlock rfl) rfl (by simp [Pc.unrouted])⟩
      · cases hst
        exact ⟨_, moved_busy rfl (hlock rfl) rfl (by simp [Pc.unrouted])⟩
    | fail error =>
      cases hst
      exact ⟨_, moved_busy rfl (hlock rfl) rfl (by simp [Pc.unrouted])⟩
    | halt => cases hst
  | ready =>
    cases hst
    exact ⟨_, moved_busy rfl (hlock rfl) rfl (by simp [Pc.unrouted])⟩
  | fault error =>
    cases hst
    refine ⟨_, moved_apart rfl (hlock rfl) (hapart rfl) ?_⟩
    intro _ _ hpc
    cases hpc
    exact .inr ⟨rfl, rfl⟩
  | returned result =>
    cases hst
    exact ⟨_, moved_idle rfl (after_holds _ _)⟩
  | failed error =>
    simp only [callStep] at hst
    split at hst
    · cases hst
      exact ⟨_, moved_idle rfl rfl⟩
    · cases hst
      exact ⟨_, moved_idle rfl rfl⟩
  | refault error =>
    cases hst
    exact ⟨_, moved_idle rfl rfl⟩
  | done result => cases hst


theorem Milder.of_kept {s s' : St} (hlock : s'.lifecycle = s.lifecycle)
    (hsession : s'.session = s.session) (hroute : s'.midiRoute = s.midiRoute) : Milder s s' :=
  ⟨hlock, .inl hsession, .inl hroute⟩

/-- The published status stays. -/
def SameStatus (s s' : St) : Prop := s'.state = s.state ∧ s'.lastExit = s.lastExit

/-- What a call without the lock does: it takes the lock, if nobody has it, or
it changes next to nothing. -/
theorem call_idle {s s' : St} {i : Nat} {c : Call} {outcome : Outcome} (hidle : c.pc.holds = false)
    (hst : callStep s i c outcome = some s') :
    (s.lifecycle = none ∨ Milder s s') ∧ (SameStatus s s' ∨ ∃ error, c.pc = .refault error) := by
  obtain ⟨kind, generation, pc⟩ := c
  cases pc with
  | entering =>
    cases hst
    exact ⟨.inr ⟨rfl, .inl rfl, .inr rfl⟩, .inl ⟨rfl, rfl⟩⟩
  | waiting =>
    simp only [callStep] at hst
    split at hst
    · rename_i hfree
      cases hst
      exact ⟨.inl hfree, .inl ⟨rfl, rfl⟩⟩
    · cases hst
  | failed error =>
    simp only [callStep] at hst
    split at hst
    · cases hst
      exact ⟨.inr (.of_kept rfl rfl rfl), .inl ⟨rfl, rfl⟩⟩
    · cases hst
      exact ⟨.inr (.of_kept rfl rfl rfl), .inl ⟨rfl, rfl⟩⟩
  | refault error =>
    cases hst
    exact ⟨.inr (.of_kept rfl rfl rfl), .inr ⟨error, rfl⟩⟩
  | done result => cases hst
  | _ => cases hidle

/-- The calls that do not take the step. -/
theorem call_others {s s' : St} (I : Inv s) {i : Nat} {c : Call} {outcome : Outcome}
    (hi : s.calls[i]? = some c) (hst : callStep s i c outcome = some s') {j : Nat} {d : Call}
    (hj : s.calls[j]? = some d) (hne : j ≠ i) : CallOk s' j d := by
  cases hholds : c.pc.holds with
  | true => exact .of_idle (I.idle ((I i c hi).lifecycle hholds) hj hne)
  | false =>
    cases (call_idle hholds hst).1 with
    | inl hfree =>
      refine .of_idle ?_
      cases hother : d.pc.holds with
      | true =>
        rw [(I j d hj).lifecycle hother] at hfree
        cases hfree
      | false => rfl
    | inr hm => exact (I j d hj).milder hm

/-- A session task never stores a session or a route. -/
theorem session_milder {s s' : St} {k : Nat} {t : Session} {outcome : Outcome}
    (hst : sessionStep s k t outcome = some s') :
    Milder s s' ∧ (SameStatus s s' ∨ t.publishes outcome = true) ∧
      (s'.calls = s.calls ∨ s'.calls = s.calls ++ [⟨.restart, t.generation, .waiting⟩]) := by
  obtain ⟨generation, pc, accepted⟩ := t
  cases pc with
  | connecting =>
    cases outcome with
    | ok | fail _ =>
      cases hst
      exact ⟨.of_kept rfl rfl rfl, .inl ⟨rfl, rfl⟩, .inl rfl⟩
    | halt => cases hst
  | refused | fault =>
    cases hst
    exact ⟨.of_kept rfl rfl rfl, .inr rfl, .inl rfl⟩
  | running =>
    cases outcome with
    | fail error =>
      cases hst
      exact ⟨.of_kept rfl rfl rfl, .inl ⟨rfl, rfl⟩, .inl rfl⟩
    | ok | halt => cases hst
  | ending | judge | schedule =>
    simp only [sessionStep] at hst
    split at hst
    · cases hst
      exact ⟨.of_kept rfl rfl rfl, .inl ⟨rfl, rfl⟩, .inl rfl⟩
    · cases hst
      exact ⟨.of_kept rfl rfl rfl, .inl ⟨rfl, rfl⟩, .inl rfl⟩
  | unroute error =>
    cases hst
    exact ⟨⟨rfl, .inl rfl, .inr rfl⟩, .inl ⟨rfl, rfl⟩, .inl rfl⟩
  | unlink error =>
    cases hst
    exact ⟨⟨rfl, .inr rfl, .inl rfl⟩, .inl ⟨rfl, rfl⟩, .inl rfl⟩
  | restart =>
    cases outcome with
    | ok =>
      cases hst
      exact ⟨.of_kept rfl rfl rfl, .inl ⟨rfl, rfl⟩, .inr rfl⟩
    | fail error =>
      cases hst
      exact ⟨.of_kept rfl rfl rfl, .inr rfl, .inl rfl⟩
    | halt => cases hst
  | ended => cases hst

/-- A call that begins knows nothing yet. -/
theorem inv_concat {s s' : St} (I : Inv s) (hm : Milder s s') {c : Call} (hc : c.pc.holds = false)
    (hcalls : s'.calls = s.calls ∨ s'.calls = s.calls ++ [c]) : Inv s' := by
  intro i d hd
  cases hcalls with
  | inl e =>
    rw [e] at hd
    exact (I i d hd).milder hm
  | inr e =>
    rw [e] at hd
    obtain ⟨_, hdc⟩ | hd := getElem?_concat_cases hd
    · rw [hdc]
      exact .of_idle hc
    · exact (I i d hd).milder hm

theorem inv_step {s s' : St} {l : Label} (I : Inv s) (hst : step s l = some s') : Inv s' := by
  cases l with
  | start | stop =>
    cases hst
    exact inv_concat I (.of_kept rfl rfl rfl) rfl (.inr rfl)
  | call i outcome =>
    obtain ⟨c, hi, hst⟩ := Option.bind_eq_some_iff.mp hst
    obtain ⟨pc, hmoved⟩ := call_self (I i c hi) hi hst
    intro j e hj
    rw [hmoved.calls] at hj
    obtain ⟨hji, he⟩ | ⟨hne, hj⟩ := getElem?_set_cases hj
    · rw [hji, he]
      exact hmoved.ok
    · exact call_others I hi hst hj hne
  | session k outcome =>
    obtain ⟨t, _, hst⟩ := Option.bind_eq_some_iff.mp hst
    obtain ⟨hm, _, hcalls⟩ := session_milder hst
    exact inv_concat I hm rfl hcalls

theorem inv_inductive : system.Inductive Inv where
  init s hs := by
    intro i c hc
    rw [show s = new from hs] at hc
    simp [new] at hc
  step _ _ _ I hst := inv_step I hst

/-! ## A start that returns an error -/

def Reported (s : St) : Prop := ∀ c ∈ s.calls, Reports s c False

theorem Reports.of_status {s s' : St} {c : Call} {leaves : Prop} (h : Reports s c leaves)
    (hstatus : SameStatus s s') : Reports s' c leaves := by
  intro error hkind hpc
  rw [hstatus.1, hstatus.2]
  exact h error hkind hpc

/-- While the status is written no start is about to return. -/
theorem Reports.of_fails {s : St} {c : Call} {leaves : Prop}
    (h : c.kind = .user → c.pc.fails = false) : Reports s c leaves := by
  intro error hkind hpc
  have hfails := h hkind
  rw [hpc] at hfails
  cases hfails

theorem reported_concat {s s' : St} (h : Reported s)
    (hstatus : SameStatus s s' ∨ ∀ c ∈ s.calls, c.kind = .user → c.pc.fails = false) {c : Call}
    (hc : c.pc.fails = false) (hcalls : s'.calls = s.calls ∨ s'.calls = s.calls ++ [c]) :
    Reported s' := by
  have hold : ∀ d ∈ s.calls, Reports s' d False := by
    intro d hd
    cases hstatus with
    | inl hsame => exact (h d hd).of_status hsame
    | inr hnone => exact .of_fails (hnone d hd)
  intro d hd
  cases hcalls with
  | inl e => exact hold d (e ▸ hd)
  | inr e =>
    rw [e] at hd
    cases List.mem_append.mp hd with
    | inl hd => exact hold d hd
    | inr hd =>
      rw [List.mem_singleton.mp hd]
      exact .of_fails fun _ => hc

theorem reported_step {s s' : St} {l : Label} (I : Inv s) (h : Reported s) (hok : Orderly s l)
    (hst : step s l = some s') : Reported s' := by
  cases l with
  | start | stop =>
    cases hst
    exact reported_concat h (.inl ⟨rfl, rfl⟩) rfl (.inr rfl)
  | call i outcome =>
    obtain ⟨c, hi, hst⟩ := Option.bind_eq_some_iff.mp hst
    obtain ⟨pc, hmoved⟩ := call_self (I i c hi) hi hst
    intro d hd
    obtain ⟨j, hj⟩ := List.mem_iff_getElem?.mp hd
    rw [hmoved.calls] at hj
    obtain ⟨_, he⟩ | ⟨hne, hj⟩ := getElem?_set_cases hj
    · rw [he]
      intro error hkind hpc
      obtain ⟨hleaves, e, hfail⟩ | hstatus := hmoved.reports error hkind hpc
      · have hnot := hok.leaves
        rw [hfail] at hnot
        simp [leaves, hi, hleaves, show c.kind = .user from hkind] at hnot
      · exact .inr hstatus
    · cases hholds : c.pc.holds with
      | true =>
        refine .of_fails fun _ => ?_
        have hidle := I.idle ((I i c hi).lifecycle hholds) hj hne
        cases hd : d.pc with
        | returned result =>
          rw [hd] at hidle
          cases hidle
        | _ => rfl
      | false =>
        have hmem := List.mem_of_getElem? hj
        cases (call_idle hholds hst).2 with
        | inl hsame => exact (h d hmem).of_status hsame
        | inr hrefault =>
          obtain ⟨error, hpc⟩ := hrefault
          exact .of_fails (hok.publishes (by simp [publishes, hi, hpc, Pc.refaults]) d hmem)
  | session k outcome =>
    obtain ⟨t, ht, hst⟩ := Option.bind_eq_some_iff.mp hst
    obtain ⟨_, hstatus, hcalls⟩ := session_milder hst
    refine reported_concat h ?_ rfl hcalls
    cases hstatus with
    | inl hsame => exact .inl hsame
    | inr hpublishes => exact .inr (hok.publishes (by simpa [publishes, ht] using hpublishes))

theorem reported_inductive : (system.restrict Orderly).InductiveUnder Inv Reported where
  init s hs := by
    intro c hc
    rw [show s = new from hs] at hc
    cases hc
  step _ _ _ I h hst := reported_step I h hst.1 hst.2

/-- A user's start that is about to return an error. What another request
does in the meantime makes no difference, as the start still has the lock. -/
theorem start_failures (s : St) (hs : (system.restrict Orderly).Reachable s) (i : Nat) (c : Call)
    (error : String) (hi : s.calls[i]? = some c) (hkind : c.kind = .user)
    (hpc : c.pc = .returned (.error error)) :
    s.state = .faulted ∧ s.lastExit = some error ∧ s.session = none ∧ s.midiRoute = none := by
  have hreported := reported_inductive.reachable (inv_inductive.restrict Orderly) s hs
  have hapart := (inv_inductive.reachable s (LTS.reachable_of_restrict hs) i c hi).detached
    (by rw [hpc]; rfl)
  obtain hfalse | ⟨hstate, hexit⟩ := hreported c (List.mem_of_getElem? hi) error hkind hpc
  · exact hfalse.elim
  · exact ⟨hstate, hexit, hapart⟩

theorem reached {p : St → Bool} (ls : List Label) (h : (LTS.exec step new ls).any p = true) :
    ∃ s, system.Reachable s ∧ p s = true :=
  LTS.reachable_of_any ls rfl h

theorem reached_orderly {p : St → Bool} (ls : List Label)
    (h : (LTS.execOk Orderly step new ls).any p = true) :
    ∃ s, (system.restrict Orderly).Reachable s ∧ p s = true :=
  LTS.reachable_of_anyOk ls rfl h

/-- A start, up to its control pipe. -/
def begun : List Label := .start :: List.replicate 7 (.call 0 .ok)

/-- A start whose worker cannot be spawned. -/
theorem start_failures_spawn : ∃ s, (system.restrict Orderly).Reachable s ∧
    s.state = .faulted ∧ s.lastExit = some "no such file" ∧ s.session = none ∧ s.midiRoute = none := by
  obtain ⟨s, hs, hcall⟩ := @reached_orderly
    (fun s => s.calls[0]? = some ⟨.user, 1, .returned (.error "no such file")⟩)
    (begun ++ List.replicate 3 (.call 0 .ok) ++ [.call 0 (.fail "no such file"), .call 0 .ok])
    (by decide +kernel)
  exact ⟨s, hs, start_failures s hs 0 _ _ (of_decide_eq_true hcall) rfl rfl⟩

/-- The control pipe is not created, and no other request was made. -/
theorem pipe_failure : ∃ s, system.Reachable s ∧ s.lifecycleGeneration = 1 ∧
    s.calls = [⟨.user, 1, .returned (.error "access denied")⟩] ∧ s.state = .starting ∧
    s.lastExit = none := by
  obtain ⟨s, hs, hend⟩ := @reached
    (fun s => s.lifecycleGeneration = 1 ∧
      s.calls = [⟨.user, 1, .returned (.error "access denied")⟩] ∧ s.state = .starting ∧
      s.lastExit = none)
    (begun ++ [.call 0 (.fail "access denied")]) (by decide +kernel)
  exact ⟨s, hs, of_decide_eq_true hend⟩

end RtpOscMidi.L5.Supervisor
