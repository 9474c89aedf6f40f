import RtpOscMidi.Core.LTS
import RtpOscMidi.Core.Lists

/-!
# Control commands of the x86 bridge

The parent (`control_command`) and the DSP worker (`run_dsp_server`,
`service_dsp_cycle`) share two atomics, `command` and `command_status`. A
command is begun by reserving `command`, setting the status to PENDING and
storing the kind; the worker loads the kind and then the status, executes
and moves PENDING to OK or FAILED; the parent polls, and past its deadline
moves PENDING to TIMED_OUT and leaves, and only the worker clears an expired
command. The worker begins a save of its own when its editor is closed.

A step is one load, store or compare-exchange. What a native call does and
whether the block requests of the cycle are served without an error are left
open, and so is the moment of the deadline. The diagnostic texts and the
editor flags are left out.

`executions` has what the worker executed since the parent last began a
command, `ackedBy` the kind whose completion set the status, `expired` says
that an expired command has not been retired, and `replies` what the calls
returned, with the two records of that moment.
-/
namespace RtpOscMidi.L5.ControlCommands

open Core

/-- mirrors src-tauri/src/audio/remote_bridge.rs:101-104 -/
inductive Kind where
  | openEditor
  | closeEditor
  | saveState
  | prepareLiveRestore
  deriving DecidableEq, Repr

/-- mirrors src-tauri/src/audio/remote_bridge.rs:98-104 -/
inductive Command where
  | none
  | reserved
  | kind (k : Kind)
  deriving DecidableEq, Repr

/-- `idle`: before the first command.
mirrors src-tauri/src/audio/remote_bridge.rs:105-110 -/
inductive Status where
  | idle
  | pending
  | ok
  | failed
  | timedOut
  deriving DecidableEq, Repr

def Status.of (ok : Bool) : Status := if ok then .ok else .failed

/-- `control_command` between its accesses.
mirrors src-tauri/src/audio/remote_bridge.rs:880-942 -/
inductive Parent where
  | idle
  | reserve (k : Kind)
  | storePending (k : Kind)
  | announce (k : Kind)
  | poll (k : Kind)
  | expire (k : Kind)
  | clear (k : Kind) (ok : Bool)
  deriving DecidableEq, Repr

/-- An iteration of `run_dsp_server` between its accesses; `executed` is
what the native call returned, `failed` whether the cycle ends in an error.
mirrors src-tauri/src/audio/remote_bridge.rs:1404-1535,1572-1622 -/
inductive Worker where
  | idle
  | reserve
  | storePending
  | announce
  | loadCommand
  | loadStatus (k : Kind)
  | execute (k : Kind)
  | finish (k : Kind) (executed : Bool)
  | serve
  | failCommand
  | failFinish
  | saveCommand
  | saveStatus
  | capture
  | saveFinish (executed : Bool)
  | retireCommand
  | retireStatus
  | retire
  | internalEnd (failed : Bool)
  | stopped
  deriving DecidableEq, Repr

inductive Result where
  | ok
  | failed
  | timedOut
  | busy
  deriving DecidableEq, Repr

/-- What a call of `control_command` returned, what the worker had executed
since it began, and whose completion it read. -/
structure Reply where
  kind : Kind
  result : Result
  executions : List (Kind × Bool)
  ackedBy : Option Kind
  deriving DecidableEq, Repr

structure St where
  command : Command
  status : Status
  parent : Parent
  worker : Worker
  closeRequested : Bool
  internalSave : Bool
  expired : Bool
  executions : List (Kind × Bool)
  ackedBy : Option Kind
  replies : List Reply
  deriving DecidableEq, Repr

def init : St := ⟨.none, .idle, .idle, .idle, false, false, false, [], none, []⟩

inductive Lbl where
  /-- the parent calls `control_command` -/
  | control (k : Kind)
  /-- the parent's next access; `late`: its deadline has passed -/
  | parent (late : Bool)
  /-- the worker's editor window is closed -/
  | closeEditor
  | worker
  /-- the native call of the worker returns -/
  | native (ok : Bool)
  deriving DecidableEq, Repr

def reply (s : St) (k : Kind) (result : Result) : St :=
  { s with parent := .idle, replies := s.replies ++ [⟨k, result, s.executions, s.ackedBy⟩] }

/-- mirrors src-tauri/src/audio/remote_bridge.rs:880-942 -/
def parentStep (s : St) (late : Bool) : Parent → Option St
  | .idle => none
  | .reserve k =>
    some (if s.command = .none then
            { s with command := .reserved, parent := .storePending k, executions := [] }
          else reply s k .busy)
  | .storePending k => some { s with status := .pending, parent := .announce k }
  | .announce k => some { s with command := .kind k, parent := .poll k }
  | .poll k =>
    some (match s.status with
      | .ok => { s with parent := .clear k true }
      | .failed => { s with parent := .clear k false }
      | _ => if late then { s with parent := .expire k } else s)
  | .expire k =>
    some (if s.status = .pending then reply { s with status := .timedOut, expired := true } k .timedOut
          else { s with parent := .poll k })
  | .clear k ok => some (reply { s with command := .none } k (if ok then .ok else .failed))

/-- `finish_control_command`.
mirrors src-tauri/src/audio/remote_bridge.rs:944-953 -/
def finishControlCommand (s : St) (k : Kind) (ok : Bool) : St :=
  if s.status = .pending then { s with status := .of ok, ackedBy := some k } else s

/-- mirrors src-tauri/src/audio/remote_bridge.rs:1404-1535,1572-1622 -/
def workerStep (s : St) : Worker → Option St
  | .idle =>
    -- `REMOTE_EDITOR_CLOSE_REQUESTED.swap`
    some (if s.closeRequested then { s with closeRequested := false, worker := .reserve }
          else { s with worker := .loadCommand })
  | .reserve =>
    some (if s.command = .none then
            { s with command := .reserved, internalSave := true, worker := .storePending }
          else { s with closeRequested := true, worker := .loadCommand })
  | .storePending => some { s with status := .pending, worker := .announce }
  | .announce => some { s with command := .kind .saveState, worker := .loadCommand }
  | .loadCommand =>
    some { s with worker :=
      match s.command with
      | .none | .reserved | .kind .saveState => .serve
      | .kind k => .loadStatus k }
  | .loadStatus k => some { s with worker := if s.status = .pending then .execute k else .serve }
  | .execute _ => none
  | .finish k ok => some { finishControlCommand s k ok with worker := .serve }
  | .serve => none
  | .failCommand =>
    some { s with worker := if s.command = .kind .saveState then .failFinish else .internalEnd true }
  | .failFinish =>
    some { finishControlCommand s .saveState false with worker := .internalEnd true }
  | .saveCommand =>
    some { s with worker := if s.command = .kind .saveState then .saveStatus else .retireCommand }
  | .saveStatus =>
    some { s with worker := if s.status = .pending then .capture else .retireCommand }
  | .capture => none
  | .saveFinish ok => some { finishControlCommand s .saveState ok with worker := .retireCommand }
  | .retireCommand =>
    some { s with worker :=
      match s.command with
      | .none | .reserved => .internalEnd false
      | .kind _ => .retireStatus }
  | .retireStatus =>
    some { s with worker := if s.status = .timedOut then .retire else .internalEnd false }
  | .retire => some { s with command := .none, expired := false, worker := .internalEnd false }
  | .internalEnd failed =>
    let s := { s with worker := if failed then .stopped else .idle }
    some (if s.internalSave then { s with command := .none, internalSave := false } else s)
  | .stopped => none

/-- What the worker does with the return of a native call: of an executed
command, of the block requests of the cycle, or of the state capture. -/
def nativeStep (s : St) (ok : Bool) : Worker → Option St
  | .execute k =>
    some { s with executions := s.executions ++ [(k, ok)], worker := .finish k ok }
  | .serve => some { s with worker := if ok then .saveCommand else .failCommand }
  | .capture =>
    some { s with executions := s.executions ++ [(.saveState, ok)], worker := .saveFinish ok }
  | _ => none

def step (s : St) : Lbl → Option St
  | .control k => if s.parent = .idle then some { s with parent := .reserve k } else none
  | .parent late => parentStep s late s.parent
  | .closeEditor => some { s with closeRequested := true }
  | .worker => workerStep s s.worker
  | .native ok => nativeStep s ok s.worker

def lts : LTS St Lbl := .ofStep (· = init) step

/-! ## When a completion is credited to its own command -/

/-- Where the worker finds PENDING, the command it has loaded is still the
one that is owned. -/
def steady (s : St) : Lbl → Bool
  | .worker =>
    match s.worker with
    | .loadStatus k => s.status != .pending || s.command == .kind k
    | .saveStatus | .failFinish => s.status != .pending || s.command == .kind .saveState
    | _ => true
  | _ => true

/-! ## Invariant -/

/-- The parent has begun a command and not left it. -/
def Parent.owns : Parent → Bool
  | .idle | .reserve _ => false
  | _ => true

/-- The commands owned: by the parent, by the worker, or expired. -/
def owners (s : St) : Nat := s.parent.owns.toNat + s.internalSave.toNat + s.expired.toNat

/-- The completion that the status shows is that of `k`, executed since. -/
structure Polled (s : St) (k : Kind) : Prop where
  command : s.command = .kind k
  status : s.status = .pending ∨ s.status = .ok ∨ s.status = .failed
  ok : s.status = .ok → s.ackedBy = some k ∧ (k, true) ∈ s.executions
  failed : s.status = .failed → s.ackedBy = some k

def ParentOk (s : St) : Parent → Prop
  | .idle | .reserve _ => True
  | .storePending _ => s.command = .reserved
  | .announce _ => s.command = .reserved ∧ s.status = .pending
  | .poll k | .expire k => Polled s k
  | .clear k ok => Polled s k ∧ s.status = .of ok

/-- The worker's own save once it is announced. -/
def Announced (s : St) : Prop :=
  s.command = .kind .saveState ∧ (s.status = .pending ∨ s.status = .ok ∨ s.status = .failed)

/-- The command the worker executes is owned, and no other takes its place
before the worker is done. -/
def Held (s : St) (k : Kind) : Prop :=
  s.command = .kind k ∧ (s.status = .pending ∨ s.status = .timedOut)

def WorkerOk (s : St) : Worker → Prop
  | .idle | .reserve | .stopped => s.internalSave = false
  | .storePending => s.internalSave = true ∧ s.command = .reserved
  | .announce => s.internalSave = true ∧ s.command = .reserved ∧ s.status = .pending
  | .execute k => (s.internalSave = true → Announced s) ∧ Held s k
  | .finish k ok => (s.internalSave = true → Announced s) ∧ Held s k ∧ (k, ok) ∈ s.executions
  | .capture => (s.internalSave = true → Announced s) ∧ Held s .saveState
  | .saveFinish ok =>
    (s.internalSave = true → Announced s) ∧ Held s .saveState ∧ (.saveState, ok) ∈ s.executions
  | .retireStatus =>
    (s.internalSave = true → Announced s) ∧ (s.status = .timedOut → s.expired = true)
  | .retire => (s.internalSave = true → Announced s) ∧ s.expired = true
  | _ => s.internalSave = true → Announced s

/-- An Ok answers to an execution of its own command in its own time. -/
def Reply.Answered (r : Reply) : Prop :=
  (r.result = .ok → r.ackedBy = some r.kind ∧ (r.kind, true) ∈ r.executions) ∧
    (r.result = .failed → r.ackedBy = some r.kind)

structure Inv (s : St) : Prop where
  count : owners s = if s.command = .none then 0 else 1
  parent : ParentOk s s.parent
  expired : s.expired = true → s.status = .timedOut ∧ ∃ k, s.command = .kind k
  worker : WorkerOk s s.worker
  replies : ∀ r ∈ s.replies, r.Answered

theorem owners_le {s : St} (I : Inv s) : owners s ≤ 1 := by
  have := I.count
  split at this <;> omega

theorem exclusive : ∀ p i e : Bool, p.toNat + i.toNat + e.toNat ≤ 1 →
    (p = true → i = false ∧ e = false) ∧ (i = true → p = false ∧ e = false) ∧
      (e = true → p = false ∧ i = false) := by
  decide

theorem unowned : ∀ p i e : Bool, p.toNat + i.toNat + e.toNat = 0 →
    p = false ∧ i = false ∧ e = false := by
  decide

/-- The three owners exclude each other. -/
theorem Inv.alone {s : St} (I : Inv s) :
    (s.parent.owns = true → s.internalSave = false ∧ s.expired = false) ∧
    (s.internalSave = true → s.parent.owns = false ∧ s.expired = false) ∧
    (s.expired = true → s.parent.owns = false ∧ s.internalSave = false) :=
  exclusive _ _ _ (owners_le I)

theorem Inv.free {s : St} (I : Inv s) (h : s.command = .none) :
    s.parent.owns = false ∧ s.internalSave = false ∧ s.expired = false := by
  have ho := I.count
  rw [if_pos h] at ho
  exact unowned _ _ _ ho

/-- A step that changes no owner and not the command. -/
theorem Inv.recount {s s' : St} (I : Inv s) (hp : s'.parent.owns = s.parent.owns)
    (hi : s'.internalSave = s.internalSave) (he : s'.expired = s.expired)
    (hc : s'.command = s.command) : owners s' = if s'.command = .none then 0 else 1 := by
  unfold owners
  rw [hp, hi, he, hc]
  exact I.count

theorem parentOk_of_not_owns {s : St} {p : Parent} (h : p.owns = false) : ParentOk s p := by
  cases p with
  | idle | reserve k => trivial
  | _ => cases h

theorem ParentOk.congr {s s' : St} {p : Parent} (h : ParentOk s p)
    (hc : s'.command = s.command) (hs : s'.status = s.status)
    (hx : s'.executions = s.executions) (ha : s'.ackedBy = s.ackedBy) : ParentOk s' p := by
  have hpolled : ∀ k, Polled s k → Polled s' k := by
    rintro k ⟨h1, h2, h3, h4⟩
    exact ⟨hc.trans h1, by rw [hs]; exact h2, by rw [hs, hx, ha]; exact h3, by rw [hs, ha]; exact h4⟩
  cases p with
  | idle | reserve k => trivial
  | storePending k => exact hc.trans h
  | announce k => exact ⟨hc.trans h.1, hs.trans h.2⟩
  | poll k | expire k => exact hpolled k h
  | clear k ok => exact ⟨hpolled k h.1, hs.trans h.2⟩

/-! ## Parent steps -/

/-- What the parent may do to a command it owns or takes, as the worker
sees it. -/
theorem WorkerOk.parent {s s' : St} {w : Worker} (h : WorkerOk s w)
    (hi : s.internalSave = false) (hi' : s'.internalSave = false)
    (hh : ∀ k, Held s k → Held s' k ∧ s'.executions = s.executions)
    (ht : s'.status = .timedOut → (s.status = .timedOut → s.expired = true) → s'.expired = true)
    (he : s.expired = true → s'.expired = true) : WorkerOk s' w := by
  have ha : s'.internalSave = true → Announced s' := by
    rw [hi']
    nofun
  cases w with
  | idle | reserve | stopped => exact hi'
  | storePending | announce =>
    have := h.1
    rw [hi] at this
    cases this
  | execute k => exact ⟨ha, (hh k h.2).1⟩
  | finish k ok => exact ⟨ha, (hh k h.2.1).1, by rw [(hh k h.2.1).2]; exact h.2.2⟩
  | capture => exact ⟨ha, (hh _ h.2).1⟩
  | saveFinish ok => exact ⟨ha, (hh _ h.2.1).1, by rw [(hh _ h.2.1).2]; exact h.2.2⟩
  | retireStatus => exact ⟨ha, fun hs => ht hs h.2⟩
  | retire => exact ⟨ha, he h.2⟩
  | loadCommand | loadStatus k | serve | failCommand | failFinish | saveCommand | saveStatus
  | retireCommand | internalEnd failed => exact ha

/-- A reply is answered when the call ends in Ok or Failed with the status
it has polled. -/
theorem answered_append {s : St} {k : Kind} {result : Result} (h : ∀ r ∈ s.replies, r.Answered)
    (hr : Reply.Answered ⟨k, result, s.executions, s.ackedBy⟩) :
    ∀ r ∈ s.replies ++ [⟨k, result, s.executions, s.ackedBy⟩], r.Answered := by
  intro r hm
  rcases List.mem_append.mp hm with hm | hm
  · exact h r hm
  · rw [List.mem_singleton.mp hm]
    exact hr

theorem inv_parentStep {s s' : St} {late : Bool} (I : Inv s)
    (hst : parentStep s late s.parent = some s') : Inv s' := by
  have hp := I.parent
  obtain ⟨halone, -, -⟩ := I.alone
  cases hu : s.parent with
  | idle => simp [hu, parentStep] at hst
  | reserve k =>
    rw [hu] at hst
    simp only [parentStep, Option.some.injEq] at hst; subst hst
    split
    · rename_i hc
      obtain ⟨-, hi, he⟩ := I.free hc
      refine ⟨?_, rfl, ?_, I.worker.parent hi hi ?_ ?_ id, I.replies⟩
      · simp [owners, hi, he, Parent.owns]
      · intro h
        rw [he] at h
        cases h
      · rintro k ⟨hk, -⟩
        rw [hc] at hk
        cases hk
      · exact fun hs hw => hw hs
    · exact ⟨I.recount (by rw [hu]; rfl) rfl rfl rfl, trivial, I.expired, I.worker,
        answered_append I.replies ⟨nofun, nofun⟩⟩
  | storePending k =>
    rw [hu] at hst hp halone
    obtain ⟨hi, he⟩ := halone rfl
    have hc : s.command = .reserved := hp
    simp only [parentStep, Option.some.injEq] at hst; subst hst
    refine ⟨?_, ⟨hc, rfl⟩, ?_, I.worker.parent hi hi ?_ nofun id, I.replies⟩
    · simp [owners, hi, he, hc, Parent.owns]
    · intro h
      rw [he] at h
      cases h
    · rintro k ⟨hk, -⟩
      rw [hc] at hk
      cases hk
  | announce k =>
    rw [hu] at hst hp halone
    obtain ⟨hi, he⟩ := halone rfl
    obtain ⟨hc, hs⟩ := hp
    simp only [parentStep, Option.some.injEq] at hst; subst hst
    refine ⟨?_, ⟨rfl, .inl hs, ?_, ?_⟩, ?_, I.worker.parent hi hi ?_ ?_ id, I.replies⟩
    · simp [owners, hi, he, Parent.owns]
    · intro h
      rw [hs] at h
      cases h
    · intro h
      rw [hs] at h
      cases h
    · intro h
      rw [he] at h
      cases h
    · rintro k ⟨hk, -⟩
      rw [hc] at hk
      cases hk
    · intro h
      rw [hs] at h
      cases h
  | poll k =>
    rw [hu] at hst hp
    have hP : Polled s k := hp
    simp only [parentStep, Option.some.injEq] at hst; subst hst
    have hown : ∀ p : Parent, p.owns = true →
        owners { s with parent := p } = if s.command = .none then 0 else 1 :=
      fun p h => I.recount (by rw [hu]; exact h) rfl rfl rfl
    split
    · rename_i hs
      exact ⟨hown _ rfl, ⟨{ hP with }, hs⟩, I.expired, I.worker, I.replies⟩
    · rename_i hs
      exact ⟨hown _ rfl, ⟨{ hP with }, hs⟩, I.expired, I.worker, I.replies⟩
    · split
      · exact ⟨hown _ rfl, { hP with }, I.expired, I.worker, I.replies⟩
      · exact I
  | expire k =>
    rw [hu] at hst hp halone
    have hP : Polled s k := hp
    obtain ⟨hi, he⟩ := halone rfl
    simp only [parentStep, Option.some.injEq] at hst; subst hst
    split
    · rename_i hs
      refine ⟨?_, trivial, fun _ => ⟨rfl, k, hP.command⟩, I.worker.parent hi hi ?_ ?_ ?_,
        answered_append I.replies ⟨nofun, nofun⟩⟩
      · simp [owners, reply, hi, hP.command, Parent.owns]
      · rintro k' ⟨hk, -⟩
        exact ⟨⟨hk, .inr rfl⟩, rfl⟩
      · exact fun _ _ => rfl
      · exact fun _ => rfl
    · exact ⟨I.recount (by rw [hu]; rfl) rfl rfl rfl, { hP with }, I.expired, I.worker,
        I.replies⟩
  | clear k ok =>
    rw [hu] at hst hp halone
    obtain ⟨hP, hs⟩ := hp
    obtain ⟨hi, he⟩ := halone rfl
    have hne : s.status ≠ .pending ∧ s.status ≠ .timedOut := by
      rw [hs]
      cases ok <;> exact ⟨nofun, nofun⟩
    simp only [parentStep, Option.some.injEq] at hst; subst hst
    refine ⟨?_, trivial, ?_, I.worker.parent hi hi ?_ ?_ id, answered_append I.replies ?_⟩
    · simp [owners, reply, hi, he, Parent.owns]
    · intro h
      rw [reply, he] at h
      cases h
    · rintro k' ⟨-, hk | hk⟩
      · exact absurd hk hne.1
      · exact absurd hk hne.2
    · exact fun h => absurd h hne.2
    · cases ok with
      | true => exact ⟨fun _ => hP.ok hs, nofun⟩
      | false => exact ⟨nofun, fun _ => hP.failed hs⟩

/-! ## Worker steps -/

/-- The worker moves on and touches nothing. -/
theorem Inv.moves {s : St} {w : Worker} (I : Inv s) (hw : WorkerOk s w) :
    Inv { s with worker := w } :=
  ⟨I.count, I.parent.congr rfl rfl rfl rfl, I.expired, by cases w <;> exact hw, I.replies⟩

theorem Inv.closing {s : St} (I : Inv s) (b : Bool) : Inv { s with closeRequested := b } :=
  ⟨I.count, I.parent.congr rfl rfl rfl rfl, I.expired, by
    have hw := I.worker
    cases hu : s.worker <;> rw [hu] at hw <;> exact hw, I.replies⟩

/-- A completion is credited to the command that is owned. -/
theorem ParentOk.finish {s : St} {p : Parent} {k : Kind} {ok : Bool} (h : ParentOk s p)
    (hc : s.status = .pending → s.command = .kind k)
    (hx : s.status = .pending → ok = true → (k, true) ∈ s.executions) :
    ParentOk (finishControlCommand s k ok) p := by
  unfold finishControlCommand
  split
  · rename_i hs
    have hpolled : ∀ k', Polled s k' →
        Polled { s with status := .of ok, ackedBy := some k } k' := by
      intro k' hP
      have hk : k' = k := by
        have := hP.command
        rw [hc hs] at this
        cases this
        rfl
      subst hk
      refine ⟨hP.command, ?_, fun h => ⟨rfl, ?_⟩, fun _ => rfl⟩
      · cases ok
        · exact .inr (.inr rfl)
        · exact .inr (.inl rfl)
      · cases ok
        · cases h
        · exact hx hs rfl
    cases p with
    | idle | reserve k' => trivial
    | storePending k' =>
      have : s.command = .reserved := h
      rw [hc hs] at this
      cases this
    | announce k' =>
      have := h.1
      rw [hc hs] at this
      cases this
    | poll k' | expire k' => exact hpolled k' h
    | clear k' ok' =>
      have := h.2
      rw [hs] at this
      cases ok' <;> cases this
  · exact h

/-- `finish_control_command` by a worker that goes on to `w`. -/
theorem Inv.finish {s : St} {k : Kind} {ok : Bool} {w : Worker} (I : Inv s)
    (hc : s.status = .pending → s.command = .kind k)
    (hx : s.status = .pending → ok = true → (k, true) ∈ s.executions)
    (hw : ∀ s', (s'.internalSave = true → Announced s') → WorkerOk s' w)
    (ha : s.internalSave = true → Announced s) :
    Inv { finishControlCommand s k ok with worker := w } := by
  have J : Inv { finishControlCommand s k ok with worker := .serve } := by
    have hp := I.parent.finish hc hx
    unfold finishControlCommand at hp ⊢
    split
    · rename_i hs
      rw [if_pos hs] at hp
      refine ⟨I.count, hp.congr rfl rfl rfl rfl, ?_, ?_, I.replies⟩
      · intro he
        have := (I.expired he).1
        rw [hs] at this
        cases this
      · intro hi
        refine ⟨(ha hi).1, ?_⟩
        cases ok
        · exact .inr (.inr rfl)
        · exact .inr (.inl rfl)
    · exact I.moves ha
  exact J.moves (hw _ J.worker)

theorem not_internal (s' : St) (h : s'.internalSave = false) :
    s'.internalSave = true → Announced s' := by
  rw [h]
  nofun

/-- Only an expired command shows a kind together with TIMED_OUT. -/
theorem Inv.expired_of_timedOut {s : St} {k : Kind} (I : Inv s) (hc : s.command = .kind k)
    (ha : s.internalSave = true → Announced s) (hs : s.status = .timedOut) :
    s.expired = true := by
  have hcount := I.count
  rw [hc, if_neg nofun] at hcount
  have hi : s.internalSave = false := by
    cases h : s.internalSave with
    | false => rfl
    | true =>
      obtain ⟨-, h⟩ := ha h
      simp [hs] at h
  have hp : s.parent.owns = false := by
    have hp := I.parent
    cases hu : s.parent with
    | idle | reserve k => rfl
    | storePending k =>
      rw [hu] at hp
      exact absurd (hc.symm.trans hp) nofun
    | announce k =>
      rw [hu] at hp
      exact absurd (hc.symm.trans hp.1) nofun
    | poll k | expire k =>
      rw [hu] at hp
      have := Polled.status hp
      simp [hs] at this
    | clear k ok =>
      rw [hu] at hp
      have := hp.1.status
      simp [hs] at this
  unfold owners at hcount
  cases he : s.expired with
  | true => rfl
  | false => simp [hi, hp, he] at hcount

theorem inv_workerStep {s s' : St} (I : Inv s) (hok : steady s .worker = true)
    (hst : workerStep s s.worker = some s') : Inv s' := by
  have hw := I.worker
  obtain ⟨-, hint, hexp⟩ := I.alone
  cases hu : s.worker with
  | idle =>
    rw [hu] at hst hw
    simp only [workerStep, Option.some.injEq] at hst; subst hst
    split
    · exact (I.closing false).moves hw
    · exact I.moves (not_internal s hw)
  | reserve =>
    rw [hu] at hst hw
    simp only [workerStep, Option.some.injEq] at hst; subst hst
    split
    · rename_i hc
      obtain ⟨hp, hi, he⟩ := I.free hc
      refine ⟨?_, parentOk_of_not_owns hp, ?_, ⟨rfl, rfl⟩, I.replies⟩
      · simp [owners, hp, he]
      · intro h
        rw [he] at h
        cases h
    · exact (I.closing true).moves (not_internal _ hw)
  | storePending =>
    rw [hu] at hst hw
    obtain ⟨hi, hc⟩ := hw
    obtain ⟨hp, he⟩ := hint hi
    simp only [workerStep, Option.some.injEq] at hst; subst hst
    refine ⟨I.count, parentOk_of_not_owns hp, ?_, ⟨hi, hc, rfl⟩, I.replies⟩
    intro h
    rw [he] at h
    cases h
  | announce =>
    rw [hu] at hst hw
    obtain ⟨hi, hc, hs⟩ := hw
    obtain ⟨hp, he⟩ := hint hi
    simp only [workerStep, Option.some.injEq] at hst; subst hst
    refine ⟨?_, parentOk_of_not_owns hp, ?_, fun _ => ⟨rfl, .inl hs⟩, I.replies⟩
    · simp [owners, hp, hi, he]
    · intro h
      rw [he] at h
      cases h
  | loadCommand =>
    rw [hu] at hst hw
    simp only [workerStep, Option.some.injEq] at hst; subst hst
    split <;> exact I.moves hw
  | loadStatus k =>
    rw [hu] at hst hw
    simp only [workerStep, Option.some.injEq] at hst; subst hst
    split
    · rename_i hs
      have hc : s.command = .kind k := by simpa [steady, hu, hs] using hok
      exact I.moves ⟨hw, hc, .inl hs⟩
    · exact I.moves hw
  | execute k => simp [hu, workerStep] at hst
  | finish k ok =>
    rw [hu] at hst hw
    obtain ⟨ha, hh, hx⟩ := hw
    simp only [workerStep, Option.some.injEq] at hst; subst hst
    exact I.finish (fun _ => hh.1) (fun _ h => h ▸ hx) (fun _ h => h) ha
  | serve => simp [hu, workerStep] at hst
  | failCommand =>
    rw [hu] at hst hw
    simp only [workerStep, Option.some.injEq] at hst; subst hst
    split <;> exact I.moves hw
  | failFinish =>
    rw [hu] at hst hw
    simp only [workerStep, Option.some.injEq] at hst; subst hst
    have hc : s.status = .pending → s.command = .kind .saveState := by
      intro hs
      simpa [steady, hu, hs] using hok
    exact I.finish hc nofun (fun _ h => h) hw
  | saveCommand =>
    rw [hu] at hst hw
    simp only [workerStep, Option.some.injEq] at hst; subst hst
    split <;> exact I.moves hw
  | saveStatus =>
    rw [hu] at hst hw
    simp only [workerStep, Option.some.injEq] at hst; subst hst
    split
    · rename_i hs
      have hc : s.command = .kind .saveState := by simpa [steady, hu, hs] using hok
      exact I.moves ⟨hw, hc, .inl hs⟩
    · exact I.moves hw
  | capture => simp [hu, workerStep] at hst
  | saveFinish ok =>
    rw [hu] at hst hw
    obtain ⟨ha, hh, hx⟩ := hw
    simp only [workerStep, Option.some.injEq] at hst; subst hst
    exact I.finish (fun _ => hh.1) (fun _ h => h ▸ hx) (fun _ h => h) ha
  | retireCommand =>
    rw [hu] at hst hw
    simp only [workerStep, Option.some.injEq] at hst; subst hst
    split
    · exact I.moves hw
    · exact I.moves hw
    · rename_i k hc
      exact I.moves ⟨hw, I.expired_of_timedOut hc hw⟩
  | retireStatus =>
    rw [hu] at hst hw
    simp only [workerStep, Option.some.injEq] at hst; subst hst
    split
    · rename_i hs
      exact I.moves ⟨hw.1, hw.2 hs⟩
    · exact I.moves hw.1
  | retire =>
    rw [hu] at hst hw
    obtain ⟨hp, hi⟩ := hexp hw.2
    simp only [workerStep, Option.some.injEq] at hst; subst hst
    refine ⟨?_, parentOk_of_not_owns hp, nofun, not_internal _ hi, I.replies⟩
    simp [owners, hp, hi]
  | internalEnd failed =>
    rw [hu] at hst hw
    simp only [workerStep, Option.some.injEq] at hst; subst hst
    split
    · rename_i hi
      obtain ⟨hp, he⟩ := hint hi
      refine ⟨?_, parentOk_of_not_owns hp, ?_, ?_, I.replies⟩
      · simp [owners, hp, he]
      · intro h
        rw [he] at h
        cases h
      · cases failed <;> rfl
    · rename_i hi
      have hi : s.internalSave = false := by simpa using hi
      refine I.moves ?_
      cases failed <;> exact hi
  | stopped => simp [hu, workerStep] at hst

theorem inv_nativeStep {s s' : St} {ok : Bool} (I : Inv s)
    (hst : nativeStep s ok s.worker = some s') : Inv s' := by
  have hw := I.worker
  -- an execution only adds to what was executed
  have hadd : ∀ {k : Kind} {w : Worker},
      WorkerOk { s with executions := s.executions ++ [(k, ok)] } w →
      Inv { s with executions := s.executions ++ [(k, ok)], worker := w } := by
    intro k w hw
    refine ⟨I.count, ?_, I.expired, by cases w <;> exact hw, I.replies⟩
    have hp := I.parent
    have hpolled : ∀ k', Polled s k' →
        Polled { s with executions := s.executions ++ [(k, ok)] } k' :=
      fun k' hP => { hP with
        ok := fun h => ⟨(hP.ok h).1, List.mem_append_left _ (hP.ok h).2⟩ }
    cases hu : s.parent with
    | idle | reserve k' => trivial
    | storePending k' | announce k' =>
      rw [hu] at hp
      exact hp
    | poll k' | expire k' =>
      rw [hu] at hp
      exact { hpolled k' hp with }
    | clear k' ok' =>
      rw [hu] at hp
      exact ⟨{ hpolled k' hp.1 with }, hp.2⟩
  cases hu : s.worker with
  | execute k =>
    rw [hu] at hst hw
    simp only [nativeStep, Option.some.injEq] at hst; subst hst
    exact hadd ⟨hw.1, hw.2, by simp⟩
  | capture =>
    rw [hu] at hst hw
    simp only [nativeStep, Option.some.injEq] at hst; subst hst
    exact hadd ⟨hw.1, hw.2, by simp⟩
  | serve =>
    rw [hu] at hst hw
    simp only [nativeStep, Option.some.injEq] at hst; subst hst
    cases ok <;> exact I.moves hw
  | _ => simp [hu, nativeStep] at hst

theorem inv_step {s s' : St} {l : Lbl} (I : Inv s) (hok : steady s l = true)
    (hst : step s l = some s') : Inv s' := by
  cases l with
  | control k =>
    simp only [step] at hst
    split at hst
    · rename_i hu
      simp only [Option.some.injEq] at hst; subst hst
      refine ⟨I.recount (by rw [hu]; rfl) rfl rfl rfl, trivial, I.expired, ?_, I.replies⟩
      have hw := I.worker
      cases hu : s.worker <;> rw [hu] at hw <;> exact hw
    · cases hst
  | parent late => exact inv_parentStep I hst
  | closeEditor =>
    simp only [step, Option.some.injEq] at hst; subst hst
    exact I.closing true
  | worker => exact inv_workerStep I hok hst
  | native ok => exact inv_nativeStep I hst

theorem inv_inductive : (lts.restrict fun s l => steady s l = true).Inductive Inv where
  init := by
    rintro s rfl
    exact ⟨rfl, trivial, nofun, rfl, nofun⟩
  step _ _ _ I hst := inv_step I hst.1 hst.2

/-! ## Headline property -/

/-- In every run where the worker finds PENDING only for the command it has
loaded: an Ok answers to an execution of its own kind since the call began,
no call is answered by the completion of another kind, no command is begun
over an expired one, and at most one is owned. -/
theorem commands_answered (s : St)
    (h : (lts.restrict fun s l => steady s l = true).Reachable s) :
    (∀ r ∈ s.replies, r.result = .ok →
      r.ackedBy = some r.kind ∧ (r.kind, true) ∈ r.executions) ∧
    (∀ r ∈ s.replies, r.result = .failed → r.ackedBy = some r.kind) ∧
    (s.command = .none → s.expired = false) ∧
    s.parent.owns.toNat + s.internalSave.toNat + s.expired.toNat ≤ 1 := by
  have I := inv_inductive.reachable s h
  exact ⟨fun r hr => (I.replies r hr).1, fun r hr => (I.replies r hr).2, fun hc => (I.free hc).2.2,
    owners_le I⟩

/-! ## Non-vacuity and the replaced command -/

/-- The parent's call up to the stored kind. -/
def beginCommand (k : Kind) : List Lbl :=
  [.control k, .parent false, .parent false, .parent false]

/-- A worker iteration that executes the command it has loaded. -/
def executeCommand : List Lbl :=
  [.worker, .native true, .worker, .native true, .worker, .worker, .worker, .worker]

/-- One command is executed and answered, a second one expires and is
retired. -/
def traceExpire : List Lbl :=
  beginCommand .openEditor ++ [.worker, .worker] ++ executeCommand ++
    [.parent false, .parent false] ++ beginCommand .saveState ++ [.parent true, .parent true] ++
    [.worker, .worker, .native true, .worker, .worker, .worker, .worker, .worker, .worker]

def retired : St :=
  { init with
    status := .timedOut, ackedBy := some .openEditor,
    replies := [⟨.openEditor, .ok, [(.openEditor, true)], some .openEditor⟩,
      ⟨.saveState, .timedOut, [], some .openEditor⟩] }

theorem traceExpire_result :
    LTS.execOk (fun s l => steady s l = true) step init traceExpire = some retired := by decide

/-- The reply to the executed command. -/
def opened : Reply := ⟨.openEditor, .ok, [(.openEditor, true)], some .openEditor⟩

theorem retired_answered :
    opened.ackedBy = some opened.kind ∧ (opened.kind, true) ∈ opened.executions :=
  (commands_answered retired (LTS.reachable_of_execOk traceExpire rfl traceExpire_result)).1
    opened (by decide) rfl

/-- The worker loads the kind of a command it has completed; the parent
reads the Ok, clears the command and begins another; the worker then reads
PENDING, executes the first kind again and completes the second command. -/
def traceReplace : List Lbl :=
  beginCommand .openEditor ++ [.worker, .worker] ++ executeCommand ++ [.worker, .worker] ++
    [.parent false, .parent false] ++ beginCommand .closeEditor ++ executeCommand ++
    [.parent false, .parent false]

def replaced : St :=
  { init with
    status := .ok, executions := [(.openEditor, true)], ackedBy := some .openEditor,
    replies := [⟨.openEditor, .ok, [(.openEditor, true)], some .openEditor⟩,
      ⟨.closeEditor, .ok, [(.openEditor, true)], some .openEditor⟩] }

theorem traceReplace_result : LTS.exec step init traceReplace = some replaced := by decide

/-- An Ok for a command that was never executed. -/
theorem replaced_unanswered :
    ¬∀ s, lts.Reachable s → ∀ r ∈ s.replies, r.result = .ok →
      r.ackedBy = some r.kind ∧ (r.kind, true) ∈ r.executions := by
  intro h
  have := h replaced (LTS.reachable_of_exec traceReplace rfl traceReplace_result)
    ⟨.closeEditor, .ok, [(.openEditor, true)], some .openEditor⟩ (by decide) rfl
  exact absurd this.1 (by decide)

end RtpOscMidi.L5.ControlCommands
