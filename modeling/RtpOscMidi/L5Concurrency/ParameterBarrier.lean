import RtpOscMidi.Core.LTS
import RtpOscMidi.Core.Coalesce

/-!
# The parameter barrier

Parameter commands are numbered at admission and queued. The audio callback
drains the queue, keeps the last command of each parameter, applies them and
raises `parameter_applied_sequence`, or `parameter_failed_sequence` when the
plugin fails. `wait_for_parameters` waits until what was accepted before it
began is applied.

This module has the front that all back ends share (`Front`) and the callback
of the VST2 and VST3 back ends; the x86 bridge is in `BridgeParameters`. A
step is one access to the queue or to a counter, or one plugin call, which may
succeed, fail or panic. A value is of any type `V`: the check that it is
finite and its clamp come before.

`sent` has every command that was queued, `batches` what each callback has
acknowledged or failed, `done` what the plugin has applied and `lost` what it
could not apply.
-/
namespace RtpOscMidi.L5.ParameterBarrier

open Core

variable {V : Type}

/-- The fixed part of a parameter. -/
structure Metadata where
  id : Nat
  flags : Nat
  stepCount : Int
  deriving DecidableEq, Repr

/-- mirrors src-tauri/src/audio/runtime_state.rs:437-444 -/
structure ParameterCommand (V : Type) where
  sequence : Nat
  index : Nat
  metadata : Metadata
  value : V
  deriving DecidableEq, Repr

/-! ## Admission and the barrier -/

/-- `set_vst_parameter` and `queue_restored_parameters` after their checks:
what is still to be queued, and the number to be stored first. -/
inductive Admission (V : Type) where
  | idle
  | send (commands : List (ParameterCommand V))
  | store (sequence : Nat) (commands : List (ParameterCommand V))
  deriving DecidableEq, Repr

/-- `wait_for_parameters` with the number it has loaded first. -/
inductive Wait where
  | idle
  | failed (accepted : Nat)
  | applied (accepted : Nat)
  | ok (accepted : Nat)
  | err
  deriving DecidableEq, Repr

structure Front (V : Type) where
  accepted : Nat
  failed : Nat
  applied : Nat
  queue : List (ParameterCommand V)
  admission : Admission V
  wait : Wait
  sent : List (ParameterCommand V)
  deriving DecidableEq, Repr

def Front.init (V : Type) : Front V := ⟨0, 0, 0, [], .idle, .idle, []⟩

inductive FrontLbl (V : Type) where
  | setVstParameter (index : Nat) (value : V)
  | queueRestoredParameters (restored : List (Nat × V))
  | admission
  | waitForParameters
  /-- `late`: the deadline has passed when it is looked at -/
  | wait (late : Bool)
  deriving DecidableEq, Repr

/-- mirrors src-tauri/src/audio/runtime_state.rs:432 -/
def parameterCommandCapacity : Nat := 4096

def readOnly (m : Metadata) : Bool := m.flags.testBit 1

/-- The commands for a list of values, numbered from `first + 1`; none when
the metadata of one of them is missing.
mirrors src-tauri/src/audio/game_mode.rs:486-500 -/
def commandsFrom (cache : List Metadata) : Nat → List (Nat × V) → Option (List (ParameterCommand V))
  | _, [] => some []
  | first, (index, value) :: rest => do
    let metadata ← cache[index]?
    let commands ← commandsFrom cache (first + 1) rest
    return ⟨first + 1, index, metadata, value⟩ :: commands

/-- What admission queues, `none` when a check fails. -/
def admitted (cache : List Metadata) (f : Front V) : FrontLbl V → Option (List (ParameterCommand V))
  | .setVstParameter index value =>
    if f.accepted + 1 < 2 ^ 64 then
      (commandsFrom cache f.accepted [(index, value)]).filter fun commands =>
        commands.all fun c => !readOnly c.metadata
    else none
  | .queueRestoredParameters restored =>
    if restored.length ≤ parameterCommandCapacity - f.queue.length ∧
        f.accepted + restored.length < 2 ^ 64 then
      commandsFrom cache f.accepted restored
    else none
  | _ => none

/-- mirrors src-tauri/src/audio/engine_editor.rs:564-623,
src-tauri/src/audio/game_mode.rs:467-535 -/
def frontStep (cache : List Metadata) (f : Front V) : FrontLbl V → Option (Front V)
  | .admission =>
    match f.admission with
    | .idle => none
    | .send [] => some { f with admission := .idle }
    | .send (c :: commands) =>
      if f.queue.length < parameterCommandCapacity then
        some { f with queue := f.queue ++ [c], sent := f.sent ++ [c],
                      admission := .store c.sequence commands }
      else some { f with admission := .idle }
    | .store sequence commands =>
      some { f with accepted := sequence, admission := .send commands }
  | .waitForParameters =>
    match f.wait with
    | .failed _ | .applied _ => none
    | _ => some { f with wait := .failed f.accepted }
  | .wait late =>
    match f.wait with
    | .failed accepted =>
      some { f with wait := if f.failed ≠ 0 then .err else .applied accepted }
    | .applied accepted =>
      some { f with wait := if accepted ≤ f.applied then .ok accepted
                            else if late then .err else .failed accepted }
    | _ => none
  | l =>
    match f.admission with
    | .idle => (admitted cache f l).map fun commands => { f with admission := .send commands }
    | _ => none

/-! ## The callback -/

/-- mirrors src-tauri/src/audio/runtime_state.rs:429 -/
def batchCapacity : Nat := 512

/-- One command drained.
mirrors src-tauri/src/audio/runtime_state.rs:812-820 -/
def coalesce (commands : List (ParameterCommand V)) (c : ParameterCommand V) :
    List (ParameterCommand V) :=
  (replaceFirst (fun d => d.index == c.index) c commands).getD (commands ++ [c])

def maxSequence (commands : List (ParameterCommand V)) : Nat :=
  highest ParameterCommand.sequence commands

inductive Backend where
  | vst2
  | vst3
  deriving DecidableEq, Repr

inductive Outcome where
  | ok
  | err
  | panic
  deriving DecidableEq, Repr

/-- `render_audio_block` from the drain to the acknowledgement. `todo` are the
commands still to be set, `ok` those that were; `caught` is the result of the
VST2 `catch_unwind` that the code drops.
mirrors src-tauri/src/audio/callback.rs:312-403 -/
inductive Callback (V : Type) where
  | idle
  | drain (room : Nat) (commands : List (ParameterCommand V))
  | set (todo ok commands : List (ParameterCommand V))
  | report (c : ParameterCommand V) (todo ok commands : List (ParameterCommand V))
  | process (ok commands : List (ParameterCommand V)) (caught : Bool)
  | acknowledge (commands : List (ParameterCommand V))
  | fail (commands : List (ParameterCommand V))
  | dead (commands : List (ParameterCommand V))
  deriving DecidableEq, Repr

structure St (V : Type) where
  front : Front V
  callback : Callback V
  batches : List (List (ParameterCommand V))
  done : List (ParameterCommand V)
  lost : List (ParameterCommand V)
  deriving DecidableEq, Repr

def init (V : Type) : St V := ⟨Front.init V, .idle, [], [], []⟩

inductive Lbl (V : Type) where
  | front (l : FrontLbl V)
  | callback
  | setParameter (r : Outcome)
  | processed (ok : Bool)
  deriving DecidableEq, Repr

/-- A call of the plugin's setter. On VST2 it returns nothing and a panic ends
the loop; on VST3 an error is reported and a panic is not caught.
mirrors src-tauri/src/audio/callback.rs:316-320,364-375 -/
def setParameter (b : Backend) (s : St V) : Callback V → Outcome → Option (St V)
  | .set (c :: todo) ok commands, r =>
    match b, r with
    | _, .ok => some { s with callback := .set todo (ok ++ [c]) commands }
    | .vst2, .panic =>
      some { s with callback := .process ok commands false, lost := s.lost ++ c :: todo }
    | .vst2, .err => none
    | .vst3, .err =>
      some { s with callback := .report c todo ok commands, lost := s.lost ++ [c] }
    | .vst3, .panic => some { s with callback := .dead commands, lost := s.lost ++ c :: todo }
  | _, _ => none

/-- mirrors src-tauri/src/audio/callback.rs:599-620 -/
def callbackStep (s : St V) : Callback V → Option (St V)
  | .idle => some { s with callback := .drain batchCapacity [] }
  | .drain 0 commands => some { s with callback := .set commands [] commands }
  | .drain (room + 1) commands =>
    match s.front.queue with
    | [] => some { s with callback := .set commands [] commands }
    | c :: queue =>
      some { s with front := { s.front with queue }, callback := .drain room (coalesce commands c) }
  | .set [] ok commands => some { s with callback := .process ok commands true }
  | .report c todo ok commands =>
    some { s with front := { s.front with failed := max s.front.failed c.sequence },
                  callback := .set todo ok commands }
  | .acknowledge commands =>
    some { s with front := { s.front with applied := max s.front.applied (maxSequence commands) },
                  batches := s.batches ++ [commands], callback := .idle }
  | .fail commands =>
    some { s with front := { s.front with failed := max s.front.failed (maxSequence commands) },
                  batches := s.batches ++ [commands], callback := .idle }
  | _ => none

def step (b : Backend) (cache : List Metadata) (s : St V) : Lbl V → Option (St V)
  | .front l => (frontStep cache s.front l).map fun front => { s with front }
  | .callback => callbackStep s s.callback
  | .setParameter r => setParameter b s s.callback r
  | .processed ok =>
    match s.callback with
    | .process set commands _ =>
      if ok then some { s with callback := .acknowledge commands, done := s.done ++ set }
      else some { s with callback := .fail commands, lost := s.lost ++ set }
    | _ => none

def lts (V : Type) (b : Backend) (cache : List Metadata) : LTS (St V) (Lbl V) :=
  .ofStep (· = init V) (step b cache)

/-! ## The specification -/

/-- When the barrier has returned Ok, every command accepted before it began
was applied, or a later one of the same key was, and none of them was lost. -/
def Sound {κ : Type} (key : ParameterCommand V → κ) (f : Front V)
    (done lost : List (ParameterCommand V)) : Prop :=
  ∀ a, f.wait = .ok a →
    (∀ c ∈ f.sent, c.sequence ≤ a → ∃ d ∈ done, Supersedes ParameterCommand.sequence key c d) ∧
      ∀ d ∈ lost, a < d.sequence

/-- No failure is reported between the two loads of the barrier. -/
def unfailed (f : Front V) : FrontLbl V → Bool
  | .wait _ =>
    match f.wait with
    | .applied accepted => decide (accepted ≤ f.applied → f.failed = 0)
    | _ => true
  | _ => true

/-- And no block renders after a panic of the VST2 setter. -/
def reported (s : St V) : Lbl V → Bool
  | .front l => unfailed s.front l
  | .processed true =>
    match s.callback with
    | .process _ _ caught => caught
    | _ => true
  | _ => true

/-! ## Invariant of the front -/

def AdmissionOk (cache : List Metadata) (f : Front V) : Admission V → Prop
  | .idle => f.accepted = f.sent.length
  | .send commands => f.accepted = f.sent.length ∧
      commands.map ParameterCommand.sequence = List.range' (f.sent.length + 1) commands.length ∧
      ∀ c ∈ commands, cache[c.index]? = some c.metadata
  | .store sequence commands => f.accepted ≤ f.sent.length ∧ sequence = f.sent.length ∧
      commands.map ParameterCommand.sequence = List.range' (f.sent.length + 1) commands.length ∧
      ∀ c ∈ commands, cache[c.index]? = some c.metadata

def WaitOk (f : Front V) : Wait → Prop
  | .failed a | .applied a | .ok a => a ≤ f.accepted
  | _ => True

structure FrontOk (cache : List Metadata) (f : Front V) : Prop where
  admission : AdmissionOk cache f f.admission
  wait : WaitOk f f.wait
  known : ∀ c ∈ f.sent, cache[c.index]? = some c.metadata

section Front

variable {cache : List Metadata} {f f' : Front V} {l : FrontLbl V}

theorem FrontOk.accepted_le (F : FrontOk cache f) : f.accepted ≤ f.sent.length := by
  have h := F.admission
  cases ha : f.admission with
  | idle =>
    rw [ha] at h
    exact Nat.le_of_eq h
  | send commands =>
    rw [ha] at h
    exact Nat.le_of_eq h.1
  | store sequence commands =>
    rw [ha] at h
    exact h.1

theorem commandsFrom_eq {first : Nat} {restored : List (Nat × V)}
    {commands : List (ParameterCommand V)} (h : commandsFrom cache first restored = some commands) :
    commands.map ParameterCommand.sequence = List.range' (first + 1) commands.length ∧
      ∀ c ∈ commands, cache[c.index]? = some c.metadata := by
  induction restored generalizing first commands with
  | nil =>
    cases h
    exact ⟨rfl, nofun⟩
  | cons r rest ih =>
    obtain ⟨index, value⟩ := r
    simp only [commandsFrom, Option.bind_eq_bind, Option.bind_eq_some_iff] at h
    obtain ⟨m, hm, cs, hcs, he⟩ := h
    cases he
    obtain ⟨hn, hk⟩ := ih hcs
    refine ⟨by simp [hn, List.range'_succ], fun c hc => ?_⟩
    rcases List.mem_cons.mp hc with rfl | hc
    · exact hm
    · exact hk c hc

theorem admitted_eq {commands : List (ParameterCommand V)}
    (h : admitted cache f l = some commands) :
    commands.map ParameterCommand.sequence = List.range' (f.accepted + 1) commands.length ∧
      ∀ c ∈ commands, cache[c.index]? = some c.metadata := by
  cases l with
  | setVstParameter index value =>
    simp only [admitted] at h
    split at h
    · exact commandsFrom_eq (Option.filter_eq_some_iff.mp h).1
    · cases h
  | queueRestoredParameters restored =>
    simp only [admitted] at h
    split at h
    · exact commandsFrom_eq h
    · cases h
  | admission | waitForParameters | wait => cases h

/-- What a step of the front can do: it queues at most the next number, and
the barrier returns Ok only from its load of the applied sequence. -/
structure Moves (f f' : Front V) (l : FrontLbl V) : Prop where
  failed : f'.failed = f.failed
  applied : f'.applied = f.applied
  queued : (f'.queue = f.queue ∧ f'.sent = f.sent) ∨
    ∃ c, c.sequence = f.sent.length + 1 ∧ f'.queue = f.queue ++ [c] ∧ f'.sent = f.sent ++ [c]
  ok : ∀ a, f'.wait = .ok a → f.wait = .ok a ∨
    ((∃ late, l = .wait late) ∧ f.wait = .applied a ∧ a ≤ f.applied ∧ f'.sent = f.sent)

theorem frontStep_admission (F : FrontOk cache f) (h : frontStep cache f .admission = some f') :
    FrontOk cache f' ∧ Moves f f' .admission := by
  have ha := F.admission
  simp only [frontStep] at h
  split at h
  · cases h
  · rename_i hu
    rw [hu] at ha
    cases h
    exact ⟨⟨ha.1, F.wait, F.known⟩, rfl, rfl, .inl ⟨rfl, rfl⟩, fun a hw => .inl hw⟩
  · rename_i c commands hu
    rw [hu] at ha
    obtain ⟨he, hn, hk⟩ := ha
    simp only [List.map_cons, List.length_cons, List.range'_succ, List.cons.injEq] at hn
    split at h
    · cases h
      refine ⟨⟨⟨?_, ?_, ?_, fun d hd => hk d (List.mem_cons_of_mem _ hd)⟩, F.wait, ?_⟩, rfl, rfl,
        .inr ⟨c, hn.1, rfl, rfl⟩, fun a hw => .inl hw⟩
      · show f.accepted ≤ (f.sent ++ [c]).length
        rw [List.length_append, he]
        exact Nat.le_add_right _ _
      · show c.sequence = (f.sent ++ [c]).length
        rw [List.length_append, hn.1]
        rfl
      · show commands.map _ = List.range' ((f.sent ++ [c]).length + 1) _
        rw [List.length_append]
        exact hn.2
      · intro d hd
        rcases List.mem_append.mp hd with hd | hd
        · exact F.known d hd
        · rw [List.mem_singleton.mp hd]
          exact hk c List.mem_cons_self
    · cases h
      exact ⟨⟨he, F.wait, F.known⟩, rfl, rfl, .inl ⟨rfl, rfl⟩, fun a hw => .inl hw⟩
  · rename_i sequence commands hu
    rw [hu] at ha
    obtain ⟨hle, hs, hn, hk⟩ := ha
    cases h
    refine ⟨⟨⟨hs, hn, hk⟩, ?_, F.known⟩, rfl, rfl, .inl ⟨rfl, rfl⟩, fun a hw => .inl hw⟩
    have hw := F.wait
    show WaitOk { f with accepted := sequence, admission := .send commands } f.wait
    cases hu : f.wait with
    | idle | err => trivial
    | failed a | applied a | ok a =>
      rw [hu] at hw
      exact Nat.le_trans hw (by rw [hs]; exact hle)

theorem frontStep_wait {late : Bool} (F : FrontOk cache f)
    (h : frontStep cache f (.wait late) = some f') :
    FrontOk cache f' ∧ Moves f f' (.wait late) := by
  have hw := F.wait
  simp only [frontStep] at h
  split at h
  · rename_i a hu
    rw [hu] at hw
    cases h
    refine ⟨⟨F.admission, ?_, F.known⟩, rfl, rfl, .inl ⟨rfl, rfl⟩, fun b hb => ?_⟩
    · show WaitOk _ (if f.failed ≠ 0 then .err else .applied a)
      split
      · trivial
      · exact hw
    · have hb : (if f.failed ≠ 0 then Wait.err else .applied a) = .ok b := hb
      split at hb <;> cases hb
  · rename_i a hu
    rw [hu] at hw
    cases h
    refine ⟨⟨F.admission, ?_, F.known⟩, rfl, rfl, .inl ⟨rfl, rfl⟩, fun b hb => .inr ?_⟩
    · show WaitOk _ (if a ≤ f.applied then .ok a else if late then .err else .failed a)
      split
      · exact hw
      · split
        · trivial
        · exact hw
    · have hb : (if a ≤ f.applied then Wait.ok a else if late then .err else .failed a) = .ok b := hb
      split at hb
      · rename_i hle
        cases hb
        exact ⟨⟨late, rfl⟩, hu, hle, rfl⟩
      · split at hb <;> cases hb
  · cases h

theorem frontStep_begin {commands : List (ParameterCommand V)} (F : FrontOk cache f)
    (hu : f.admission = .idle) (h : admitted cache f l = some commands) :
    FrontOk cache { f with admission := .send commands } := by
  have ha := F.admission
  rw [hu] at ha
  have ha : f.accepted = f.sent.length := ha
  obtain ⟨hn, hk⟩ := admitted_eq h
  rw [ha] at hn
  exact ⟨⟨ha, hn, hk⟩, F.wait, F.known⟩

theorem frontStep_moves (F : FrontOk cache f) (h : frontStep cache f l = some f') :
    FrontOk cache f' ∧ Moves f f' l := by
  cases l with
  | admission => exact frontStep_admission F h
  | wait late => exact frontStep_wait F h
  | waitForParameters =>
    have hidle : ∀ b, f' = { f with wait := .failed f.accepted } →
        FrontOk cache f' ∧ Moves f f' b := by
      intro b e
      subst e
      exact ⟨⟨F.admission, Nat.le_refl _, F.known⟩, rfl, rfl, .inl ⟨rfl, rfl⟩, nofun⟩
    simp only [frontStep] at h
    split at h
    · cases h
    · cases h
    · cases h
      exact hidle _ rfl
  | setVstParameter | queueRestoredParameters =>
    simp only [frontStep] at h
    split at h
    · rename_i hu
      obtain ⟨commands, hc, rfl⟩ := Option.map_eq_some_iff.mp h
      exact ⟨frontStep_begin F hu hc, rfl, rfl, .inl ⟨rfl, rfl⟩, fun a hw => .inl hw⟩
    · cases h

end Front

/-! ## What the barrier may answer -/

section Answer

variable {κ : Type} {key : ParameterCommand V → κ} {cache : List Metadata} {f f' : Front V}
  {l : FrontLbl V} {done done' lost lost' : List (ParameterCommand V)}

/-- Everything up to the applied sequence was applied or superseded. -/
def Answer (key : ParameterCommand V → κ) (f : Front V) (done lost : List (ParameterCommand V)) :
    Prop :=
  (∀ c ∈ f.sent, c.sequence ≤ f.applied →
    ∃ d ∈ done, Supersedes ParameterCommand.sequence key c d) ∧
    ∀ d ∈ lost, f.applied < d.sequence

/-- `Sound`, with what makes it last. -/
def OkHolds (key : ParameterCommand V → κ) (f : Front V) (done lost : List (ParameterCommand V)) :
    Prop :=
  (∀ a, f.wait = .ok a → a ≤ f.applied) ∧ Sound key f done lost

theorem OkHolds.backend (h : OkHolds key f done lost) (hw : f'.wait = f.wait)
    (hs : f'.sent = f.sent) (ha : f.applied ≤ f'.applied) (hd : ∀ d ∈ done, d ∈ done')
    (hl : ∀ d ∈ lost', d ∈ lost ∨ f.applied < d.sequence) : OkHolds key f' done' lost' := by
  refine ⟨fun a hok => ?_, fun a hok => ⟨fun c hc hle => ?_, fun d hd => ?_⟩⟩
  · rw [hw] at hok
    exact Nat.le_trans (h.1 a hok) ha
  · rw [hw] at hok
    rw [hs] at hc
    obtain ⟨d, hd', hsup⟩ := (h.2 a hok).1 c hc hle
    exact ⟨d, hd d hd', hsup⟩
  · rw [hw] at hok
    rcases hl d hd with hd | hlt
    · exact (h.2 a hok).2 d hd
    · exact Nat.lt_of_le_of_lt (h.1 a hok) hlt

theorem OkHolds.front (F : FrontOk cache f) (h : OkHolds key f done lost) (M : Moves f f' l)
    (hans : (∃ late, l = .wait late) → ∀ a, f.wait = .applied a → a ≤ f.applied →
      Answer key f done lost) : OkHolds key f' done lost := by
  have hold : ∀ a, f.wait = .ok a → (∀ c ∈ f'.sent, c.sequence ≤ a →
      ∃ d ∈ done, Supersedes ParameterCommand.sequence key c d) := by
    intro a hok c hc hle
    rcases M.queued with ⟨_, hs⟩ | ⟨e, he, _, hs⟩
    · rw [hs] at hc
      exact (h.2 a hok).1 c hc hle
    · rw [hs] at hc
      rcases List.mem_append.mp hc with hc | hc
      · exact (h.2 a hok).1 c hc hle
      · have hw := F.wait
        rw [hok] at hw
        have hw : a ≤ f.accepted := hw
        have := F.accepted_le
        rw [List.mem_singleton.mp hc, he] at hle
        omega
  refine ⟨fun a hok => ?_, fun a hok => ?_⟩
  · rw [M.applied]
    rcases M.ok a hok with hw | ⟨_, _, hle, _⟩
    · exact h.1 a hw
    · exact hle
  · rcases M.ok a hok with hw | ⟨hl, hw, hle, hs⟩
    · exact ⟨hold a hw, (h.2 a hw).2⟩
    · obtain ⟨hc, hd⟩ := hans hl a hw hle
      refine ⟨fun c hcs hca => ?_, fun d hdl => Nat.lt_of_le_of_lt hle (hd d hdl)⟩
      rw [hs] at hcs
      exact hc c hcs (Nat.le_trans hca hle)

end Answer

/-! ## Invariant -/

/-- The commands the callback has drained and not yet acknowledged or failed. -/
def hand : Callback V → List (ParameterCommand V)
  | .idle => []
  | .drain _ commands | .set _ _ commands | .report _ _ _ commands | .process _ commands _
  | .acknowledge commands | .fail commands | .dead commands => commands

/-- A loss has been reported. -/
def Quiet (s : St V) : Prop := s.front.failed = 0 → s.lost = []

/-- What was lost is of an earlier batch, and reported. -/
def Past (s : St V) : Prop := ∀ c ∈ s.lost, c ∈ s.batches.flatten ∧ s.front.failed ≠ 0

/-- Each drained command is still to be set, was set, or is lost. -/
def Handled (s : St V) (todo ok commands : List (ParameterCommand V)) : Prop :=
  (∀ c ∈ commands, c ∈ todo ∨ c ∈ ok ∨ c ∈ s.lost) ∧ (∀ c ∈ todo, c ∈ commands) ∧
    ∀ c ∈ ok, c ∈ commands

def CallbackOk (s : St V) : Callback V → Prop
  | .idle | .drain _ _ => Past s
  | .set todo ok commands => Quiet s ∧ Handled s todo ok commands
  | .report c todo ok commands => c ∈ commands ∧ Handled s todo ok commands
  | .process ok commands caught => (caught = true → Quiet s) ∧ Handled s [] ok commands
  | .acknowledge commands => Quiet s ∧ ∀ c ∈ commands, c ∈ s.done ∨ c ∈ s.lost
  | .fail commands => ∀ c ∈ commands, c ∈ s.lost
  | .dead _ => True

structure Inv (cache : List Metadata) (s : St V) : Prop where
  front : FrontOk cache s.front
  ledger : ∃ gone, Ledger ParameterCommand.sequence ParameterCommand.index s.front.sent gone
    s.front.queue (hand s.callback) s.batches
  applied : s.front.applied = 0 ∨
    ∃ g ∈ s.batches, s.front.applied = highest ParameterCommand.sequence g
  settled : ∀ c ∈ s.batches.flatten, c ∈ s.done ∨ c ∈ s.lost
  lost : ∀ c ∈ s.lost, (c ∈ s.batches.flatten ∧ s.front.failed ≠ 0) ∨ c ∈ hand s.callback
  callback : CallbackOk s s.callback
  ok : OkHolds ParameterCommand.index s.front s.done s.lost

section Local

variable {cache : List Metadata} {b : Backend} {s s' : St V}

/-- What the callback has in its hand is newer than what was acknowledged. -/
theorem Inv.applied_lt (I : Inv cache s) {c : ParameterCommand V} (hc : c ∈ hand s.callback) :
    s.front.applied < c.sequence := by
  obtain ⟨gone, L⟩ := I.ledger
  by_cases h0 : s.front.applied = 0
  · rw [h0]
    exact L.num_pos (L.mem_sent (L.inHand c hc))
  · obtain ⟨g, hg, he⟩ := I.applied.resolve_left h0
    obtain ⟨d, hd, hde⟩ := exists_highest (he ▸ h0)
    rw [he, ← hde]
    exact L.later d (List.mem_flatten.mpr ⟨g, hg, hd⟩) c hc

/-- While no failure is reported, what is acknowledged is applied. -/
theorem Inv.answer (I : Inv cache s) (h : s.front.failed = 0) :
    Answer ParameterCommand.index s.front s.done s.lost := by
  have hlost : ∀ c ∈ s.lost, s.front.applied < c.sequence := by
    intro c hc
    rcases I.lost c hc with ⟨_, hf⟩ | hc
    · exact absurd h hf
    · exact I.applied_lt hc
  refine ⟨fun c hc hle => ?_, hlost⟩
  obtain ⟨gone, L⟩ := I.ledger
  rcases I.applied with h0 | ⟨g, hg, he⟩
  · have := L.num_pos hc
    omega
  · obtain ⟨pre, post, hsplit⟩ := List.append_of_mem hg
    obtain ⟨d, hd, hsup⟩ := L.covered hsplit hc (he ▸ hle)
    have hmem : d ∈ s.batches.flatten := by
      rw [hsplit, List.flatten_append, List.flatten_cons]
      rcases List.mem_append.mp hd with hd | hd
      · exact List.mem_append_left _ hd
      · exact List.mem_append_right _ (List.mem_append_left _ hd)
    refine ⟨d, (I.settled d hmem).resolve_right fun hl => ?_, hsup⟩
    rcases I.lost d hl with ⟨_, hf⟩ | hh
    · exact hf h
    · exact absurd (L.later d hmem d hh) (Nat.lt_irrefl _)

theorem inv_front {l : FrontLbl V} {front : Front V} (I : Inv cache s)
    (hok : unfailed s.front l = true) (h : frontStep cache s.front l = some front) :
    Inv cache { s with front } := by
  obtain ⟨F, M⟩ := frontStep_moves I.front h
  obtain ⟨gone, L⟩ := I.ledger
  have hq : ∀ {t : St V}, t.front.failed = s.front.failed → t.lost = s.lost → Quiet s → Quiet t := by
    intro t hf hl hq h0
    rw [hl]
    exact hq (hf ▸ h0)
  refine ⟨F, ?_, ?_, I.settled, ?_, ?_, ?_⟩
  · rcases M.queued with ⟨hq, hs⟩ | ⟨c, hc, hq, hs⟩
    · rw [hq, hs]
      exact ⟨gone, L⟩
    · rw [hq, hs]
      exact ⟨gone, L.send hc⟩
  · rw [M.applied]
    exact I.applied
  · rw [M.failed]
    exact I.lost
  · have hc := I.callback
    show CallbackOk { s with front } s.callback
    cases hu : s.callback with
    | idle | drain =>
      rw [hu] at hc
      intro c hl
      show _ ∧ front.failed ≠ 0
      rw [M.failed]
      exact hc c hl
    | set | acknowledge =>
      rw [hu] at hc
      exact ⟨hq M.failed rfl hc.1, hc.2⟩
    | process =>
      rw [hu] at hc
      exact ⟨fun h => hq M.failed rfl (hc.1 h), hc.2⟩
    | report | fail | dead =>
      rw [hu] at hc
      exact hc
  · refine I.ok.front I.front M fun ⟨late, hl⟩ a hw hle => I.answer ?_
    subst hl
    simp only [unfailed, hw, decide_eq_true_eq] at hok
    exact hok hle

theorem covers_coalesce {commands : List (ParameterCommand V)} {c : ParameterCommand V}
    (h : ∀ a ∈ commands, a.sequence < c.sequence) :
    Covers (Supersedes ParameterCommand.sequence ParameterCommand.index) (commands ++ [c])
      (coalesce commands c) := by
  unfold coalesce
  cases hr : replaceFirst (fun d => d.index == c.index) c commands with
  | none => exact covers_of_subset supersedes_refl fun a ha => ha
  | some l =>
    exact covers_replaceFirst supersedes_refl
      (fun a ha hp => ⟨beq_iff_eq.mp hp, Nat.le_of_lt (h a ha)⟩) hr

theorem mem_coalesce {commands : List (ParameterCommand V)} {c : ParameterCommand V} :
    ∀ a ∈ coalesce commands c, a ∈ commands ++ [c] := by
  unfold coalesce
  cases hr : replaceFirst (fun d => d.index == c.index) c commands with
  | none => exact fun a ha => ha
  | some l => exact subset_replaceFirst hr

theorem length_coalesce (commands : List (ParameterCommand V)) (c : ParameterCommand V) :
    (coalesce commands c).length ≤ commands.length + 1 := by
  unfold coalesce
  cases hr : replaceFirst (fun d => d.index == c.index) c commands with
  | none => simp
  | some l =>
    have := length_replaceFirst hr
    simp only [Option.getD_some]
    omega

/-- The drained commands are of different parameters. -/
theorem distinct_coalesce {commands : List (ParameterCommand V)} {c : ParameterCommand V}
    (h : (commands.map ParameterCommand.index).Nodup) :
    ((coalesce commands c).map ParameterCommand.index).Nodup := by
  unfold coalesce
  cases hr : replaceFirst (fun d => d.index == c.index) c commands with
  | none =>
    have hne := replaceFirst_eq_none.mp hr
    simp only [Option.getD_none, List.map_append, List.map_cons, List.map_nil]
    refine List.nodup_append.mpr ⟨h, List.pairwise_singleton _ _, fun i hi j hj => ?_⟩
    obtain ⟨d, hd, rfl⟩ := List.mem_map.mp hi
    rw [List.mem_singleton.mp hj]
    exact ne_of_beq_false (hne d hd)
  | some l =>
    have hm := map_replaceFirst ParameterCommand.index (fun a _ hp => beq_iff_eq.mp hp) hr
    simp only [Option.getD_some]
    rw [hm]
    exact h

/-- A callback step that closes no batch and reports nothing. -/
theorem Inv.callbackTo {u : Callback V} (I : Inv cache s) (hh : hand u = hand s.callback)
    (hc : CallbackOk s u) : Inv cache { s with callback := u } where
  front := I.front
  ledger := by
    show ∃ gone, Ledger _ _ _ gone _ (hand u) _
    rw [hh]
    exact I.ledger
  applied := I.applied
  settled := I.settled
  lost := by
    show ∀ c ∈ s.lost, _ ∨ c ∈ hand u
    rw [hh]
    exact I.lost
  callback := by
    show CallbackOk { s with callback := u } u
    cases u <;> exact hc
  ok := I.ok

/-- The drained commands are closed as a batch, acknowledged or failed. -/
theorem Inv.close {commands : List (ParameterCommand V)} {front : Front V} (I : Inv cache s)
    (hu : hand s.callback = commands)
    (hf : front = { s.front with failed := front.failed, applied := front.applied })
    (happ : s.front.applied ≤ front.applied)
    (ha : front.applied = s.front.applied ∨
      front.applied = highest ParameterCommand.sequence commands)
    (hs : ∀ c ∈ commands, c ∈ s.done ∨ c ∈ s.lost) (hq : front.failed = 0 → s.lost = []) :
    Inv cache { s with front, batches := s.batches ++ [commands], callback := .idle } := by
  have hpast : ∀ c ∈ s.lost, c ∈ (s.batches ++ [commands]).flatten ∧ front.failed ≠ 0 := by
    intro c hc
    refine ⟨?_, fun h0 => by rw [hq h0] at hc; cases hc⟩
    rw [List.flatten_append, List.mem_append]
    rcases I.lost c hc with ⟨hb, _⟩ | hh
    · exact .inl hb
    · exact .inr (by simpa [hu] using hh)
  refine
  { front := ?_
    ledger := ?_
    applied := ?_
    settled := ?_
    lost := fun c hc => .inl (hpast c hc)
    callback := hpast
    ok := I.ok.backend (by rw [hf]) (by rw [hf]) happ (fun _ h => h) fun _ h => .inl h }
  · show FrontOk cache front
    rw [hf]
    exact ⟨I.front.admission, I.front.wait, I.front.known⟩
  · obtain ⟨gone, L⟩ := I.ledger
    rw [hu] at L
    rw [hf]
    exact ⟨gone, L.close⟩
  · rcases ha with ha | ha
    · rcases I.applied with h0 | ⟨g, hg, he⟩
      · exact .inl (ha.trans h0)
      · exact .inr ⟨g, List.mem_append_left _ hg, ha.trans he⟩
    · exact .inr ⟨commands, List.mem_append_right _ List.mem_cons_self, ha⟩
  · intro c hc
    rw [List.flatten_append, List.mem_append] at hc
    rcases hc with hc | hc
    · exact I.settled c hc
    · exact hs c (by simpa using hc)

/-- The callback takes the next command. -/
theorem inv_drain {room : Nat} {commands queue : List (ParameterCommand V)}
    {c : ParameterCommand V} (I : Inv cache s) (hu : s.callback = .drain (room + 1) commands)
    (hq : s.front.queue = c :: queue) :
    Inv cache { s with
      front := { s.front with queue }, callback := .drain room (coalesce commands c) } := by
  have hpast := I.callback
  rw [hu] at hpast
  obtain ⟨gone, L⟩ := I.ledger
  rw [hu, hq] at L
  have hlt : ∀ a ∈ commands, a.sequence < c.sequence := fun a ha => L.lt_next (L.inHand a ha)
  exact
    { front := ⟨I.front.admission, I.front.wait, I.front.known⟩
      ledger := ⟨gone ++ [c], L.take (covers_coalesce hlt) mem_coalesce⟩
      applied := I.applied
      settled := I.settled
      lost := fun d hd => .inl (hpast d hd)
      callback := hpast
      ok := I.ok }

/-- The drain ends and the commands are set one by one. -/
theorem inv_set {room : Nat} {commands : List (ParameterCommand V)} (I : Inv cache s)
    (hu : s.callback = .drain room commands) :
    Inv cache { s with callback := .set commands [] commands } := by
  have hpast := I.callback
  rw [hu] at hpast
  refine I.callbackTo (by rw [hu]; rfl) ⟨fun h0 => ?_, fun c hc => .inl hc, fun c hc => hc, nofun⟩
  exact List.eq_nil_iff_forall_not_mem.mpr fun c hc => (hpast c hc).2 h0

theorem inv_callbackStep (I : Inv cache s) (h : callbackStep s s.callback = some s') :
    Inv cache s' := by
  have hc := I.callback
  cases hu : s.callback with
  | idle =>
    rw [hu] at h hc
    cases h
    exact I.callbackTo (by rw [hu]; rfl) hc
  | drain room commands =>
    cases room with
    | zero =>
      rw [hu] at h
      cases h
      exact inv_set I hu
    | succ room =>
      rw [hu] at h
      simp only [callbackStep] at h
      split at h
      · cases h
        exact inv_set I hu
      · rename_i c queue hq
        cases h
        exact inv_drain I hu hq
  | set todo ok commands =>
    rw [hu] at h hc
    cases todo with
    | cons => cases h
    | nil =>
      cases h
      exact I.callbackTo (by rw [hu]; rfl) ⟨fun _ => hc.1, hc.2⟩
  | report c todo ok commands =>
    rw [hu] at h hc
    cases h
    obtain ⟨hcm, hh⟩ := hc
    have hne : max s.front.failed c.sequence ≠ 0 := by
      have := I.applied_lt (by rw [hu]; exact hcm)
      omega
    exact
      { front := ⟨I.front.admission, I.front.wait, I.front.known⟩
        ledger := by
          have L := I.ledger
          rw [hu] at L
          exact L
        applied := I.applied
        settled := I.settled
        lost := by
          intro d hd
          rcases I.lost d hd with ⟨hb, _⟩ | hh
          · exact .inl ⟨hb, hne⟩
          · rw [hu] at hh
            exact .inr hh
        callback := ⟨fun h0 => absurd h0 hne, hh⟩
        ok := I.ok }
  | process ok commands caught =>
    rw [hu] at h
    cases h
  | acknowledge commands =>
    rw [hu] at h hc
    cases h
    refine I.close (by rw [hu]; rfl) rfl (Nat.le_max_left _ _) ?_ hc.2 hc.1
    show max _ _ = _ ∨ max _ _ = _
    rcases Nat.le_total s.front.applied (maxSequence commands) with hle | hle
    · exact .inr (Nat.max_eq_right hle)
    · exact .inl (Nat.max_eq_left hle)
  | fail commands =>
    rw [hu] at h hc
    cases h
    refine I.close (by rw [hu]; rfl) rfl (Nat.le_refl _) (.inl rfl) (fun c hcm => .inr (hc c hcm)) ?_
    intro h0
    have h0 : max s.front.failed (maxSequence commands) = 0 := h0
    refine List.eq_nil_iff_forall_not_mem.mpr fun c hl => ?_
    rcases I.lost c hl with ⟨_, hf⟩ | hh
    · omega
    · have hpos := I.applied_lt hh
      rw [hu] at hh
      have : c.sequence ≤ maxSequence commands := le_highest hh
      omega
  | dead commands =>
    rw [hu] at h
    cases h

/-- The setter fails or panics: what is not set is lost. -/
theorem Inv.lose {u : Callback V} {lost : List (ParameterCommand V)} (I : Inv cache s)
    (hh : hand u = hand s.callback) (hl : ∀ c ∈ lost, c ∈ hand s.callback)
    (hc : CallbackOk { s with lost := s.lost ++ lost } u) :
    Inv cache { s with callback := u, lost := s.lost ++ lost } where
  front := I.front
  ledger := by
    show ∃ gone, Ledger _ _ _ gone _ (hand u) _
    rw [hh]
    exact I.ledger
  applied := I.applied
  settled := by
    intro c hcm
    rcases I.settled c hcm with hd | hl
    · exact .inl hd
    · exact .inr (List.mem_append_left _ hl)
  lost := by
    intro c hcm
    show _ ∨ c ∈ hand u
    rw [hh]
    rcases List.mem_append.mp hcm with hcm | hcm
    · exact I.lost c hcm
    · exact .inr (hl c hcm)
  callback := by
    show CallbackOk { s with callback := u, lost := s.lost ++ lost } u
    cases u <;> exact hc
  ok := I.ok.backend rfl rfl (Nat.le_refl _) (fun _ h => h) fun c hcm => by
    rcases List.mem_append.mp hcm with hcm | hcm
    · exact .inl hcm
    · exact .inr (I.applied_lt (hl c hcm))

theorem Handled.lose {todo ok commands lost : List (ParameterCommand V)} {todo' : List (ParameterCommand V)}
    (h : Handled s todo ok commands) (ht : ∀ c ∈ todo, c ∈ todo' ∨ c ∈ lost)
    (ht' : ∀ c ∈ todo', c ∈ todo) :
    Handled { s with lost := s.lost ++ lost } todo' ok commands := by
  obtain ⟨hall, htodo, hok⟩ := h
  refine ⟨fun c hc => ?_, fun c hc => htodo c (ht' c hc), hok⟩
  rcases hall c hc with hc | hc | hc
  · rcases ht c hc with hc | hc
    · exact .inl hc
    · exact .inr (.inr (List.mem_append_right _ hc))
  · exact .inr (.inl hc)
  · exact .inr (.inr (List.mem_append_left _ hc))

theorem inv_setParameter {r : Outcome} (I : Inv cache s)
    (h : setParameter b s s.callback r = some s') : Inv cache s' := by
  have hc := I.callback
  cases hu : s.callback with
  | idle | drain | report | process | acknowledge | fail | dead =>
    rw [hu] at h
    cases h
  | set todo ok commands =>
    rw [hu] at h hc
    cases todo with
    | nil => cases h
    | cons c todo =>
      obtain ⟨hq, hh⟩ := hc
      have hmem : ∀ d ∈ c :: todo, d ∈ hand s.callback := by
        rw [hu]
        exact hh.2.1
      have hset : Handled s todo (ok ++ [c]) commands := by
        obtain ⟨hall, htodo, hok⟩ := hh
        refine ⟨fun d hd => ?_, fun d hd => htodo d (List.mem_cons_of_mem _ hd), fun d hd => ?_⟩
        · rcases hall d hd with hd | hd | hd
          · rcases List.mem_cons.mp hd with rfl | hd
            · exact .inr (.inl (List.mem_append_right _ List.mem_cons_self))
            · exact .inl hd
          · exact .inr (.inl (List.mem_append_left _ hd))
          · exact .inr (.inr hd)
        · rcases List.mem_append.mp hd with hd | hd
          · exact hok d hd
          · rw [List.mem_singleton.mp hd]
            exact htodo c List.mem_cons_self
      cases r with
      | ok =>
        cases h
        exact I.callbackTo (by rw [hu]; rfl) ⟨hq, hset⟩
      | err =>
        cases b with
        | vst2 => cases h
        | vst3 =>
          cases h
          refine I.lose (by rw [hu]; rfl) (fun d hd => ?_) ⟨hh.2.1 c List.mem_cons_self, ?_⟩
          · rw [List.mem_singleton.mp hd]
            exact hmem c List.mem_cons_self
          · refine hh.lose (fun d hd => ?_) fun d hd => List.mem_cons_of_mem _ hd
            rcases List.mem_cons.mp hd with rfl | hd
            · exact .inr List.mem_cons_self
            · exact .inl hd
      | panic =>
        cases b with
        | vst2 =>
          cases h
          exact I.lose (by rw [hu]; rfl) hmem ⟨nofun, hh.lose (fun d hd => .inr hd) nofun⟩
        | vst3 =>
          cases h
          exact I.lose (by rw [hu]; rfl) hmem trivial

theorem inv_processed {ok : Bool} (I : Inv cache s) (hok : reported s (.processed ok) = true)
    (h : step b cache s (.processed ok) = some s') : Inv cache s' := by
  have hc := I.callback
  simp only [step] at h
  split at h
  · rename_i set commands caught hu
    rw [hu] at hc
    obtain ⟨hq, hall, _, hset⟩ := hc
    have hlost : ∀ c ∈ commands, c ∈ set ∨ c ∈ s.lost := fun c hcm =>
      (hall c hcm).resolve_left List.not_mem_nil
    split at h
    · rename_i hokt
      rw [hokt] at hok
      simp only [reported, hu] at hok
      cases h
      have hdone : ∀ c, c ∈ s.done → c ∈ s.done ++ set := fun c => List.mem_append_left _
      exact
        { front := I.front
          ledger := by
            have L := I.ledger
            rw [hu] at L
            exact L
          applied := I.applied
          settled := fun c hcm => (I.settled c hcm).imp_left (hdone c)
          lost := by
            have hl := I.lost
            rw [hu] at hl
            exact hl
          callback := ⟨hq hok, fun c hcm => (hlost c hcm).imp_left (List.mem_append_right _)⟩
          ok := I.ok.backend rfl rfl (Nat.le_refl _) hdone fun _ hl => .inl hl }
    · cases h
      refine I.lose (by rw [hu]; rfl) (fun c hcm => ?_) fun c hcm => ?_
      · rw [hu]
        exact hset c hcm
      · rcases hlost c hcm with hcs | hcl
        · exact List.mem_append_right _ hcs
        · exact List.mem_append_left _ hcl
  · cases h

theorem inv_step {l : Lbl V} (I : Inv cache s) (hok : reported s l = true)
    (h : step b cache s l = some s') : Inv cache s' := by
  cases l with
  | front l =>
    obtain ⟨front, hf, rfl⟩ := Option.map_eq_some_iff.mp h
    exact inv_front I hok hf
  | callback => exact inv_callbackStep I h
  | setParameter r => exact inv_setParameter I h
  | processed ok => exact inv_processed I hok h

theorem frontOk_init (cache : List Metadata) : FrontOk cache (Front.init V) := ⟨rfl, trivial, nofun⟩

theorem inv_init (cache : List Metadata) : Inv cache (init V) where
  front := frontOk_init cache
  ledger := ⟨[], ledger_nil⟩
  applied := .inl rfl
  settled := nofun
  lost := nofun
  callback := nofun
  ok := ⟨nofun, nofun⟩

end Local

theorem inv_inductive (V : Type) (b : Backend) (cache : List Metadata) :
    ((lts V b cache).restrict fun s l => reported s l = true).Inductive (Inv cache) where
  init := by
    intro s h
    subst h
    exact inv_init cache
  step _ _ _ I h := inv_step I h.1 h.2

/-- The barrier on the VST2 and VST3 back ends. -/
theorem local_sound (V : Type) (b : Backend) (cache : List Metadata) (s : St V)
    (h : ((lts V b cache).restrict fun s l => reported s l = true).Reachable s) :
    Sound ParameterCommand.index s.front s.done s.lost :=
  ((inv_inductive V b cache).reachable s h).ok.2

/-! ## The barrier passed by a failure -/

def oneParameter : List Metadata := [⟨7, 0, 0⟩]

def command (sequence value : Nat) : ParameterCommand Nat := ⟨sequence, 0, ⟨7, 0, 0⟩, value⟩

def accept (value : Nat) : List (Lbl Nat) :=
  .front (.setVstParameter 0 value) :: List.replicate 3 (.front .admission)

/-- A callback that drains one command, up to its setter. -/
def drainOne : List (Lbl Nat) := List.replicate 3 .callback

/-- The barrier loads the failed sequence, the setter of the VST3 plugin
fails, the block renders, and the barrier loads the applied sequence. -/
def tracePassed : List (Lbl Nat) :=
  List.flatten [accept 5, [.front .waitForParameters, .front (.wait false)], drainOne,
    [.setParameter .err, .callback, .callback, .processed true, .callback, .front (.wait false)]]

/-- The setter of the VST2 plugin panics and the block renders. -/
def tracePanicked : List (Lbl Nat) :=
  List.flatten [accept 5, drainOne,
    [.setParameter .panic, .processed true, .callback, .front .waitForParameters,
      .front (.wait false), .front (.wait false)]]

theorem reachable_of_run {b : Backend} {p : St Nat → Bool} (ls : List (Lbl Nat))
    (h : (LTS.exec (step b oneParameter) (init Nat) ls).any p = true) :
    ∃ s, (lts Nat b oneParameter).Reachable s ∧ p s = true :=
  LTS.reachable_of_any ls rfl h

theorem trace_unsound {b : Backend} (ls : List (Lbl Nat))
    (h : (LTS.exec (step b oneParameter) (init Nat) ls).any (fun s =>
      decide (s.front.wait = .ok 1 ∧ s.done = [] ∧ s.front.sent = [command 1 5])) = true) :
    ¬∀ s, (lts Nat b oneParameter).Reachable s →
      Sound ParameterCommand.index s.front s.done s.lost := by
  intro hall
  obtain ⟨s, hr, hp⟩ := reachable_of_run ls h
  obtain ⟨hw, hd, hs⟩ := of_decide_eq_true hp
  obtain ⟨d, hd', _⟩ := (hall s hr 1 hw).1 (command 1 5) (by rw [hs]; exact List.mem_cons_self)
    (by decide)
  rw [hd] at hd'
  cases hd'

/-- The barrier returns Ok although the command was not applied. -/
theorem barrier_passed : ¬∀ s, (lts Nat .vst3 oneParameter).Reachable s →
    Sound ParameterCommand.index s.front s.done s.lost :=
  trace_unsound tracePassed (by decide +kernel)

/-- A panic of the VST2 setter is acknowledged. -/
theorem panic_acknowledged : ¬∀ s, (lts Nat .vst2 oneParameter).Reachable s →
    Sound ParameterCommand.index s.front s.done s.lost :=
  trace_unsound tracePanicked (by decide +kernel)

end RtpOscMidi.L5.ParameterBarrier
