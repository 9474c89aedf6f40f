import RtpOscMidi.Core.LTS

/-!
# Deferred plug-in actions

An editor request or a save that cannot be done at once is kept: the intent
in `deferred_editor`, the save in `deferred_save`. Leaving the game mode does
what is kept (`flush_pending_actions`), and so does a task that tries again.

The control gate keeps threads apart, but a native action may call back on
its own thread: `stack` has the native actions under way, the latest first,
each with what its caller keeps while it waits, and the gate is free when it
is empty. A step begins a call, at the top or inside the latest action, or
returns from that action with success or failure.

A failed request starts the task after it has let go of the gate; `owed`
counts those that have not come to it. `requested` is the intent asked for
last. The generations do not wrap. A start of the engine forgets what is kept,
so a run begins after one.

* `step_kept`: what a step may clear, and by whose success.
* `responsible_step`: where no failed switch to the game mode brings the mode
  back over a fresh deferral, somebody answers for what is kept.
* `deferred_actions`: both, for all runs.
* `rollback_forgets`: a failed switch that leaves an intent with nobody.
-/
namespace RtpOscMidi.L2.DeferredActions

open Core

/-- mirrors src-tauri/src/audio/game_mode.rs:206-210 -/
inductive Intent where
  | openUi
  | closeUi
  deriving DecidableEq, Repr

/-- Who runs a flush: `set_game_mode(false)` or a turn of the retry task. -/
inductive Flusher where
  | gameMode
  | retry
  deriving DecidableEq, Repr

/-- A native action under way. `editor` is that of a request and
`flushEditor` that of a flush, `before` and `failed` being what the flush has
noted. -/
inductive Frame where
  | editor (intent : Intent) (generation : Nat)
  | flushEditor (intent : Intent) (generation before : Nat) (failed : Bool) (flusher : Flusher)
  | capture
  | flushCapture (generation : Nat) (flusher : Flusher)
  | enable (generation : Nat) (previous : Bool)
  deriving DecidableEq, Repr

structure St where
  gameMode : Bool
  gameModeGeneration : Nat
  deferredSave : Bool
  deferredSaveGeneration : Nat
  deferredEditor : Option Intent
  deferredEditorGeneration : Nat
  runtime : Bool
  deferredRetryScheduled : Bool
  tasks : Nat
  owed : Nat
  requested : Option Intent
  stack : List Frame
  deriving DecidableEq, Repr

def St.pending (s : St) : Bool := s.deferredSave || s.deferredEditor.isSome

def St.push (s : St) (f : Frame) : St := { s with stack := f :: s.stack }

/-- mirrors src-tauri/src/audio/game_mode.rs:214-217 -/
def St.scheduleDeferredRetry (s : St) : St :=
  if s.deferredRetryScheduled then s
  else { s with deferredRetryScheduled := true, tasks := s.tasks + 1 }

/-! ## Editor requests -/

/-- mirrors src-tauri/src/audio/game_mode.rs:101-106 -/
def St.request (s : St) (intent : Intent) : St :=
  { s with
    deferredEditorGeneration := s.deferredEditorGeneration + 1
    deferredEditor := some intent
    requested := some intent }

/-- mirrors src-tauri/src/audio/game_mode.rs:110-114 -/
def St.applied (s : St) (generation : Nat) (ok : Bool) : St :=
  if ok ∧ s.deferredEditorGeneration = generation then { s with deferredEditor := none } else s

/-- `open_vst_ui` and `close_vst_ui`, to the native action or the return.
mirrors src-tauri/src/audio/game_mode.rs:96-115 -/
def St.applyEditorIntent (s : St) (intent : Intent) : St :=
  let s := s.request intent
  if s.gameMode then s else s.push (.editor intent s.deferredEditorGeneration)

/-! ## The flush -/

/-- What the caller does with the result. In a switch the operation then
returns `Ok`; a turn stays for another one if something is still kept.
mirrors src-tauri/src/audio/game_mode.rs:184-191,234-247 -/
def St.flushed (s : St) (flusher : Flusher) (ok : Bool) : St :=
  match flusher with
  | .gameMode => if ok then s else s.scheduleDeferredRetry
  | .retry =>
    if s.pending then s else { s with deferredRetryScheduled := false, tasks := s.tasks - 1 }

/-- mirrors src-tauri/src/audio/game_mode.rs:61-74 -/
def St.edited (s : St) (before : Nat) (failed : Bool) (flusher : Flusher) (ok : Bool) : St :=
  let s :=
    if ok ∧ s.deferredEditorGeneration = before then { s with deferredEditor := none } else s
  s.flushed flusher (ok && !failed)

/-- The second half of the flush, to the native action or the end. Its
request may meet the game mode, which the capture before it may have set.
mirrors src-tauri/src/audio/game_mode.rs:58-61 -/
def St.edit (s : St) (failed : Bool) (flusher : Flusher) : St :=
  match s.deferredEditor with
  | none => s.flushed flusher (!failed)
  | some intent =>
    let before := s.deferredEditorGeneration
    let s := s.request intent
    if s.gameMode then s.edited before failed flusher true
    else s.push (.flushEditor intent s.deferredEditorGeneration before failed flusher)

/-- A flush begins with the game mode off, so its capture is a native one.
mirrors src-tauri/src/audio/game_mode.rs:46-58 -/
def St.flush (s : St) (flusher : Flusher) : St :=
  if s.deferredSave then s.push (.flushCapture s.deferredSaveGeneration flusher)
  else s.edit false flusher

/-! ## Steps -/

/-- mirrors src-tauri/src/audio/engine_lifecycle.rs:163-168 -/
def St.checkpointVstState (s : St) : St :=
  if s.gameMode then
    { s with deferredSaveGeneration := s.deferredSaveGeneration + 1, deferredSave := true }
  else s.push .capture

/-- mirrors src-tauri/src/audio/game_mode.rs:171-195,78-89 -/
def St.setGameMode (s : St) (enabled : Bool) : St :=
  if enabled = s.gameMode ∧ (enabled ∨ s.pending = false) then
    { s with gameModeGeneration := s.gameModeGeneration + 1 }
  else
    let generation := s.gameModeGeneration + 1
    let previous := s.gameMode
    let s := { s with gameModeGeneration := generation, gameMode := enabled }
    if enabled then s.push (.enable generation previous) else s.flush .gameMode

/-- A turn of the retry task, to its first native action or its end.
mirrors src-tauri/src/audio/game_mode.rs:225-248 -/
def St.retryTurn (s : St) : St :=
  if s.gameMode ∨ s.runtime = false then
    { s with deferredRetryScheduled := false, tasks := s.tasks - 1 }
  else s.flush .retry

/-- What follows when an action returns, `s` being without it.
mirrors src-tauri/src/audio/game_mode.rs:46-75,89-93,110-114,
src-tauri/src/audio/engine_editor.rs:277-281,480-484 -/
def St.returned (s : St) (ok : Bool) : Frame → St
  | .editor _ generation =>
    let s := s.applied generation ok
    if ok then s
    else if s.stack = [] then { s with owed := s.owed + 1 }
    else s.scheduleDeferredRetry
  | .flushEditor _ generation before failed flusher =>
    let s := s.applied generation ok
    let s := if ok then s else s.scheduleDeferredRetry
    s.edited before failed flusher ok
  | .capture => s
  | .flushCapture generation flusher =>
    if ok then
      let s := if s.deferredSaveGeneration = generation then { s with deferredSave := false } else s
      s.edit false flusher
    else s.edit true flusher
  | .enable generation previous =>
    if ok = false ∧ s.gameModeGeneration = generation then { s with gameMode := previous } else s

inductive Label where
  | editor (intent : Intent)
  | save
  | gameMode (enabled : Bool)
  | ret (ok : Bool)
  | retry
  | schedule
  | stop
  deriving DecidableEq, Repr

/-- `editor`, `save` and `gameMode` may begin in any state: at the top, or
inside the latest action. -/
def step (s : St) : Label → Option St
  | .editor intent => some (s.applyEditorIntent intent)
  | .save => some s.checkpointVstState
  | .gameMode enabled => some (s.setGameMode enabled)
  | .ret ok =>
    match s.stack with
    | [] => none
    | f :: rest => some ({ s with stack := rest }.returned ok f)
  | .retry => if s.stack = [] ∧ 0 < s.tasks then some s.retryTurn else none
  | .schedule => if 0 < s.owed then some { s with owed := s.owed - 1 }.scheduleDeferredRetry else none
  | .stop => if s.stack = [] then some { s with runtime := false } else none

/-- After a start: nothing is kept and nothing is under way. -/
def Started (s : St) : Prop :=
  s.deferredSave = false ∧ s.deferredEditor = none ∧ s.stack = [] ∧
    s.tasks = if s.deferredRetryScheduled then 1 else 0

def system : LTS St Label := .ofStep Started step

/-! ## What the pieces change -/

theorem schedule_eq (s : St) : s.scheduleDeferredRetry =
    { s with
      deferredRetryScheduled := true
      tasks := if s.deferredRetryScheduled then s.tasks else s.tasks + 1 } := by
  unfold St.scheduleDeferredRetry
  cases h : s.deferredRetryScheduled with
  | true => simp [← h]
  | false => simp

/-- The end of a flush only touches the task. -/
theorem flushed_eq (s : St) (flusher : Flusher) (ok : Bool) : ∃ scheduled tasks,
    s.flushed flusher ok = { s with deferredRetryScheduled := scheduled, tasks := tasks } := by
  cases flusher with
  | gameMode =>
    cases ok with
    | true => exact ⟨_, _, rfl⟩
    | false => exact ⟨_, _, schedule_eq s⟩
  | retry =>
    unfold St.flushed
    cases s.pending with
    | true => exact ⟨_, _, rfl⟩
    | false => exact ⟨_, _, rfl⟩

theorem edit_cases (s : St) (failed : Bool) (flusher : Flusher) :
    (s.deferredEditor = none ∧ s.edit failed flusher = s.flushed flusher (!failed)) ∨
    (∃ intent, s.deferredEditor = some intent ∧ s.gameMode = true ∧
      s.edit failed flusher = (s.request intent).flushed flusher (!failed)) ∨
    ∃ intent, s.deferredEditor = some intent ∧ s.gameMode = false ∧
      s.edit failed flusher = (s.request intent).push (.flushEditor intent
        (s.deferredEditorGeneration + 1) s.deferredEditorGeneration failed flusher) := by
  unfold St.edit
  cases heditor : s.deferredEditor with
  | none => exact .inl ⟨rfl, rfl⟩
  | some intent =>
    cases hmode : s.gameMode with
    | true => exact .inr (.inl ⟨intent, rfl, rfl, by simp [St.request, St.edited, hmode]⟩)
    | false => exact .inr (.inr ⟨intent, rfl, rfl, by simp [St.request, hmode]⟩)

/-- What is kept, what was asked for last and how often a save was. -/
structure Same (s s' : St) : Prop where
  editor : s'.deferredEditor = s.deferredEditor
  save : s'.deferredSave = s.deferredSave
  generation : s'.deferredSaveGeneration = s.deferredSaveGeneration
  requested : s'.requested = s.requested

theorem Same.refl (s : St) : Same s s := ⟨rfl, rfl, rfl, rfl⟩

theorem Same.trans {s s' s'' : St} (h : Same s s') (h' : Same s' s'') : Same s s'' :=
  ⟨h'.editor.trans h.editor, h'.save.trans h.save, h'.generation.trans h.generation,
    h'.requested.trans h.requested⟩

theorem same_schedule (s : St) : Same s s.scheduleDeferredRetry := by
  rw [schedule_eq]
  exact ⟨rfl, rfl, rfl, rfl⟩

theorem same_flushed (s : St) (flusher : Flusher) (ok : Bool) : Same s (s.flushed flusher ok) := by
  obtain ⟨scheduled, tasks, h⟩ := flushed_eq s flusher ok
  rw [h]
  exact ⟨rfl, rfl, rfl, rfl⟩

/-- A flush asks again for what is asked for. -/
theorem same_request {s : St} {intent : Intent} (heditor : s.deferredEditor = some intent)
    (hrequested : s.requested = some intent) : Same s (s.request intent) :=
  ⟨heditor.symm, rfl, rfl, hrequested.symm⟩

theorem same_edit {s : St} (hnewest : ∀ x, s.deferredEditor = some x → s.requested = some x)
    (failed : Bool) (flusher : Flusher) : Same s (s.edit failed flusher) := by
  obtain ⟨_, h⟩ | ⟨x, hx, _, h⟩ | ⟨x, hx, _, h⟩ := edit_cases s failed flusher
  · rw [h]
    exact same_flushed s _ _
  · rw [h]
    exact (same_request hx (hnewest x hx)).trans (same_flushed _ _ _)
  · rw [h]
    have hsame := same_request hx (hnewest x hx)
    exact ⟨hsame.editor, hsame.save, hsame.generation, hsame.requested⟩

theorem same_flush {s : St} (hnewest : ∀ x, s.deferredEditor = some x → s.requested = some x)
    (flusher : Flusher) : Same s (s.flush flusher) := by
  unfold St.flush
  split
  · exact ⟨rfl, rfl, rfl, rfl⟩
  · exact same_edit hnewest false flusher

/-! ## The invariant -/

def Frame.edits : Frame → Option (Intent × Nat)
  | .editor intent generation => some (intent, generation)
  | .flushEditor intent generation _ _ _ => some (intent, generation)
  | .capture | .flushCapture .. | .enable .. => none

def Frame.byRetry : Frame → Bool
  | .flushEditor _ _ _ _ .retry => true
  | .flushCapture _ .retry => true
  | _ => false

def Frame.before : Frame → Nat
  | .flushEditor _ _ before _ _ => before
  | _ => 0

structure FrameOk (s : St) (f : Frame) : Prop where
  newest : ∀ intent generation, f.edits = some (intent, generation) →
    generation ≤ s.deferredEditorGeneration ∧
      (generation = s.deferredEditorGeneration → s.requested = some intent) ∧
      f.before < generation
  turn : f.byRetry → s.deferredRetryScheduled = true

structure Inv (s : St) : Prop where
  tasks : s.tasks = if s.deferredRetryScheduled then 1 else 0
  newest : ∀ x, s.deferredEditor = some x → s.requested = some x
  frames : ∀ f ∈ s.stack, FrameOk s f
  turns : s.stack.countP Frame.byRetry ≤ 1

/-- The turn of the task that runs this flush is not on the stack. -/
def Turn (s : St) (flusher : Flusher) : Prop :=
  flusher = .retry → s.deferredRetryScheduled = true ∧ s.stack.countP Frame.byRetry = 0

theorem Inv.schedule {s : St} (I : Inv s) : Inv s.scheduleDeferredRetry := by
  rw [schedule_eq]
  refine ⟨?_, I.newest, ?_, I.turns⟩
  · have htasks := I.tasks
    cases h : s.deferredRetryScheduled with
    | true => simpa [h] using htasks
    | false => simpa [h] using htasks
  · intro f hf
    exact ⟨(I.frames f hf).newest, fun _ => rfl⟩

theorem Inv.request {s : St} (I : Inv s) (intent : Intent) : Inv (s.request intent) where
  tasks := I.tasks
  newest _ h := h
  frames f hf := by
    refine ⟨?_, (I.frames f hf).turn⟩
    intro x generation hx
    obtain ⟨hle, _, hbefore⟩ := (I.frames f hf).newest x generation hx
    refine ⟨Nat.le_succ_of_le hle, ?_, hbefore⟩
    intro heq
    simp only [St.request] at heq
    omega
  turns := I.turns

theorem Inv.push {s : St} (I : Inv s) {f : Frame} (hf : FrameOk s f)
    (hturn : f.byRetry → s.stack.countP Frame.byRetry = 0) : Inv (s.push f) where
  tasks := I.tasks
  newest := I.newest
  frames g hg := by
    cases List.mem_cons.mp hg with
    | inl e =>
      rw [e]
      exact ⟨hf.newest, hf.turn⟩
    | inr hg => exact ⟨(I.frames g hg).newest, (I.frames g hg).turn⟩
  turns := by
    have hturns := I.turns
    simp only [St.push, List.countP_cons]
    split
    · rename_i h
      rw [hturn h]
    · exact hturns

theorem Inv.flushed {s : St} (I : Inv s) {flusher : Flusher} (hturn : Turn s flusher) (ok : Bool) :
    Inv (s.flushed flusher ok) := by
  cases flusher with
  | gameMode =>
    cases ok with
    | true => exact I
    | false => exact I.schedule
  | retry =>
    unfold St.flushed
    cases s.pending with
    | true => exact I
    | false =>
      obtain ⟨hscheduled, hnone⟩ := hturn rfl
      have htasks := I.tasks
      rw [hscheduled, if_pos rfl] at htasks
      refine ⟨by simp [htasks], I.newest, ?_, I.turns⟩
      intro f hf
      refine ⟨(I.frames f hf).newest, fun hby => ?_⟩
      exact absurd hby (List.countP_eq_zero.mp hnone f hf)

theorem Inv.edit {s : St} (I : Inv s) {flusher : Flusher} (hturn : Turn s flusher)
    (failed : Bool) : Inv (s.edit failed flusher) := by
  obtain ⟨_, h⟩ | ⟨x, _, _, h⟩ | ⟨x, _, _, h⟩ := edit_cases s failed flusher
  · rw [h]
    exact I.flushed hturn _
  · rw [h]
    exact (I.request x).flushed hturn _
  · rw [h]
    refine (I.request x).push ⟨?_, ?_⟩ ?_
    · intro y generation hy
      cases hy
      exact ⟨Nat.le_refl _, fun _ => rfl, Nat.lt_succ_self _⟩
    · intro hby
      cases flusher with
      | gameMode => cases hby
      | retry => exact (hturn rfl).1
    · intro hby
      cases flusher with
      | gameMode => cases hby
      | retry => exact (hturn rfl).2

theorem Inv.flush {s : St} (I : Inv s) {flusher : Flusher} (hturn : Turn s flusher) :
    Inv (s.flush flusher) := by
  unfold St.flush
  split
  · refine I.push ⟨by simp [Frame.edits], ?_⟩ ?_
    · intro hby
      cases flusher with
      | gameMode => cases hby
      | retry => exact (hturn rfl).1
    · intro hby
      cases flusher with
      | gameMode => cases hby
      | retry => exact (hturn rfl).2
  · exact I.edit hturn false

/-- What is kept may be cleared. -/
theorem Inv.clear {s : St} (I : Inv s) (save : Bool) {editor : Option Intent}
    (heditor : ∀ x, editor = some x → s.deferredEditor = some x) :
    Inv { s with deferredSave := save, deferredEditor := editor } where
  tasks := I.tasks
  newest x hx := I.newest x (heditor x hx)
  frames f hf := ⟨(I.frames f hf).newest, (I.frames f hf).turn⟩
  turns := I.turns

/-- The fields that the invariant does not read. -/
theorem Inv.touch {s : St} (I : Inv s) (gameMode : Bool) (gameModeGeneration : Nat) (save : Bool)
    (saveGeneration : Nat) (runtime : Bool) (owed : Nat) :
    Inv { s with
      gameMode, gameModeGeneration, deferredSave := save
      deferredSaveGeneration := saveGeneration, runtime, owed } where
  tasks := I.tasks
  newest := I.newest
  frames f hf := ⟨(I.frames f hf).newest, (I.frames f hf).turn⟩
  turns := I.turns

theorem Inv.applied {s : St} (I : Inv s) (generation : Nat) (ok : Bool) :
    Inv (s.applied generation ok) := by
  unfold St.applied
  split
  · exact I.clear s.deferredSave (by simp)
  · exact I

theorem applied_stack (s : St) (generation : Nat) (ok : Bool) :
    (s.applied generation ok).stack = s.stack ∧
      (s.applied generation ok).deferredRetryScheduled = s.deferredRetryScheduled := by
  unfold St.applied
  split
  · exact ⟨rfl, rfl⟩
  · exact ⟨rfl, rfl⟩

theorem schedule_stack (s : St) : s.scheduleDeferredRetry.stack = s.stack := by
  rw [schedule_eq]

theorem Inv.pop {s : St} {f : Frame} {rest : List Frame} (I : Inv s) (h : s.stack = f :: rest) :
    Inv { s with stack := rest } where
  tasks := I.tasks
  newest := I.newest
  frames g hg :=
    have hok := I.frames g (h ▸ List.mem_cons_of_mem _ hg)
    ⟨hok.newest, hok.turn⟩
  turns := by
    have hturns := I.turns
    rw [h, List.countP_cons] at hturns
    exact Nat.le_of_add_right_le hturns

/-- The flush of the latest action has no other turn of the task below it. -/
theorem Inv.turn_pop {s : St} {f : Frame} {rest : List Frame} (I : Inv s) (h : s.stack = f :: rest)
    {flusher : Flusher} (hf : flusher = .retry → f.byRetry) :
    Turn { s with stack := rest } flusher := by
  intro hretry
  have hby := hf hretry
  have hturns := I.turns
  rw [h, List.countP_cons, if_pos hby] at hturns
  exact ⟨(I.frames f (h ▸ List.mem_cons_self)).turn hby, Nat.le_zero.mp (Nat.le_of_succ_le_succ hturns)⟩

theorem Turn.edited {s s' : St} {flusher : Flusher} (h : Turn s flusher) (hstack : s'.stack = s.stack)
    (hscheduled : s.deferredRetryScheduled = true → s'.deferredRetryScheduled = true) :
    Turn s' flusher := by
  intro hretry
  rw [hstack]
  exact ⟨hscheduled (h hretry).1, (h hretry).2⟩

/-- The request of a flush has a generation of its own, so that of the flush
is never the current one. -/
theorem edited_eq {s : St} {before : Nat} (h : before < s.deferredEditorGeneration)
    (failed : Bool) (flusher : Flusher) (ok : Bool) :
    s.edited before failed flusher ok = s.flushed flusher (ok && !failed) := by
  unfold St.edited
  rw [if_neg]
  intro heq
  exact absurd heq.2 (Nat.ne_of_gt h)

theorem generation_applied (s : St) (generation : Nat) (ok : Bool) :
    (s.applied generation ok).deferredEditorGeneration = s.deferredEditorGeneration := by
  unfold St.applied
  split
  · rfl
  · rfl

theorem generation_schedule (s : St) :
    s.scheduleDeferredRetry.deferredEditorGeneration = s.deferredEditorGeneration := by
  rw [schedule_eq]

/-- What a flush goes on with after its editor action. -/
theorem returned_flushEditor {s : St} {intent : Intent} {generation before : Nat}
    (h : before < s.deferredEditorGeneration) (failed : Bool) (flusher : Flusher) (ok : Bool) :
    s.returned ok (.flushEditor intent generation before failed flusher) =
      (if ok then s.applied generation ok else (s.applied generation ok).scheduleDeferredRetry).flushed
        flusher (ok && !failed) := by
  refine edited_eq ?_ failed flusher ok
  cases ok with
  | true =>
    rw [if_pos rfl, generation_applied]
    exact h
  | false =>
    rw [if_neg Bool.false_ne_true, generation_schedule, generation_applied]
    exact h

theorem Inv.before_lt {s : St} {rest : List Frame} (I : Inv s) {intent : Intent}
    {generation before : Nat} {failed : Bool} {flusher : Flusher}
    (h : s.stack = .flushEditor intent generation before failed flusher :: rest) :
    before < s.deferredEditorGeneration := by
  obtain ⟨hle, _, hbefore⟩ :=
    (I.frames _ (h ▸ List.mem_cons_self)).newest intent generation rfl
  exact Nat.lt_of_lt_of_le hbefore hle

theorem inv_returned {s : St} {f : Frame} {rest : List Frame} (I : Inv s) (h : s.stack = f :: rest)
    (ok : Bool) : Inv ({ s with stack := rest }.returned ok f) := by
  have P := I.pop h
  cases f with
  | editor intent generation =>
    simp only [St.returned]
    cases ok with
    | true => exact P.applied generation true
    | false =>
      simp only [Bool.false_eq_true, if_false]
      split
      · exact (P.applied generation false).touch _ _ _ _ _ _
      · exact (P.applied generation false).schedule
  | flushEditor intent generation before failed flusher =>
    have hturn : Turn { s with stack := rest } flusher :=
      I.turn_pop h fun hretry => by rw [hretry]; rfl
    have hbefore : before < ({ s with stack := rest } : St).deferredEditorGeneration :=
      I.before_lt h
    rw [returned_flushEditor hbefore]
    obtain ⟨hstack, hscheduled⟩ := applied_stack { s with stack := rest } generation ok
    cases ok with
    | true =>
      rw [if_pos rfl]
      exact (P.applied generation true).flushed
        (hturn.edited hstack fun hs => hscheduled.trans hs) _
    | false =>
      rw [if_neg Bool.false_ne_true]
      refine (P.applied generation false).schedule.flushed
        (hturn.edited ((schedule_stack _).trans hstack) fun _ => ?_) _
      rw [schedule_eq]
  | capture => exact P
  | flushCapture generation flusher =>
    have hturn : Turn { s with stack := rest } flusher :=
      I.turn_pop h fun hretry => by rw [hretry]; rfl
    unfold St.returned
    cases ok with
    | true =>
      simp only [if_true]
      split
      · exact (P.clear false fun _ hx => hx).edit (hturn.edited rfl id) false
      · exact P.edit hturn false
    | false => exact P.edit hturn true
  | enable generation previous =>
    simp only [St.returned]
    split
    · exact P.touch _ _ _ _ _ _
    · exact P

theorem inv_setGameMode {s : St} (I : Inv s) (enabled : Bool) : Inv (s.setGameMode enabled) := by
  simp only [St.setGameMode]
  split
  · exact I.touch _ _ _ _ _ _
  · cases enabled with
    | true =>
      exact (I.touch true _ _ _ _ _).push ⟨by simp [Frame.edits], by simp [Frame.byRetry]⟩
        (by simp [Frame.byRetry])
    | false => exact (I.touch false _ _ _ _ _).flush fun h => by cases h

theorem scheduled_of_tasks {s : St} (I : Inv s) (htasks : 0 < s.tasks) :
    s.deferredRetryScheduled = true := by
  cases h : s.deferredRetryScheduled with
  | true => rfl
  | false =>
    have hzero := I.tasks
    rw [h, if_neg Bool.false_ne_true] at hzero
    omega

theorem inv_retryTurn {s : St} (I : Inv s) (hstack : s.stack = []) (htasks : 0 < s.tasks) :
    Inv s.retryTurn := by
  have hscheduled := scheduled_of_tasks I htasks
  have hone := I.tasks
  rw [hscheduled, if_pos rfl] at hone
  unfold St.retryTurn
  split
  · exact ⟨by simp [hone], I.newest, by simp [hstack], by simp [hstack]⟩
  · exact I.flush fun _ => ⟨hscheduled, by simp [hstack]⟩

theorem inv_step {s s' : St} {l : Label} (I : Inv s) (hst : step s l = some s') : Inv s' := by
  cases l with
  | editor intent =>
    cases hst
    simp only [St.applyEditorIntent]
    split
    · exact I.request intent
    · refine (I.request intent).push ⟨?_, by simp [Frame.byRetry]⟩ (by simp [Frame.byRetry])
      intro y generation hy
      cases hy
      exact ⟨Nat.le_refl _, fun _ => rfl, Nat.succ_pos _⟩
  | save =>
    cases hst
    unfold St.checkpointVstState
    split
    · exact I.touch _ _ _ _ _ _
    · exact I.push ⟨by simp [Frame.edits], by simp [Frame.byRetry]⟩ (by simp [Frame.byRetry])
  | gameMode enabled =>
    cases hst
    exact inv_setGameMode I enabled
  | ret ok =>
    cases hstack : s.stack with
    | nil => simp [step, hstack] at hst
    | cons f rest =>
      simp only [step, hstack, Option.some.injEq] at hst
      exact hst ▸ inv_returned I hstack ok
  | retry =>
    simp only [step] at hst
    split at hst
    · rename_i h
      cases hst
      exact inv_retryTurn I h.1 h.2
    · cases hst
  | schedule =>
    simp only [step] at hst
    split at hst
    · cases hst
      exact (I.touch _ _ _ _ _ _).schedule
    · cases hst
  | stop =>
    simp only [step] at hst
    split at hst
    · cases hst
      exact I.touch _ _ _ _ _ _
    · cases hst

theorem inv_inductive : system.Inductive Inv where
  init s hs := by
    obtain ⟨_, heditor, hstack, htasks⟩ := hs
    exact ⟨htasks, by simp [heditor], by simp [hstack], by simp [hstack]⟩
  step _ _ _ I hst := inv_step I hst

/-! ## What a step may clear -/

/-- The intent asked for last, after the step. -/
def Label.newest (l : Label) (requested : Option Intent) : Option Intent :=
  match l with
  | .editor intent => some intent
  | _ => requested

/-- The generation of the saves counts them, and a capture notes it when it
begins; that of the requests is the one of the newest. -/
structure Kept (s : St) (l : Label) (s' : St) : Prop where
  editor : ∀ x, s.deferredEditor = some x →
    s'.deferredEditor = some x ∨ (∃ y, l = .editor y ∧ s'.deferredEditor = some y) ∨
      (s'.deferredEditor = none ∧ l = .ret true ∧ s.requested = some x ∧
        ∃ f ∈ s.stack.head?, f.edits = some (x, s.deferredEditorGeneration))
  save : s.deferredSave = true → s'.deferredSave = true ∨
    (l = .ret true ∧
      ∃ flusher, s.stack.head? = some (.flushCapture s.deferredSaveGeneration flusher))
  failure : l = .ret false →
    s'.deferredSave = s.deferredSave ∧ s'.deferredEditor = s.deferredEditor
  goesOn : ∀ ok generation flusher x, l = .ret ok →
    s.stack.head? = some (.flushCapture generation flusher) → s.deferredEditor = some x →
    s.gameMode = false → ∃ f ∈ s'.stack.head?, f.edits = some (x, s'.deferredEditorGeneration)
  stored : (∀ y, l = .editor y → s'.deferredEditor = some y) ∧
    (l = .save → s.gameMode = true → s'.deferredSave = true)
  requested : s'.requested = l.newest s.requested
  saves : s'.deferredSaveGeneration =
    s.deferredSaveGeneration + if l = .save ∧ s.gameMode = true then 1 else 0
  begun : ∀ generation flusher, s'.stack = .flushCapture generation flusher :: s.stack →
    generation = s.deferredSaveGeneration

/-- A step other than a request, a save or a return. -/
theorem Kept.of_same {s s' : St} {l : Label} (h : Same s s') (hl : ∀ y, l ≠ .editor y)
    (hsave : l ≠ .save) (hret : ∀ ok, l ≠ .ret ok)
    (hbegun : ∀ generation flusher, s'.stack = .flushCapture generation flusher :: s.stack →
      generation = s.deferredSaveGeneration) : Kept s l s' where
  editor _ hx := .inl (h.editor.trans hx)
  save hs := .inl (h.save.trans hs)
  failure e := absurd e (hret false)
  goesOn ok _ _ _ e := absurd e (hret ok)
  stored := ⟨fun y e => absurd e (hl y), fun e => absurd e hsave⟩
  requested := by
    rw [h.requested]
    cases l with
    | editor y => exact absurd rfl (hl y)
    | save | gameMode _ | ret _ | retry | schedule | stop => rfl
  saves := by rw [h.generation, if_neg fun e => hsave e.1, Nat.add_zero]
  begun := hbegun

/-- Nothing is begun by what leaves the stack as it is. -/
theorem begun_of_stack {s s' : St} (h : s'.stack = s.stack) (generation : Nat) (flusher : Flusher)
    (hpush : s'.stack = .flushCapture generation flusher :: s.stack) :
    generation = s.deferredSaveGeneration :=
  absurd (hpush.symm.trans h) (List.cons_ne_self _ _)

theorem flushed_stack (s : St) (flusher : Flusher) (ok : Bool) :
    (s.flushed flusher ok).stack = s.stack := by
  obtain ⟨scheduled, tasks, h⟩ := flushed_eq s flusher ok
  rw [h]

theorem flush_begun (s : St) (flusher : Flusher) (generation : Nat) (flusher' : Flusher)
    (h : (s.flush flusher).stack = .flushCapture generation flusher' :: s.stack) :
    generation = s.deferredSaveGeneration := by
  unfold St.flush at h
  split at h
  · cases h
    rfl
  · obtain ⟨_, he⟩ | ⟨x, _, _, he⟩ | ⟨x, _, _, he⟩ := edit_cases s false flusher
    · exact begun_of_stack (by rw [he, flushed_stack]) _ _ h
    · exact @begun_of_stack s (s.edit false flusher) (by rw [he, flushed_stack]; rfl) _ _ h
    · rw [he] at h
      cases h

theorem edit_length (s : St) (failed : Bool) (flusher : Flusher) :
    (s.edit failed flusher).stack.length ≤ s.stack.length + 1 := by
  obtain ⟨_, he⟩ | ⟨x, _, _, he⟩ | ⟨x, _, _, he⟩ := edit_cases s failed flusher
  · rw [he, flushed_stack]
    exact Nat.le_succ _
  · rw [he, flushed_stack]
    exact Nat.le_succ _
  · rw [he]
    exact Nat.le_refl _

/-- A return never leaves more actions under way than there were. -/
theorem returned_length (s : St) (ok : Bool) (f : Frame) :
    (s.returned ok f).stack.length ≤ s.stack.length + 1 := by
  cases f with
  | editor intent generation =>
    have hstack := (applied_stack s generation ok).1
    simp only [St.returned]
    split
    · rw [hstack]
      exact Nat.le_succ _
    · split
      · exact hstack ▸ Nat.le_succ _
      · rw [schedule_stack, hstack]
        exact Nat.le_succ _
  | flushEditor intent generation before failed flusher =>
    have hstack := (applied_stack s generation ok).1
    simp only [St.returned, St.edited, flushed_stack]
    cases ok with
    | true =>
      simp only [if_true, true_and]
      split
      · exact hstack ▸ Nat.le_succ _
      · exact hstack ▸ Nat.le_succ _
    | false =>
      simp only [Bool.false_eq_true, if_false, false_and, schedule_stack]
      exact hstack ▸ Nat.le_succ _
  | capture => exact Nat.le_succ _
  | flushCapture generation flusher =>
    simp only [St.returned]
    split
    · split
      · exact edit_length _ false flusher
      · exact edit_length _ false flusher
    · exact edit_length _ true flusher
  | enable generation previous =>
    simp only [St.returned]
    split
    · exact Nat.le_succ _
    · exact Nat.le_succ _

/-- What the return of an action does to what is kept. -/
structure Returned (s : St) (ok : Bool) (f : Frame) (s' : St) : Prop where
  editor : s'.deferredEditor = s.deferredEditor ∨
    s'.deferredEditor = none ∧ ok = true ∧
      ∃ intent, f.edits = some (intent, s.deferredEditorGeneration)
  save : s'.deferredSave = s.deferredSave ∨
    ok = true ∧ ∃ flusher, f = .flushCapture s.deferredSaveGeneration flusher
  generation : s'.deferredSaveGeneration = s.deferredSaveGeneration
  requested : s'.requested = s.requested

theorem Returned.of_same {s s' : St} {ok : Bool} {f : Frame} (h : Same s s') : Returned s ok f s' :=
  ⟨.inl h.editor, .inl h.save, h.generation, h.requested⟩

theorem Returned.same {s s' s'' : St} {ok : Bool} {f : Frame} (h : Returned s ok f s')
    (h' : Same s' s'') : Returned s ok f s'' := by
  refine ⟨?_, ?_, h'.generation.trans h.generation, h'.requested.trans h.requested⟩
  · rw [h'.editor]
    exact h.editor
  · rw [h'.save]
    exact h.save

theorem returned_applied {s : St} {generation : Nat} {ok : Bool} {f : Frame} {intent : Intent}
    (hf : f.edits = some (intent, generation)) : Returned s ok f (s.applied generation ok) := by
  unfold St.applied
  split
  · rename_i h
    exact ⟨.inr ⟨rfl, h.1, intent, h.2 ▸ hf⟩, .inl rfl, rfl, rfl⟩
  · exact .of_same (.refl s)

theorem returned_spec {s : St} (hnewest : ∀ x, s.deferredEditor = some x → s.requested = some x)
    (ok : Bool) (f : Frame) (hbefore : f.before < s.deferredEditorGeneration ∨ f.edits = none) :
    Returned s ok f (s.returned ok f) := by
  cases f with
  | editor intent generation =>
    have hreturned : Returned s ok (.editor intent generation) (s.applied generation ok) :=
      returned_applied rfl
    simp only [St.returned]
    split
    · exact hreturned
    · split
      · exact hreturned.same ⟨rfl, rfl, rfl, rfl⟩
      · exact hreturned.same (same_schedule _)
  | flushEditor intent generation before failed flusher =>
    have hlt : before < s.deferredEditorGeneration := by
      cases hbefore with
      | inl h => exact h
      | inr h => cases h
    have hreturned : Returned s ok (.flushEditor intent generation before failed flusher)
        (s.applied generation ok) := returned_applied rfl
    rw [returned_flushEditor hlt]
    split
    · exact hreturned.same (same_flushed _ _ _)
    · exact hreturned.same ((same_schedule _).trans (same_flushed _ _ _))
  | capture => exact .of_same (.refl s)
  | flushCapture generation flusher =>
    simp only [St.returned]
    split
    · split
      · rename_i hok hgeneration
        have hcleared : Returned s ok (.flushCapture generation flusher)
            { s with deferredSave := false } :=
          ⟨.inl rfl, .inr ⟨hok, flusher, by rw [hgeneration]⟩, rfl, rfl⟩
        exact hcleared.same (@same_edit { s with deferredSave := false } hnewest false flusher)
      · exact .of_same (same_edit hnewest false flusher)
    · exact .of_same (same_edit hnewest true flusher)
  | enable generation previous =>
    simp only [St.returned]
    split
    · exact ⟨.inl rfl, .inl rfl, rfl, rfl⟩
    · exact .of_same (.refl s)

/-- The editor action comes after the capture, however that returned. -/
theorem edit_head {s : St} {x : Intent} (hx : s.deferredEditor = some x) (hmode : s.gameMode = false)
    (failed : Bool) (flusher : Flusher) : ∃ f ∈ (s.edit failed flusher).stack.head?,
      f.edits = some (x, (s.edit failed flusher).deferredEditorGeneration) := by
  obtain ⟨hnone, _⟩ | ⟨y, _, hy, _⟩ | ⟨y, hy, _, he⟩ := edit_cases s failed flusher
  · rw [hx] at hnone
    cases hnone
  · rw [hmode] at hy
    cases hy
  · rw [hx] at hy
    cases hy
    rw [he]
    exact ⟨_, rfl, rfl⟩

theorem kept_ret {s : St} (I : Inv s) {f : Frame} {rest : List Frame} (h : s.stack = f :: rest)
    (ok : Bool) : Kept s (.ret ok) ({ s with stack := rest }.returned ok f) := by
  have hok := I.frames f (h ▸ List.mem_cons_self)
  have hbefore : f.before < ({ s with stack := rest } : St).deferredEditorGeneration ∨
      f.edits = none := by
    cases he : f.edits with
    | none => exact .inr rfl
    | some p =>
      obtain ⟨hle, _, hlt⟩ := hok.newest p.1 p.2 he
      exact .inl (Nat.lt_of_lt_of_le hlt hle)
  have hspec := @returned_spec { s with stack := rest } I.newest ok f hbefore
  refine ⟨?_, ?_, ?_, ?_, ⟨by simp, by simp⟩, hspec.requested, by simpa using hspec.generation, ?_⟩
  · intro x hx
    cases hspec.editor with
    | inl he => exact .inl (he.trans hx)
    | inr he =>
      obtain ⟨hnone, hsuccess, intent, hedits⟩ := he
      have hrequested := ((hok.newest intent _ hedits).2.1) rfl
      have hintent : intent = x := Option.some.inj (hrequested.symm.trans (I.newest x hx))
      refine .inr (.inr ⟨hnone, by rw [hsuccess], I.newest x hx, f, by simp [h], ?_⟩)
      rw [← hintent]
      exact hedits
  · intro hs
    cases hspec.save with
    | inl he => exact .inl (he.trans hs)
    | inr he =>
      obtain ⟨hsuccess, flusher, hf⟩ := he
      exact .inr ⟨by rw [hsuccess], flusher, by rw [h, hf]; rfl⟩
  · intro e
    cases e
    refine ⟨?_, ?_⟩
    · cases hspec.save with
      | inl he => exact he
      | inr he => cases he.1
    · cases hspec.editor with
      | inl he => exact he
      | inr he => cases he.2.1
  · intro ok' generation flusher x _ hhead hx hmode
    rw [h] at hhead
    cases hhead
    simp only [St.returned]
    split
    · split
      · exact @edit_head { s with deferredSave := false, stack := rest } x hx hmode false flusher
      · exact @edit_head { s with stack := rest } x hx hmode false flusher
    · exact @edit_head { s with stack := rest } x hx hmode true flusher
  · intro generation flusher hpush
    have hlen := returned_length { s with stack := rest } ok f
    rw [hpush, h] at hlen
    simp only [List.length_cons] at hlen
    omega

theorem step_kept {s s' : St} {l : Label} (I : Inv s) (hst : step s l = some s') : Kept s l s' := by
  cases l with
  | editor intent =>
    cases hst
    have heditor : (s.applyEditorIntent intent).deferredEditor = some intent ∧
        (s.applyEditorIntent intent).deferredSave = s.deferredSave ∧
        (s.applyEditorIntent intent).requested = some intent ∧
        (s.applyEditorIntent intent).deferredSaveGeneration = s.deferredSaveGeneration := by
      simp only [St.applyEditorIntent]
      split
      · exact ⟨rfl, rfl, rfl, rfl⟩
      · exact ⟨rfl, rfl, rfl, rfl⟩
    obtain ⟨heditor, hsave, hrequested, hgeneration⟩ := heditor
    refine ⟨fun _ _ => .inr (.inl ⟨intent, rfl, heditor⟩), fun hs => .inl (hsave.trans hs), by simp,
      by simp, ⟨?_, by simp⟩, hrequested, by simpa using hgeneration, ?_⟩
    · intro y e
      cases e
      exact heditor
    · intro generation flusher hpush
      simp only [St.applyEditorIntent] at hpush
      split at hpush
      · exact absurd hpush.symm (List.cons_ne_self _ _)
      · cases hpush
  | save =>
    cases hst
    unfold St.checkpointVstState
    split
    · rename_i hmode
      exact ⟨fun _ hx => .inl hx, fun _ => .inl rfl, by simp, by simp, ⟨by simp, fun _ _ => rfl⟩,
        rfl, by simp [hmode], fun _ _ hpush => absurd hpush.symm (List.cons_ne_self _ _)⟩
    · rename_i hmode
      refine ⟨fun _ hx => .inl hx, fun hs => .inl hs, by simp, by simp,
        ⟨by simp, fun _ h => absurd h hmode⟩, rfl, ?_, ?_⟩
      · rw [if_neg fun h => hmode h.2]
        rfl
      · intro generation flusher hpush
        cases hpush
  | gameMode enabled =>
    cases hst
    have hsame : Same s (s.setGameMode enabled) ∧ ∀ generation flusher,
        (s.setGameMode enabled).stack = .flushCapture generation flusher :: s.stack →
          generation = s.deferredSaveGeneration := by
      simp only [St.setGameMode]
      split
      · exact ⟨⟨rfl, rfl, rfl, rfl⟩, fun _ _ hpush => absurd hpush.symm (List.cons_ne_self _ _)⟩
      · cases enabled with
        | true =>
          refine ⟨⟨rfl, rfl, rfl, rfl⟩, ?_⟩
          intro generation flusher hpush
          cases hpush
        | false =>
          refine ⟨?_, ?_⟩
          · have hflush := @same_flush { s with
              gameModeGeneration := s.gameModeGeneration + 1, gameMode := false } I.newest .gameMode
            exact ⟨hflush.editor, hflush.save, hflush.generation, hflush.requested⟩
          · intro generation flusher hpush
            exact flush_begun { s with
              gameModeGeneration := s.gameModeGeneration + 1, gameMode := false } _ _ _ hpush
    exact .of_same hsame.1 (by simp) (by simp) (by simp) hsame.2
  | ret ok =>
    cases hstack : s.stack with
    | nil => simp [step, hstack] at hst
    | cons f rest =>
      simp only [step, hstack, Option.some.injEq] at hst
      exact hst ▸ kept_ret I hstack ok
  | retry =>
    simp only [step] at hst
    split at hst
    · cases hst
      unfold St.retryTurn
      split
      · exact .of_same ⟨rfl, rfl, rfl, rfl⟩ (by simp) (by simp) (by simp) (begun_of_stack rfl)
      · exact .of_same (same_flush I.newest .retry) (by simp) (by simp) (by simp)
          (flush_begun s .retry)
    · cases hst
  | schedule =>
    simp only [step] at hst
    split at hst
    · cases hst
      have hsame := same_schedule { s with owed := s.owed - 1 }
      exact .of_same ⟨hsame.editor, hsame.save, hsame.generation, hsame.requested⟩ (by simp)
        (by simp) (by simp) (begun_of_stack (schedule_stack _))
    · cases hst
  | stop =>
    simp only [step] at hst
    split at hst
    · cases hst
      exact .of_same ⟨rfl, rfl, rfl, rfl⟩ (by simp) (by simp) (by simp) (begun_of_stack rfl)
    · cases hst

/-- Only a save in the game mode raises the generation, so a capture that
comes back to the generation it noted met none of them. -/
theorem saves_run {s s' : St} {ls : List Label} (hr : system.Run s ls s') :
    Inv s → s.deferredSaveGeneration ≤ s'.deferredSaveGeneration ∧
      (s'.deferredSaveGeneration = s.deferredSaveGeneration →
        (system.restrict fun s l => ¬ (l = .save ∧ s.gameMode = true)).Run s ls s') := by
  induction hr with
  | nil s => exact fun _ => ⟨Nat.le_refl _, fun _ => .nil s⟩
  | cons hst _ ih =>
    intro I
    obtain ⟨hle, hquiet⟩ := ih (inv_step I hst)
    have hsaves := (step_kept I hst).saves
    refine ⟨by omega, ?_⟩
    intro heq
    refine .cons ⟨?_, hst⟩ (hquiet (by omega))
    intro hsave
    rw [if_pos hsave] at hsaves
    omega

/-! ## Somebody answers for what is kept -/

/-- The flush under way comes to the save, or to the task. -/
def Frame.coversSave (s : St) : Frame → Prop
  | .flushCapture generation _ => generation = s.deferredSaveGeneration
  | .flushEditor _ _ _ failed _ => failed = true
  | _ => False

def Frame.coversEditor (s : St) : Frame → Prop
  | .flushCapture .. => True
  | .flushEditor _ generation _ failed _ =>
    failed = true ∨ generation = s.deferredEditorGeneration
  | .editor _ generation => generation = s.deferredEditorGeneration
  | _ => False

def SaveAnswered (s : St) (stack : List Frame) : Prop :=
  s.deferredSave = true →
    s.deferredRetryScheduled = true ∨ s.runtime = false ∨ ∃ f ∈ stack, f.coversSave s

def EditorAnswered (s : St) (stack : List Frame) : Prop :=
  s.deferredEditor ≠ none →
    s.deferredRetryScheduled = true ∨ s.runtime = false ∨ 0 < s.owed ∨
      ∃ f ∈ stack, f.coversEditor s

def Answered (s : St) (stack : List Frame) : Prop := SaveAnswered s stack ∧ EditorAnswered s stack

def Responsible (s : St) : Prop := s.gameMode = true ∨ Answered s s.stack

/-- A failed switch to the game mode brings the mode back only where what is
kept is answered for without it. -/
def Settled (s : St) (l : Label) : Prop :=
  ∀ generation previous rest, l = .ret false →
    s.stack = .enable generation previous :: rest → s.gameModeGeneration = generation →
    Answered s rest

theorem answered_of_scheduled {s : St} (h : s.deferredRetryScheduled = true) (stack : List Frame) :
    Answered s stack :=
  ⟨fun _ => .inl h, fun _ => .inl h⟩

theorem answered_of_stopped {s : St} (h : s.runtime = false) (stack : List Frame) :
    Answered s stack :=
  ⟨fun _ => .inr (.inl h), fun _ => .inr (.inl h)⟩

theorem responsible_schedule (s : St) : Responsible s.scheduleDeferredRetry := by
  rw [schedule_eq]
  exact .inr (answered_of_scheduled rfl _)

theorem responsible_flushed {s : St} {flusher : Flusher} (hturn : Turn s flusher) {ok : Bool}
    (h : ok = true → Responsible s) : Responsible (s.flushed flusher ok) := by
  cases flusher with
  | gameMode =>
    cases ok with
    | true => exact h rfl
    | false => exact responsible_schedule s
  | retry =>
    unfold St.flushed
    cases hpending : s.pending with
    | true => exact .inr (answered_of_scheduled (hturn rfl).1 _)
    | false =>
      -- The task ends, and nothing is kept.
      simp only [St.pending, Bool.or_eq_false_iff] at hpending
      obtain ⟨hsave, heditor⟩ := hpending
      refine .inr ⟨?_, ?_⟩
      · intro hs
        rw [hsave] at hs
        cases hs
      · intro he
        exact absurd (Option.isNone_iff_eq_none.mp (by simpa using heditor)) he

theorem SaveAnswered.cons {s : St} {stack : List Frame} (h : SaveAnswered s stack) (f : Frame) :
    SaveAnswered s (f :: stack) := by
  intro hs
  obtain hscheduled | hruntime | ⟨g, hg, hcovers⟩ := h hs
  · exact .inl hscheduled
  · exact .inr (.inl hruntime)
  · exact .inr (.inr ⟨g, List.mem_cons_of_mem _ hg, hcovers⟩)

theorem EditorAnswered.cons {s : St} {stack : List Frame} (h : EditorAnswered s stack) (f : Frame) :
    EditorAnswered s (f :: stack) := by
  intro hs
  obtain hscheduled | hruntime | howed | ⟨g, hg, hcovers⟩ := h hs
  · exact .inl hscheduled
  · exact .inr (.inl hruntime)
  · exact .inr (.inr (.inl howed))
  · exact .inr (.inr (.inr ⟨g, List.mem_cons_of_mem _ hg, hcovers⟩))

theorem SaveAnswered.tail {s : St} {stack : List Frame} {f : Frame} (h : SaveAnswered s (f :: stack))
    (hf : ¬ f.coversSave s) : SaveAnswered s stack := by
  intro hs
  obtain hscheduled | hruntime | ⟨g, hg, hcovers⟩ := h hs
  · exact .inl hscheduled
  · exact .inr (.inl hruntime)
  · cases List.mem_cons.mp hg with
    | inl e => exact absurd (e ▸ hcovers) hf
    | inr hg => exact .inr (.inr ⟨g, hg, hcovers⟩)

theorem EditorAnswered.tail {s : St} {stack : List Frame} {f : Frame}
    (h : EditorAnswered s (f :: stack)) (hf : ¬ f.coversEditor s) : EditorAnswered s stack := by
  intro hs
  obtain hscheduled | hruntime | howed | ⟨g, hg, hcovers⟩ := h hs
  · exact .inl hscheduled
  · exact .inr (.inl hruntime)
  · exact .inr (.inr (.inl howed))
  · cases List.mem_cons.mp hg with
    | inl e => exact absurd (e ▸ hcovers) hf
    | inr hg => exact .inr (.inr (.inr ⟨g, hg, hcovers⟩))

/-- The second half of a flush answers for the editor; for the save only
where the capture failed. -/
theorem responsible_edit {s : St} {flusher : Flusher} (hturn : Turn s flusher) (failed : Bool)
    (hsave : s.gameMode = true ∨ failed = true ∨ SaveAnswered s s.stack) :
    Responsible (s.edit failed flusher) := by
  obtain ⟨hnone, h⟩ | ⟨x, _, hmode, h⟩ | ⟨x, _, hmode, h⟩ := edit_cases s failed flusher
  · rw [h]
    refine responsible_flushed hturn ?_
    intro hok
    obtain hmode | hfailed | hanswered := hsave
    · exact .inl hmode
    · rw [hfailed] at hok
      cases hok
    · exact .inr ⟨hanswered, fun he => absurd hnone he⟩
  · rw [h]
    exact @responsible_flushed (s.request x) flusher hturn _ fun _ => .inl hmode
  · rw [h]
    refine .inr ⟨?_, fun _ => .inr (.inr (.inr ⟨_, List.mem_cons_self, .inr rfl⟩))⟩
    obtain hon | hfailed | hanswered := hsave
    · rw [hmode] at hon
      cases hon
    · exact fun _ => .inr (.inr ⟨_, List.mem_cons_self, hfailed⟩)
    · exact SaveAnswered.cons (s := (s.request x)) hanswered _

theorem responsible_flush {s : St} {flusher : Flusher} (hturn : Turn s flusher) :
    Responsible (s.flush flusher) := by
  unfold St.flush
  cases hsave : s.deferredSave with
  | true =>
    exact .inr ⟨fun _ => .inr (.inr ⟨_, List.mem_cons_self, rfl⟩),
      fun _ => .inr (.inr (.inr ⟨_, List.mem_cons_self, trivial⟩))⟩
  | false =>
    refine responsible_edit hturn false (.inr (.inr ?_))
    intro hs
    rw [hsave] at hs
    cases hs

/-- The success of an action that answered for the editor alone. -/
theorem responsible_applied {s : St} {f : Frame} {rest : List Frame} {generation : Nat}
    (h : s.gameMode = true ∨ Answered s (f :: rest)) (hsave : ¬ f.coversSave s)
    (heditor : f.coversEditor s → generation = s.deferredEditorGeneration) :
    Responsible ({ s with stack := rest }.applied generation true) := by
  unfold St.applied
  obtain hmode | ⟨hs, he⟩ := h
  · split
    · exact .inl hmode
    · exact .inl hmode
  · split
    · exact .inr ⟨hs.tail hsave, fun hsome => absurd rfl hsome⟩
    · rename_i hnot
      refine .inr ⟨hs.tail hsave, he.tail ?_⟩
      intro hcovers
      exact hnot ⟨rfl, (heditor hcovers).symm⟩

theorem applied_false (s : St) (generation : Nat) : s.applied generation false = s := by
  simp [St.applied]

theorem responsible_returned {s : St} {f : Frame} {rest : List Frame} (I : Inv s)
    (h : s.stack = f :: rest) (hr : Responsible s) (ok : Bool) (hsettled : Settled s (.ret ok)) :
    Responsible ({ s with stack := rest }.returned ok f) := by
  have hanswered : s.gameMode = true ∨ Answered s (f :: rest) := h ▸ hr
  cases f with
  | editor intent generation =>
    cases ok with
    | true => exact responsible_applied hanswered id id
    | false =>
      simp only [St.returned, Bool.false_eq_true, if_false, applied_false]
      split
      · obtain hmode | ⟨hs, _⟩ := hanswered
        · exact .inl hmode
        · exact .inr ⟨hs.tail id, fun _ => .inr (.inr (.inl (Nat.succ_pos _)))⟩
      · exact responsible_schedule _
  | flushEditor intent generation before failed flusher =>
    have hturn : Turn { s with stack := rest } flusher :=
      I.turn_pop h fun hretry => by rw [hretry]; rfl
    have hbefore : before < ({ s with stack := rest } : St).deferredEditorGeneration :=
      I.before_lt h
    rw [returned_flushEditor hbefore]
    cases ok with
    | true =>
      obtain ⟨hstack, hscheduled⟩ := applied_stack { s with stack := rest } generation true
      rw [if_pos rfl]
      refine responsible_flushed (hturn.edited hstack fun hs => hscheduled.trans hs) ?_
      intro hok
      have hfailed : failed = false := by simpa using hok
      refine responsible_applied hanswered ?_ ?_
      · intro hcovers
        exact absurd (hcovers.symm.trans hfailed) (by decide)
      · intro hcovers
        obtain hyes | hnewest := hcovers
        · exact absurd (hyes.symm.trans hfailed) (by decide)
        · exact hnewest
    | false =>
      rw [if_neg Bool.false_ne_true, applied_false]
      refine responsible_flushed (hturn.edited (schedule_stack _) ?_) fun hok => by cases hok
      intro _
      rw [schedule_eq]
  | capture =>
    obtain hmode | ⟨hs, he⟩ := hanswered
    · exact .inl hmode
    · exact .inr ⟨hs.tail id, he.tail id⟩
  | flushCapture generation flusher =>
    have hturn : Turn { s with stack := rest } flusher :=
      I.turn_pop h fun hretry => by rw [hretry]; rfl
    simp only [St.returned]
    split
    · split
      · refine @responsible_edit { s with deferredSave := false, stack := rest } flusher hturn false
          (.inr (.inr ?_))
        intro hs
        cases hs
      · rename_i hgeneration
        refine responsible_edit hturn false ?_
        obtain hmode | ⟨hs, _⟩ := hanswered
        · exact .inl hmode
        · exact .inr (.inr (hs.tail fun hcovers => hgeneration hcovers.symm))
    · exact responsible_edit hturn true (.inr (.inl rfl))
  | enable generation previous =>
    simp only [St.returned]
    split
    · rename_i hback
      have hok : ok = false := hback.1
      rw [hok] at hsettled
      exact .inr (hsettled generation previous rest rfl h hback.2)
    · obtain hmode | ⟨hs, he⟩ := hanswered
      · exact .inl hmode
      · exact .inr ⟨hs.tail id, he.tail id⟩

theorem responsible_setGameMode {s : St} (hr : Responsible s) (enabled : Bool) :
    Responsible (s.setGameMode enabled) := by
  simp only [St.setGameMode]
  split
  · exact hr
  · cases enabled with
    | true => exact .inl rfl
    | false => exact responsible_flush fun h => by cases h

theorem responsible_step {s s' : St} {l : Label} (I : Inv s) (hr : Responsible s)
    (hsettled : Settled s l) (hst : step s l = some s') : Responsible s' := by
  cases l with
  | editor intent =>
    cases hst
    simp only [St.applyEditorIntent]
    split
    · rename_i hmode
      exact .inl hmode
    · rename_i hmode
      refine .inr ⟨?_, fun _ => .inr (.inr (.inr ⟨_, List.mem_cons_self, rfl⟩))⟩
      obtain hon | hanswered := hr
      · exact absurd hon hmode
      · exact SaveAnswered.cons (s := s.request intent) hanswered.1 _
  | save =>
    cases hst
    unfold St.checkpointVstState
    split
    · rename_i hmode
      exact .inl hmode
    · rename_i hmode
      obtain hon | hanswered := hr
      · exact absurd hon hmode
      · exact .inr ⟨hanswered.1.cons _, hanswered.2.cons _⟩
  | gameMode enabled =>
    cases hst
    exact responsible_setGameMode hr enabled
  | ret ok =>
    cases hstack : s.stack with
    | nil => simp [step, hstack] at hst
    | cons f rest =>
      simp only [step, hstack, Option.some.injEq] at hst
      exact hst ▸ responsible_returned I hstack hr ok hsettled
  | retry =>
    simp only [step] at hst
    split at hst
    · rename_i h
      cases hst
      unfold St.retryTurn
      split
      · rename_i hends
        cases hends with
        | inl hmode => exact .inl hmode
        | inr hruntime => exact .inr (@answered_of_stopped { s with
            deferredRetryScheduled := false, tasks := s.tasks - 1 } hruntime _)
      · refine responsible_flush fun _ => ⟨?_, by simp [h.1]⟩
        exact scheduled_of_tasks I h.2
    · cases hst
  | schedule =>
    simp only [step] at hst
    split at hst
    · cases hst
      exact responsible_schedule _
    · cases hst
  | stop =>
    simp only [step] at hst
    split at hst
    · cases hst
      exact .inr (answered_of_stopped rfl _)
    · cases hst

theorem responsible_inductive :
    (system.restrict Settled).InductiveUnder Inv Responsible where
  init s hs := by
    obtain ⟨hsave, heditor, _, _⟩ := hs
    refine .inr ⟨?_, fun h => absurd heditor h⟩
    intro h
    rw [hsave] at h
    cases h
  step _ _ _ I hr hst := responsible_step I hr hst.1 hst.2

/-! ## Whole runs -/

/-- No call is under way: the gate is free, and no failed request has yet to
start the task. -/
def Quiet (s : St) : Prop := s.stack = [] ∧ s.owed = 0

theorem scheduled_of_responsible {s : St} (hr : Responsible s) (hquiet : Quiet s)
    (hmode : s.gameMode = false) (hruntime : s.runtime = true) (hpending : s.pending = true) :
    s.deferredRetryScheduled = true := by
  obtain ⟨hstack, howed⟩ := hquiet
  obtain hon | ⟨hsave, heditor⟩ := hr
  · rw [hmode] at hon
    cases hon
  · rw [hstack] at hsave heditor
    simp only [St.pending, Bool.or_eq_true] at hpending
    cases hpending with
    | inl hs =>
      obtain hscheduled | hstopped | ⟨f, hf, _⟩ := hsave hs
      · exact hscheduled
      · rw [hruntime] at hstopped
        cases hstopped
      · cases hf
    | inr he =>
      obtain hscheduled | hstopped | hlate | ⟨f, hf, _⟩ := heditor (Option.isSome_iff_ne_none.mp he)
      · exact hscheduled
      · rw [hruntime] at hstopped
        cases hstopped
      · omega
      · cases hf

/-- In every run each step clears what is kept only as `Kept` says, and one
task at most is alive. In those that are `Settled` whatever is kept has a task
that comes back to it, once the calls are over. -/
theorem deferred_actions (s : St) (hs : system.Reachable s) :
    s.tasks ≤ 1 ∧ (s.tasks = 1 ↔ s.deferredRetryScheduled = true) ∧
      (∀ l s', step s l = some s' → Kept s l s') ∧
      (∀ ls s', system.Run s ls s' → s'.deferredSaveGeneration = s.deferredSaveGeneration →
        (system.restrict fun s l => ¬ (l = .save ∧ s.gameMode = true)).Run s ls s') ∧
      ((system.restrict Settled).Reachable s → Quiet s → s.gameMode = false → s.runtime = true →
        s.pending = true → s.deferredRetryScheduled = true) := by
  have I := inv_inductive.reachable s hs
  refine ⟨?_, ?_, fun l s' => step_kept I, fun ls s' hr => (saves_run hr I).2, ?_⟩
  · rw [I.tasks]
    split <;> omega
  · rw [I.tasks]
    cases s.deferredRetryScheduled with
    | true => simp
    | false => simp
  · intro hsettled
    exact scheduled_of_responsible
      (responsible_inductive.reachable (inv_inductive.restrict Settled) s hsettled)

def started : St where
  gameMode := false
  gameModeGeneration := 0
  deferredSave := false
  deferredSaveGeneration := 0
  deferredEditor := none
  deferredEditorGeneration := 0
  runtime := true
  deferredRetryScheduled := false
  tasks := 0
  owed := 0
  requested := none
  stack := []

/-- A failed request has its task, which a failed switch leaves alone. -/
theorem deferred_actions_orderly : ∃ s, (system.restrict Settled).Reachable s ∧
    s.pending = true ∧ s.deferredRetryScheduled = true ∧ s.tasks = 1 := by
  have hrun : (system.restrict Settled).Run started
      [.editor .openUi, .ret false, .schedule, .gameMode true, .ret false]
      { started with
        gameModeGeneration := 1, deferredEditor := some .openUi, deferredEditorGeneration := 1
        deferredRetryScheduled := true, tasks := 1, requested := some .openUi } := by
    refine .cons ⟨?_, rfl⟩ (.cons ⟨?_, rfl⟩ (.cons ⟨?_, rfl⟩ (.cons ⟨?_, rfl⟩ (.cons ⟨?_, rfl⟩
      (.nil _)))))
    · intro _ _ _ h
      cases h
    · intro _ _ _ _ h
      cases h
    · intro _ _ _ h
      cases h
    · intro _ _ _ h
      cases h
    · intro _ _ _ _ _ _
      exact answered_of_scheduled rfl _
  have hs : (system.restrict Settled).Reachable _ := ⟨started, _, ⟨rfl, rfl, rfl, rfl⟩, hrun⟩
  obtain ⟨_, htasks, _, _, hresponsible⟩ := deferred_actions _ (LTS.reachable_of_restrict hs)
  have hscheduled := hresponsible hs ⟨rfl, rfl⟩ rfl rfl rfl
  exact ⟨_, hs, rfl, hscheduled, htasks.mpr hscheduled⟩

/-- A request inside the switch to the game mode is kept for it, and the
switch then fails: no game mode, and no task. -/
theorem rollback_forgets : ∃ s, system.Reachable s ∧ Quiet s ∧ s.gameMode = false ∧
    s.runtime = true ∧ s.pending = true ∧ s.deferredRetryScheduled = false ∧ s.tasks = 0 := by
  have hexec : LTS.exec step started [.gameMode true, .editor .openUi, .ret false] =
      some { started with
        gameModeGeneration := 1, deferredEditor := some .openUi, deferredEditorGeneration := 1
        requested := some .openUi } := rfl
  exact ⟨_, LTS.reachable_of_exec _ ⟨rfl, rfl, rfl, rfl⟩ hexec, ⟨rfl, rfl⟩, rfl, rfl, rfl, rfl, rfl⟩

end RtpOscMidi.L2.DeferredActions
