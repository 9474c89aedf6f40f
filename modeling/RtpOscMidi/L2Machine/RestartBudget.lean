import RtpOscMidi.Core.LTS
import RtpOscMidi.Core.SlidingWindow

/-!
# The restart budget of the VST worker

`schedule_restart_after_fault` with the fields of the supervisor that it
reads and writes. Everything else may change them between two faults, except
the history of the restarts, which nothing else touches. Times are in
nanoseconds, and those of the faults do not decrease.
-/
namespace RtpOscMidi.L2.RestartBudget

open Core SlidingWindow

/-- mirrors src-tauri/src/vst_worker/supervisor.rs:37-38 -/
def restartWindow : Nat := 60000000000

def maxRestartsPerWindow : Nat := 3

/-- mirrors src-tauri/src/vst_worker/supervisor.rs:45-53 -/
inductive VstWorkerState where
  | disabled
  | starting
  | loading
  | ready
  | stopping
  | faulted
  deriving DecidableEq, Repr

/-- `lastLoad` has the settings and the class of the last load.
mirrors src-tauri/src/vst_worker/supervisor.rs:68-80,113-129 -/
structure Supervisor (L : Type) where
  lifecycleGeneration : Nat
  state : VstWorkerState
  restarts : Nat
  lastExit : Option String
  lastLoad : Option L
  restartHistory : List Nat
  deriving DecidableEq, Repr

/-- How `schedule_restart_after_fault` returned; `restart` spawned a task. -/
inductive Scheduled (L : Type) where
  | stale
  | exhausted
  | neverLoaded
  | restart (load : L) (generation : Nat)
  deriving DecidableEq, Repr

variable {L : Type}

/-- mirrors src-tauri/src/vst_worker/supervisor.rs:787-846 -/
def scheduleRestartAfterFault (generation now : Nat) (s : Supervisor L) :
    Supervisor L × Scheduled L :=
  if generation ≠ s.lifecycleGeneration then (s, .stale)
  else
    let (allowed, history) := request restartWindow maxRestartsPerWindow now s.restartHistory
    let s := { s with restartHistory := history }
    if !allowed then
      ({ s with
          state := .faulted
          lastExit := some "VST worker restart budget exhausted (3 restarts in 60 seconds)" },
        .exhausted)
    else
      match s.lastLoad with
      | none => (s, .neverLoaded)
      | some load => ({ s with restarts := min (s.restarts + 1) (2 ^ 32 - 1) }, .restart load generation)

/-- What the budget decided, when it was asked. -/
def Scheduled.allowed : Scheduled L → Option Bool
  | .stale => none
  | .exhausted => some false
  | .neverLoaded | .restart .. => some true

def Scheduled.restarts : Scheduled L → Bool
  | .restart .. => true
  | _ => false

structure St (L : Type) where
  supervisor : Supervisor L
  last : Nat
  decisions : List (Nat × Bool)
  restarted : List Nat
  deriving DecidableEq, Repr

inductive Lbl (L : Type) where
  | fault (generation now : Nat)
  /-- a lifecycle request, a change of the published status, a load -/
  | other (generation : Nat) (state : VstWorkerState) (restarts : Nat) (lastExit : Option String)
      (lastLoad : Option L)

def step (s : St L) : Lbl L → Option (St L)
  | .fault generation now =>
    if s.last ≤ now then
      let (supervisor, result) := scheduleRestartAfterFault generation now s.supervisor
      some { supervisor, last := now,
             decisions := s.decisions ++ (result.allowed.map (now, ·)).toList,
             restarted := if result.restarts then s.restarted ++ [now] else s.restarted }
    else none
  | .other generation state restarts lastExit lastLoad =>
    some { s with supervisor := ⟨generation, state, restarts, lastExit, lastLoad,
      s.supervisor.restartHistory⟩ }

def start : St L := ⟨⟨0, .disabled, 0, none, none, []⟩, 0, [], []⟩

def lts (L : Type) : LTS (St L) (Lbl L) := .ofStep (· = start) step

/-! ## One fault -/

/-- The budget is asked unless the fault is stale, and restarts no more than
it allows. -/
theorem schedule_cases (generation now : Nat) (s : Supervisor L) :
    ((scheduleRestartAfterFault generation now s).2 = .stale ∧
      (scheduleRestartAfterFault generation now s).1 = s) ∨
    ((scheduleRestartAfterFault generation now s).1.restartHistory =
        (request restartWindow maxRestartsPerWindow now s.restartHistory).2 ∧
      (scheduleRestartAfterFault generation now s).2.allowed =
        some (request restartWindow maxRestartsPerWindow now s.restartHistory).1 ∧
      ((scheduleRestartAfterFault generation now s).2.restarts = true →
        (request restartWindow maxRestartsPerWindow now s.restartHistory).1 = true)) := by
  unfold scheduleRestartAfterFault
  generalize request restartWindow maxRestartsPerWindow now s.restartHistory = r
  obtain ⟨allowed, history⟩ := r
  split
  · exact .inl ⟨rfl, rfl⟩
  · refine .inr ?_
    cases allowed with
    | false => exact ⟨rfl, rfl, fun h => by cases h⟩
    | true =>
      cases s.lastLoad with
      | none => simp [Scheduled.allowed, Scheduled.restarts]
      | some load => simp [Scheduled.allowed, Scheduled.restarts]

/-- A fault is passed over only when its generation is no longer the current
one. -/
theorem schedule_stale_iff (generation now : Nat) (s : Supervisor L) :
    (scheduleRestartAfterFault generation now s).2 = .stale ↔
      generation ≠ s.lifecycleGeneration := by
  unfold scheduleRestartAfterFault
  generalize request restartWindow maxRestartsPerWindow now s.restartHistory = r
  obtain ⟨allowed, history⟩ := r
  split
  · next hmoved => exact iff_of_true rfl hmoved
  · next hcurrent =>
    refine iff_of_false ?_ hcurrent
    cases allowed with
    | false => simp
    | true => cases s.lastLoad <;> simp

/-! ## Runs -/

structure Inv (s : St L) : Prop where
  budget : Budget restartWindow maxRestartsPerWindow s.last s.supervisor.restartHistory s.decisions
  restarted : s.restarted.Sublist (granted s.decisions)

theorem inv_inductive (L : Type) : (lts L).Inductive Inv where
  init := by
    intro s h
    subst h
    exact ⟨budget_nil _ _ _, List.nil_sublist _⟩
  step := by
    intro s l s' I hst
    cases l with
    | other generation state restarts lastExit lastLoad =>
      cases hst
      exact ⟨I.budget, I.restarted⟩
    | fault generation now =>
      simp only [lts, LTS.ofStep, step] at hst
      split at hst
      · rename_i hnow
        simp only [Option.some.injEq] at hst
        subst hst
        rcases schedule_cases generation now s.supervisor with ⟨hres, hsame⟩ | ⟨hhist, hallow, hmay⟩
        · rw [hres, hsame]
          have B := I.budget.later hnow
          simpa [Scheduled.allowed, Scheduled.restarts] using (⟨B, I.restarted⟩ :
            Inv ⟨s.supervisor, now, s.decisions, s.restarted⟩)
        · have B := I.budget.request hnow
          rw [← hhist] at B
          simp only [hallow, Option.map_some, Option.toList_some]
          refine ⟨B, ?_⟩
          rw [granted_append]
          split
          · rename_i hrestarts
            rw [hmay hrestarts]
            exact List.Sublist.append I.restarted (List.Sublist.refl _)
          · exact I.restarted.trans (List.sublist_append_left _ _)
      · cases hst

/-- What the budget holds in every run: a bound for every window, a reason for
every refusal, a history no longer than the budget; every restart was allowed;
and a fault that the budget is not asked about is of an older generation. -/
theorem restart_budget (L : Type) (s : St L) (h : (lts L).Reachable s) :
    (∀ lo, (within lo (lo + restartWindow) (granted s.decisions)).length ≤ maxRestartsPerWindow) ∧
    AtEach (fun before e => e.2 = false →
      maxRestartsPerWindow ≤ (within (e.1 - restartWindow) e.1 (granted before)).length) s.decisions ∧
    s.supervisor.restartHistory.length ≤ maxRestartsPerWindow ∧
    s.restarted.Sublist (granted s.decisions) ∧
    ∀ generation now, (scheduleRestartAfterFault generation now s.supervisor).2 = .stale ↔
      generation ≠ s.supervisor.lifecycleGeneration := by
  have I := (inv_inductive L).reachable s h
  exact ⟨I.budget.window, I.budget.refused, I.budget.size, I.restarted,
    fun generation now => schedule_stale_iff generation now s.supervisor⟩

/-- Four faults within a minute, and one a minute after the second. -/
theorem restart_budget_minute : ∃ s : St Unit,
    s.decisions.map (·.2) = [true, true, true, false, true] ∧
    (∀ lo, (within lo (lo + restartWindow) (granted s.decisions)).length ≤ maxRestartsPerWindow) ∧
      s.supervisor.restartHistory.length ≤ maxRestartsPerWindow := by
  have hrun : ∃ s, (lts Unit).Reachable s ∧
      decide (s.decisions.map (·.2) = [true, true, true, false, true]) = true :=
    LTS.reachable_of_any ([0, 10, 20, 60, 71].map fun second => .fault 0 (second * 1000000000)) rfl
      (by decide +kernel)
  obtain ⟨s, hs, hd⟩ := hrun
  obtain ⟨hwindow, -, hsize, -⟩ := restart_budget Unit s hs
  exact ⟨s, of_decide_eq_true hd, hwindow, hsize⟩

end RtpOscMidi.L2.RestartBudget
