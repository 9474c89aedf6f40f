import Mathlib

/-!
# Game mode transitions

`transition_game_mode` sets the mode, runs an operation and, where that fails,
sets the mode back unless another transition was started meanwhile. The
operation may start transitions itself, on the same thread: a `Nest` is the
calls it makes, each with the calls made inside it, and what each returns. The
generation does not wrap.

* `run_eq`: the mode is left at the target of the transition started last
  among those that succeeded or started another.
* `run_eq_due_iff`: when that is the last one that succeeded.
-/
namespace RtpOscMidi.L2.GameMode

structure Engine where
  gameMode : Bool
  generation : Nat
  deriving DecidableEq, Repr

/-- mirrors src-tauri/src/audio/game_mode.rs:78-94 -/
def transitionGameMode (s : Engine) (enabled : Bool) (operation : Engine → Engine × Bool) :
    Engine × Bool :=
  let generation := s.generation + 1
  let previous := s.gameMode
  let (s, ok) := operation ⟨enabled, generation⟩
  if ok = false ∧ s.generation = generation then ({ s with gameMode := previous }, ok) else (s, ok)

/-- Calls one after the other: `inner` are those the operation of the first
one makes, `ok` is what it returns. -/
inductive Nest where
  | done
  | call (enabled : Bool) (inner : Nest) (ok : Bool) (next : Nest)
  deriving DecidableEq, Repr

def Nest.run : Nest → Engine → Engine
  | .done, s => s
  | .call enabled inner ok next, s =>
    next.run (transitionGameMode s enabled fun s => (inner.run s, ok)).1

/-- A transition of a nest; `nested`: it started another. -/
structure Transition where
  enabled : Bool
  ok : Bool
  nested : Bool
  deriving DecidableEq, Repr

/-- In the order in which they are started. -/
def Nest.calls : Nest → List Transition
  | .done => []
  | .call enabled inner ok next =>
    ⟨enabled, ok, inner != .done⟩ :: (inner.calls ++ next.calls)

/-- The mode asked for by the transition started last among those that
succeeded. -/
def Nest.due (n : Nest) (before : Bool) : Bool :=
  ((n.calls.reverse.find? (·.ok)).map (·.enabled)).getD before

/-- Of the transitions that failed after starting another, the one started
last, unless one that succeeded was started after it. -/
def Nest.stale (n : Nest) : Option Transition :=
  (n.calls.reverse.takeWhile fun t => !t.ok).find? (·.nested)

theorem Nest.calls_eq_nil {n : Nest} : n.calls = [] ↔ n = .done := by
  cases n with
  | done => simp [calls]
  | call enabled inner ok next => simp [calls]

/-- The last of the list that succeeded or started another. -/
theorem find_ok_or_nested (l : List Transition) :
    l.find? (fun t => t.ok || t.nested) =
      ((l.takeWhile fun t => !t.ok).find? (·.nested)).or (l.find? (·.ok)) := by
  induction l with
  | nil => rfl
  | cons t l ih =>
    cases hok : t.ok with
    | true => simp [hok]
    | false =>
      cases hnested : t.nested with
      | true => simp [hok, hnested]
      | false => simp [hok, hnested, ih]

/-- The mode that a failed transition without calls inside finds comes back;
every other transition leaves what the calls inside it leave. -/
theorem run_eq (n : Nest) (s : Engine) :
    (n.run s).generation = s.generation + n.calls.length ∧
      (n.run s).gameMode =
        ((n.calls.reverse.find? fun t => t.ok || t.nested).map (·.enabled)).getD s.gameMode := by
  induction n generalizing s with
  | done => exact ⟨rfl, rfl⟩
  | call enabled inner ok next ihInner ihNext =>
    obtain ⟨hgen, hmode⟩ := ihInner ⟨enabled, s.generation + 1⟩
    simp only at hgen hmode
    have hundo : (inner.run ⟨enabled, s.generation + 1⟩).generation = s.generation + 1 ↔
        inner = .done := by
      rw [hgen, ← Nest.calls_eq_nil, ← List.length_eq_zero_iff]
      omega
    obtain ⟨hgen', hmode'⟩ :=
      ihNext (transitionGameMode s enabled fun s => (inner.run s, ok)).1
    rw [Nest.run, hgen', hmode']
    simp only [transitionGameMode, hundo, Nest.calls, List.reverse_cons, List.reverse_append,
      List.find?_append, List.length_cons, List.length_append]
    split
    · rename_i hfail
      obtain ⟨hok, hinner⟩ := hfail
      subst hinner
      refine ⟨?_, ?_⟩
      · rw [hgen]
        simp only [Nest.calls, List.length_nil]
        omega
      · simp [hok, Nest.calls]
    · rename_i hkeep
      refine ⟨by rw [hgen]; omega, ?_⟩
      rw [hmode]
      have htop : (ok || inner != .done) = true := by
        cases ok with
        | true => rfl
        | false => simpa using hkeep
      cases next.calls.reverse.find? fun t => t.ok || t.nested <;>
        cases inner.calls.reverse.find? fun t => t.ok || t.nested <;> simp [htop]

/-- The mode after a nest is the one asked for by the last transition that
succeeded, unless a failed one that started another comes after it and asked
for the other mode. -/
theorem run_eq_due_iff (n : Nest) (s : Engine) :
    (n.run s).gameMode = n.due s.gameMode ↔
      ∀ t ∈ n.stale, t.enabled = n.due s.gameMode := by
  rw [(run_eq n s).2, find_ok_or_nested, ← Nest.stale]
  cases hstale : n.stale with
  | none => simp [Nest.due]
  | some t => simp

/-- Two transitions, one inside the other, both fail: the mode stays changed. -/
theorem failed_nest_changes_mode :
    let n : Nest := .call true (.call false .done false .done) false .done
    (n.run ⟨false, 0⟩).gameMode = true ∧ n.due false = false := by
  decide

end RtpOscMidi.L2.GameMode
