import Mathlib.Logic.Basic

/-!
# Operations that fail half way

An operation on a state that may fail, and leaves a state behind either way.

* `Attempt.Spec P f Q E`: from `P`, `f` ends in `Q` when it succeeds and in
  `E` when it fails. One rule for each way to build an attempt.
* `transact apply persist undo`: `undo` runs when one of the two before it
  fails, and can fail itself. It only has to get from what a failure can leave
  to where the state should be (`transact_spec`).
* `Setting same send v r`: the value `v` is what some request that is the same
  as `r` was sent as. A request that is the same as the remembered one is not
  sent again (`unlessSame`), and `Setting.trans` is why this is enough.
-/
namespace Core

universe u v w

/-- The state that it leaves, and how it ended. -/
def Attempt (σ : Type u) (ε : Type v) := σ → σ × Except ε Unit

namespace Attempt

variable {σ : Type u} {ε : Type v} {f g : Attempt σ ε} {P P' Q Q' R E E' : σ → Prop}

/-- What cannot fail. -/
def always (f : σ → σ) : Attempt σ ε := fun s => (f s, .ok ())

/-- The second runs when the first succeeds. -/
def andThen (f g : Attempt σ ε) : Attempt σ ε := fun s =>
  match f s with
  | (s', .ok ()) => g s'
  | (s', .error e) => (s', .error e)

def onlyIf (c : σ → Bool) (f : Attempt σ ε) : Attempt σ ε := fun s =>
  if c s then f s else (s, .ok ())

/-- How `f` can end from `s`. -/
structure Ends (f : Attempt σ ε) (s : σ) (Q E : σ → Prop) : Prop where
  ok : ∀ s', f s = (s', .ok ()) → Q s'
  error : ∀ s' e, f s = (s', .error e) → E s'

def Spec (P : σ → Prop) (f : Attempt σ ε) (Q E : σ → Prop) : Prop := ∀ s, P s → Ends f s Q E

theorem Ends.congr {s s₁ : σ} (h : Ends g s₁ Q E) (heq : f s = g s₁) : Ends f s Q E where
  ok s' hf := h.ok s' (heq ▸ hf)
  error s' e hf := h.error s' e (heq ▸ hf)

theorem Ends.mono {s : σ} (h : Ends f s Q E) (hQ : ∀ s', Q s' → Q' s') (hE : ∀ s', E s' → E' s') :
    Ends f s Q' E' where
  ok s' hf := hQ s' (h.ok s' hf)
  error s' e hf := hE s' (h.error s' e hf)

theorem Spec.weaken (h : Spec P f Q E) (hP : ∀ s, P' s → P s) (hQ : ∀ s, Q s → Q' s)
    (hE : ∀ s, E s → E' s) : Spec P' f Q' E' :=
  fun s hs => (h s (hP s hs)).mono hQ hE

theorem Spec.and (h : Spec P f Q E) (h' : Spec P' f Q' E') :
    Spec (fun s => P s ∧ P' s) f (fun s => Q s ∧ Q' s) fun s => E s ∧ E' s :=
  fun s hs => ⟨fun s' hf => ⟨(h s hs.1).ok s' hf, (h' s hs.2).ok s' hf⟩,
    fun s' e hf => ⟨(h s hs.1).error s' e hf, (h' s hs.2).error s' e hf⟩⟩

theorem Spec.always {m : σ → σ} (h : ∀ s, P s → Q (m s)) :
    Spec P (Attempt.always m : Attempt σ ε) Q E := by
  intro s hs
  constructor
  · intro s' hf
    cases hf
    exact h s hs
  · intro s' e hf
    cases hf

theorem Spec.andThen (hf : Spec P f Q E) (hg : Spec Q g R E) : Spec P (f.andThen g) R E := by
  intro s hs
  have hfirst := hf s hs
  cases hdone : f s with
  | mk s₁ result =>
    cases result with
    | ok u =>
      refine (hg s₁ (hfirst.ok s₁ hdone)).congr ?_
      simp only [Attempt.andThen, hdone]
    | error e =>
      have heq : f.andThen g s = (s₁, .error e) := by simp only [Attempt.andThen, hdone]
      constructor
      · intro s' h
        rw [heq] at h
        cases h
      · intro s' e' h
        rw [heq] at h
        cases h
        exact hfirst.error s₁ e hdone

theorem Spec.onlyIf {c : σ → Bool} (h : Spec (fun s => P s ∧ c s = true) f Q E)
    (hskip : ∀ s, P s → c s = false → Q s) : Spec P (onlyIf c f) Q E := by
  intro s hs
  cases hc : c s with
  | true =>
    refine (h s ⟨hs, hc⟩).congr ?_
    simp only [Attempt.onlyIf, hc, if_true]
  | false =>
    have heq : Attempt.onlyIf c f s = (s, .ok ()) := by
      simp only [Attempt.onlyIf, hc, Bool.false_eq_true, if_false]
    constructor
    · intro s' hf
      rw [heq] at hf
      cases hf
      exact hskip s hs hc
    · intro s' e hf
      rw [heq] at hf
      cases hf

theorem Spec.trivial (f : Attempt σ ε) : Spec P f (fun _ => True) fun _ => True :=
  fun _ _ => ⟨fun _ _ => True.intro, fun _ _ _ => True.intro⟩

/-- However `f` ends. -/
abbrev Keeps (P : σ → Prop) (f : Attempt σ ε) : Prop := Spec P f P P

theorem Keeps.always {m : σ → σ} (h : ∀ s, P s → P (m s)) :
    Keeps P (Attempt.always m : Attempt σ ε) :=
  Spec.always h

theorem Keeps.andThen (hf : Keeps P f) (hg : Keeps P g) : Keeps P (f.andThen g) :=
  Spec.andThen hf hg

theorem Keeps.under (h : Keeps P f) : Spec (fun s => P s ∧ R s) f P P :=
  fun s hs => h s hs.1

theorem Keeps.onlyIf {c : σ → Bool} (h : Keeps P f) : Keeps P (onlyIf c f) :=
  Spec.onlyIf h.under fun _ hs _ => hs

end Attempt

/-! ## With a way back -/

inductive Outcome (ε : Type v) where
  | committed
  | undone (error : ε)
  | torn (error rollback : ε)
  deriving DecidableEq, Repr

section Transact

variable {σ : Type u} {ε : Type v} {apply persist undo : Attempt σ ε} {P Q R U E T : σ → Prop}

def transact (apply persist undo : Attempt σ ε) (s : σ) : σ × Outcome ε :=
  match apply.andThen persist s with
  | (s', .ok ()) => (s', .committed)
  | (s', .error error) =>
    match undo s' with
    | (s'', .ok ()) => (s'', .undone error)
    | (s'', .error rollback) => (s'', .torn error rollback)

/-- `R` when it went through, `U` when it was taken back, and `T` when that failed. -/
def Outcome.After (R U T : σ → Prop) (result : σ × Outcome ε) : Prop :=
  match result.2 with
  | .committed => R result.1
  | .undone _ => U result.1
  | .torn _ _ => T result.1

/-- `E` is what a failure can leave, of whichever step. -/
theorem transact_spec (happly : Attempt.Spec P apply Q E) (hpersist : Attempt.Spec Q persist R E)
    (hundo : Attempt.Spec E undo U T) {s : σ} (hs : P s) :
    Outcome.After R U T (transact apply persist undo s) := by
  have hboth := happly.andThen hpersist s hs
  unfold transact
  cases hdone : apply.andThen persist s with
  | mk s' result =>
    cases result with
    | ok u => exact hboth.ok _ hdone
    | error e =>
      have hleft := hundo s' (hboth.error _ _ hdone)
      dsimp only
      cases hback : undo s' with
      | mk s'' back =>
        cases back with
        | ok u => exact hleft.ok _ hback
        | error r => exact hleft.error _ _ hback

theorem transact_keeps (happly : apply.Keeps P) (hpersist : persist.Keeps P) (hundo : undo.Keeps P)
    {s : σ} (hs : P s) : P (transact apply persist undo s).1 := by
  have hafter := transact_spec happly hpersist hundo hs
  unfold Outcome.After at hafter
  cases hdone : (transact apply persist undo s).2 with
  | committed => rwa [hdone] at hafter
  | undone e => rwa [hdone] at hafter
  | torn e r => rwa [hdone] at hafter

end Transact

/-! ## A setting that is remembered -/

section Remembered

variable {σ : Type u} {ε : Type v} {V : Type w} {same : V → V → Bool} {send : V → V} {v r r' : V}

/-- What a request is sent as is `send`; a start takes it as it is. -/
def Setting (same : V → V → Bool) (send : V → V) (v r : V) : Prop :=
  ∃ a, (v = a ∨ v = send a) ∧ (a = r ∨ same a r = true)

theorem Setting.started (same : V → V → Bool) (send : V → V) (r : V) : Setting same send r r :=
  ⟨r, .inl rfl, .inl rfl⟩

theorem Setting.trans (htrans : ∀ a b c, same a b = true → same b c = true → same a c = true)
    (h : Setting same send v r) (hr : same r r' = true) : Setting same send v r' := by
  obtain ⟨a, hv, ha⟩ := h
  refine ⟨a, hv, .inr ?_⟩
  cases ha with
  | inl ha =>
    rw [ha]
    exact hr
  | inr ha => exact htrans _ _ _ ha hr

/-- The value is the one at first and nothing was sent, or it is what the
remembered request was sent as. -/
def Tracked (send : V → V) (first remembered v applied : V) : Prop :=
  v = first ∧ applied = remembered ∨ v = applied ∨ v = send applied

/-- What the value is in the end, from what was remembered in between. -/
theorem Tracked.settled {first remembered applied : V} (h : Tracked send first remembered v applied)
    (hr : applied = r ∨ same applied r = true) :
    v = first ∧ (remembered = r ∨ same remembered r = true) ∨ Setting same send v r := by
  obtain ⟨hv, happlied⟩ | hv := h
  · rw [happlied] at hr
    exact .inl ⟨hv, hr⟩
  · exact .inr ⟨applied, hv, hr⟩

/-- A request that is not the same as the remembered one is sent, and
remembered when it was admitted. -/
def unlessSame (same : V → V → Bool) (applied : σ → V) (remember : V → σ → σ)
    (deliver : V → Attempt σ ε) (requested : V) : Attempt σ ε :=
  .onlyIf (fun s => !same (applied s) requested)
    ((deliver requested).andThen (.always (remember requested)))

theorem unlessSame_spec {applied : σ → V} {remember : V → σ → σ} {deliver : V → Attempt σ ε}
    {P Q E : σ → Prop}
    (hdeliver : Attempt.Spec (fun s => P s ∧ same (applied s) r = false) (deliver r)
      (fun s => Q (remember r s)) E)
    (hskip : ∀ s, P s → same (applied s) r = true → Q s) :
    Attempt.Spec P (unlessSame same applied remember deliver r) Q E := by
  refine .onlyIf (.andThen (hdeliver.weaken (fun s hs => ⟨hs.1, ?_⟩) (fun s hs => hs)
    (fun s hs => hs)) (.always fun s hs => hs)) fun s hs hsame => hskip s hs ?_
  · simpa using hs.2
  · simpa using hsame

theorem unlessSame_keeps {applied : σ → V} {remember : V → σ → σ} {deliver : V → Attempt σ ε}
    {P : σ → Prop} (hdeliver : (deliver r).Keeps P) (hremember : ∀ s, P s → P (remember r s)) :
    (unlessSame same applied remember deliver r).Keeps P :=
  unlessSame_spec (fun s hs => (hdeliver s hs.1).mono hremember fun _ h => h) fun _ hs _ => hs

end Remembered

end Core
