import Mathlib

/-!
# Labelled transition systems

Runs, reachable states and inductive invariants of a labelled transition
system, for any state and label type.

* `LTS.Inductive I`: `I` holds initially and every step keeps it; with it
  `I` holds of every reachable state (`Inductive.reachable`).
* `LTS.InductiveUnder J I`: `I` is kept by the steps from states where `J`
  holds too; an invariant `J` proved first is a hypothesis there and is
  not proved again (`InductiveUnder.reachable`).
* `LTS.Before t s`: `t` is a state of a run on the way to `s`.
* `LTS.restrict ok`: the runs whose every step meets `ok` in the state it
  leaves. What holds of every reachable state of `L` holds here too
  (`reachable_of_restrict`).
* `ofStep f`: the system of a computable step function; `exec` and
  `execOk` run it on a list of labels, so a run can be given as its labels
  (`reachable_of_exec`, `reachable_of_execOk`).
* `exec_until`: a label whose steps lower a measure reaches its goal.
* `foldl_prefix_iff`: a predicate that a step keeps exactly under a condition
  holds all along a run exactly when every step meets the condition.
-/
namespace Core

universe u v

structure LTS (σ : Type u) (ℓ : Type v) where
  init : σ → Prop
  step : σ → ℓ → σ → Prop

namespace LTS

variable {σ : Type u} {ℓ : Type v} {L : LTS σ ℓ} {I J : σ → Prop}

inductive Run (L : LTS σ ℓ) : σ → List ℓ → σ → Prop
  | nil (s : σ) : Run L s [] s
  | cons {s l s' ls s''} : L.step s l s' → Run L s' ls s'' → Run L s (l :: ls) s''

def Reachable (L : LTS σ ℓ) (s : σ) : Prop := ∃ s₀ ls, L.init s₀ ∧ L.Run s₀ ls s

theorem Reachable.init {s : σ} (h : L.init s) : L.Reachable s := ⟨s, [], h, .nil s⟩

theorem Run.append {s s' s'' : σ} {ls ls' : List ℓ} (h : L.Run s ls s') (h' : L.Run s' ls' s'') :
    L.Run s (ls ++ ls') s'' := by
  induction h with
  | nil => exact h'
  | cons hst _ ih => exact .cons hst (ih h')

theorem Reachable.step {s s' : σ} {l : ℓ} (h : L.Reachable s) (hst : L.step s l s') :
    L.Reachable s' := by
  obtain ⟨s₀, ls, h₀, hr⟩ := h
  exact ⟨s₀, ls ++ [l], h₀, hr.append (.cons hst (.nil _))⟩

/-- `t` is a state of a run on the way to `s`. -/
def Before (L : LTS σ ℓ) (t s : σ) : Prop := L.Reachable t ∧ ∃ ls, L.Run t ls s

theorem Reachable.before {s : σ} (h : L.Reachable s) : L.Before s s := ⟨h, [], .nil s⟩

theorem Before.step {t s s' : σ} {l : ℓ} (h : L.Before t s) (hst : L.step s l s') :
    L.Before t s' := by
  obtain ⟨ht, ls, hr⟩ := h
  exact ⟨ht, ls ++ [l], hr.append (.cons hst (.nil _))⟩

/-! ## Invariants -/

structure Inductive (L : LTS σ ℓ) (I : σ → Prop) : Prop where
  init : ∀ s, L.init s → I s
  step : ∀ s l s', I s → L.step s l s' → I s'

/-- `I` is inductive on the states where `J` holds. -/
structure InductiveUnder (L : LTS σ ℓ) (J I : σ → Prop) : Prop where
  init : ∀ s, L.init s → I s
  step : ∀ s l s', J s → I s → L.step s l s' → I s'

theorem Inductive.run (h : L.Inductive I) {s s' : σ} {ls : List ℓ} (hr : L.Run s ls s') :
    I s → I s' := by
  induction hr with
  | nil => exact id
  | cons hst _ ih => exact fun hi => ih (h.step _ _ _ hi hst)

theorem Inductive.reachable (h : L.Inductive I) (s : σ) (hr : L.Reachable s) : I s := by
  obtain ⟨s₀, ls, h₀, hr⟩ := hr
  exact h.run hr (h.init _ h₀)

theorem Inductive.under (hJ : L.Inductive J) (h : L.InductiveUnder J I) :
    L.Inductive fun s => J s ∧ I s where
  init s h₀ := ⟨hJ.init s h₀, h.init s h₀⟩
  step s l s' hs hst := ⟨hJ.step s l s' hs.1 hst, h.step s l s' hs.1 hs.2 hst⟩

theorem InductiveUnder.reachable (h : L.InductiveUnder J I) (hJ : L.Inductive J) (s : σ)
    (hr : L.Reachable s) : I s :=
  ((hJ.under h).reachable s hr).2

/-- To be reachable is an invariant: what a step does may be explained by any
state before it. -/
theorem reachable_inductive : L.Inductive L.Reachable where
  init _ h := .init h
  step _ _ _ h hst := h.step hst

/-! ## Runs whose steps meet a condition -/

/-- The runs of `L` whose every step meets `ok` in the state it leaves. -/
def restrict (L : LTS σ ℓ) (ok : σ → ℓ → Prop) : LTS σ ℓ where
  init := L.init
  step s l s' := ok s l ∧ L.step s l s'

theorem run_of_restrict {ok : σ → ℓ → Prop} {s s' : σ} {ls : List ℓ}
    (h : (L.restrict ok).Run s ls s') : L.Run s ls s' := by
  induction h with
  | nil => exact .nil _
  | cons hst _ ih => exact .cons hst.2 ih

theorem reachable_of_restrict {ok : σ → ℓ → Prop} {s : σ} (h : (L.restrict ok).Reachable s) :
    L.Reachable s := by
  obtain ⟨s₀, ls, h₀, hr⟩ := h
  exact ⟨s₀, ls, h₀, run_of_restrict hr⟩

/-- A run that keeps a predicate `J` by which every step meets `ok`. -/
theorem Run.restrict {ok : σ → ℓ → Prop} {s s' : σ} {ls : List ℓ} (hr : L.Run s ls s') :
    (∀ s l s', l ∈ ls → J s → L.step s l s' → ok s l ∧ J s') → J s →
    (L.restrict ok).Run s ls s' ∧ J s' := by
  induction hr with
  | nil s => exact fun _ hs => ⟨.nil s, hs⟩
  | cons hst _ ih =>
    intro hJ hs
    obtain ⟨hok, hs₁⟩ := hJ _ _ _ List.mem_cons_self hs hst
    obtain ⟨hrun, hs'⟩ := ih (fun s l s' hl => hJ s l s' (List.mem_cons_of_mem _ hl)) hs₁
    exact ⟨.cons ⟨hok, hst⟩ hrun, hs'⟩

theorem Inductive.restrict (h : L.Inductive I) (ok : σ → ℓ → Prop) :
    (L.restrict ok).Inductive I where
  init := h.init
  step s l s' hi hst := h.step s l s' hi hst.2

/-! ## Systems given by a step function -/

/-- `f s l = none`: the step `l` is not enabled in `s`. -/
def ofStep (init : σ → Prop) (f : σ → ℓ → Option σ) : LTS σ ℓ where
  init := init
  step s l s' := f s l = some s'

/-- Where every label is enabled, any list of labels is a run. -/
theorem run_foldl {f : σ → ℓ → σ} (h : ∀ s l, L.step s l (f s l)) (ls : List ℓ) :
    ∀ s : σ, L.Run s ls (ls.foldl f s) := by
  induction ls with
  | nil => exact fun s => .nil s
  | cons l ls ih => exact fun s => .cons (h s l) (ih (f s l))

def exec (f : σ → ℓ → Option σ) : σ → List ℓ → Option σ
  | s, [] => some s
  | s, l :: ls => (f s l).bind fun s' => exec f s' ls

/-- `exec`, checking `ok` before every step. -/
def execOk (ok : σ → ℓ → Prop) [∀ s l, Decidable (ok s l)] (f : σ → ℓ → Option σ) :
    σ → List ℓ → Option σ
  | s, [] => some s
  | s, l :: ls => if ok s l then (f s l).bind fun s' => execOk ok f s' ls else none

theorem run_of_exec {init : σ → Prop} {f : σ → ℓ → Option σ} {ls : List ℓ} :
    ∀ {s s' : σ}, exec f s ls = some s' → (ofStep init f).Run s ls s' := by
  induction ls with
  | nil =>
    intro s s' h
    cases h
    exact .nil _
  | cons l ls ih =>
    intro s s' h
    obtain ⟨s₁, h₁, h₂⟩ := Option.bind_eq_some_iff.mp h
    exact .cons h₁ (ih h₂)

theorem reachable_of_exec {init : σ → Prop} {f : σ → ℓ → Option σ} {s₀ s : σ} (ls : List ℓ)
    (h₀ : init s₀) (h : exec f s₀ ls = some s) : (ofStep init f).Reachable s :=
  ⟨s₀, ls, h₀, run_of_exec h⟩

/-- A run given by its labels and a test of where it ends. -/
theorem reachable_of_any {init : σ → Prop} {f : σ → ℓ → Option σ} {p : σ → Bool} {s₀ : σ}
    (ls : List ℓ) (h₀ : init s₀) (h : (exec f s₀ ls).any p = true) :
    ∃ s, (ofStep init f).Reachable s ∧ p s = true := by
  cases he : exec f s₀ ls with
  | none => simp [he] at h
  | some s => exact ⟨s, reachable_of_exec ls h₀ he, by simpa [he] using h⟩

theorem Reachable.exec {init : σ → Prop} {f : σ → ℓ → Option σ} {s s' : σ} (ls : List ℓ)
    (hr : (ofStep init f).Reachable s) (h : exec f s ls = some s') :
    (ofStep init f).Reachable s' := by
  obtain ⟨s₀, ls₀, h₀, hr⟩ := hr
  exact ⟨s₀, ls₀ ++ ls, h₀, hr.append (run_of_exec h)⟩

/-- One label taken again and again gets to `G`, when each such step outside
`G` keeps `I` and lowers `m`. -/
theorem exec_until {f : σ → ℓ → Option σ} {l : ℓ} {G : σ → Prop} (m : σ → Nat)
    (h : ∀ s, I s → ¬ G s → ∃ s', f s l = some s' ∧ I s' ∧ m s' < m s) (s : σ) (hs : I s) :
    ∃ n s', exec f s (List.replicate n l) = some s' ∧ I s' ∧ G s' := by
  induction hm : m s using Nat.strongRecOn generalizing s with
  | _ k ih =>
    by_cases hg : G s
    · exact ⟨0, s, rfl, hs, hg⟩
    · obtain ⟨s₁, h₁, hs₁, hlt⟩ := h s hs hg
      obtain ⟨n, s₂, h₂, hs₂, hg₂⟩ := ih (m s₁) (hm ▸ hlt) s₁ hs₁ rfl
      refine ⟨n + 1, s₂, ?_, hs₂, hg₂⟩
      rw [List.replicate_succ, exec, h₁]
      exact h₂

theorem run_of_execOk {init : σ → Prop} {ok : σ → ℓ → Prop} [∀ s l, Decidable (ok s l)]
    {f : σ → ℓ → Option σ} {ls : List ℓ} :
    ∀ {s s' : σ}, execOk ok f s ls = some s' → ((ofStep init f).restrict ok).Run s ls s' := by
  induction ls with
  | nil =>
    intro s s' h
    cases h
    exact .nil _
  | cons l ls ih =>
    intro s s' h
    simp only [execOk] at h
    split at h
    · rename_i hok
      obtain ⟨s₁, h₁, h₂⟩ := Option.bind_eq_some_iff.mp h
      exact .cons ⟨hok, h₁⟩ (ih h₂)
    · cases h

theorem reachable_of_execOk {init : σ → Prop} {ok : σ → ℓ → Prop} [∀ s l, Decidable (ok s l)]
    {f : σ → ℓ → Option σ} {s₀ s : σ} (ls : List ℓ) (h₀ : init s₀)
    (h : execOk ok f s₀ ls = some s) : ((ofStep init f).restrict ok).Reachable s :=
  ⟨s₀, ls, h₀, run_of_execOk h⟩

theorem reachable_of_anyOk {init : σ → Prop} {ok : σ → ℓ → Prop} [∀ s l, Decidable (ok s l)]
    {f : σ → ℓ → Option σ} {p : σ → Bool} {s₀ : σ} (ls : List ℓ) (h₀ : init s₀)
    (h : (execOk ok f s₀ ls).any p = true) :
    ∃ s, ((ofStep init f).restrict ok).Reachable s ∧ p s = true := by
  cases he : execOk ok f s₀ ls with
  | none => simp [he] at h
  | some s => exact ⟨s, reachable_of_execOk ls h₀ he, by simpa [he] using h⟩

/-- The exact condition under which a total step keeps `P` is the one under
which runs do. -/
theorem foldl_prefix_iff {f : σ → ℓ → σ} {P : σ → Prop} {ok : σ → ℓ → Prop}
    (h : ∀ s l, P s → (P (f s l) ↔ ok s l)) {s : σ} (hs : P s) (ls : List ℓ) :
    (∀ pre, pre <+: ls → P (pre.foldl f s)) ↔
      ∀ pre l, pre ++ [l] <+: ls → ok (pre.foldl f s) l := by
  constructor
  · intro hP pre l hpre
    have hnext := hP _ hpre
    rw [List.foldl_concat] at hnext
    exact (h _ _ (hP pre ((List.prefix_append pre [l]).trans hpre))).mp hnext
  · intro hok pre hpre
    induction pre using List.reverseRecOn with
    | nil => exact hs
    | append_singleton pre l ih =>
      rw [List.foldl_concat]
      exact (h _ _ (ih ((List.prefix_append pre [l]).trans hpre))).mpr (hok pre l hpre)

end LTS

end Core
