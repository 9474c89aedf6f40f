import RtpOscMidi.Core.Lists

/-!
# Monitors

A monitor reads a history event by event and says of each event whether it is
allowed after what came before. A specification given this way is a statement
about every prefix of the history (`Clean`), and a step that adds events
keeps it when they are allowed one after the other (`Clean.append`).
-/
namespace Core

universe u v

structure Monitor (σ : Type u) (ε : Type v) where
  start : σ
  note : σ → ε → σ
  allowed : σ → ε → Prop

namespace Monitor

variable {σ : Type u} {ε : Type v} (M : Monitor σ ε)

/-- What the monitor knows after more events. -/
def after (k : σ) (es : List ε) : σ := es.foldl M.note k

/-- Each of the events is allowed when it comes. -/
def Allows (k : σ) (es : List ε) : Prop := AtEach (fun pre e => M.allowed (M.after k pre) e) es

/-- What the monitor knows after a history. -/
def state (h : List ε) : σ := M.after M.start h

/-- Every event of the history was allowed when it came. -/
def Clean (h : List ε) : Prop := M.Allows M.start h

@[simp] theorem after_nil (k : σ) : M.after k [] = k := rfl

@[simp] theorem after_cons (k : σ) (e : ε) (es : List ε) :
    M.after k (e :: es) = M.after (M.note k e) es := rfl

theorem after_append (k : σ) (es es' : List ε) :
    M.after k (es ++ es') = M.after (M.after k es) es' := List.foldl_append

@[simp] theorem state_nil : M.state [] = M.start := rfl

theorem state_append (h es : List ε) : M.state (h ++ es) = M.after (M.state h) es :=
  M.after_append _ _ _

theorem allows_nil (k : σ) : M.Allows k [] := atEach_nil _

theorem allows_singleton {k : σ} {e : ε} (h : M.allowed k e) : M.Allows k [e] :=
  AtEach.concat (atEach_nil _) h

theorem clean_nil : M.Clean [] := M.allows_nil _

variable {M}

theorem Allows.append {k : σ} {es es' : List ε} (h : M.Allows k es)
    (h' : M.Allows (M.after k es) es') : M.Allows k (es ++ es') := by
  refine AtEach.append h fun xs x ys e => ?_
  rw [M.after_append]
  exact h' xs x ys e

theorem Clean.append {h es : List ε} (hc : M.Clean h) (he : M.Allows (M.state h) es) :
    M.Clean (h ++ es) := Allows.append hc he

end Monitor

end Core
