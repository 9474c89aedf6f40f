import RtpOscMidi.Core.Lists

/-!
# Sliding-window budgets

A budget of `n` grants in any window of `w` ticks, kept as the times of the
last grants: what is older than the window is dropped from the front, and a
request is granted while fewer than `n` are left (`decide`).

`Budget` relates what is kept to all grants ever made, and gives the bound for
every window, not only for those that end at a request; `Budget.request` is
its step rule.
-/
namespace Core.SlidingWindow

/-- The grants that are at most `w` old. -/
def expire (w now : Nat) (history : List Nat) : List Nat :=
  history.dropWhile fun t => now - t > w

def request (w n now : Nat) (history : List Nat) : Bool × List Nat :=
  let history := expire w now history
  if history.length ≥ n then (false, history) else (true, history ++ [now])

/-- The times of the requests that were granted. -/
def granted (log : List (Nat × Bool)) : List Nat := (log.filter (·.2)).map (·.1)

/-- The grants in a closed interval. -/
def within (lo hi : Nat) (times : List Nat) : List Nat :=
  times.filter fun t => lo ≤ t ∧ t ≤ hi

@[simp] theorem granted_append (log log' : List (Nat × Bool)) :
    granted (log ++ log') = granted log ++ granted log' := by
  simp [granted]

theorem within_append (lo hi : Nat) (ts ts' : List Nat) :
    within lo hi (ts ++ ts') = within lo hi ts ++ within lo hi ts' := List.filter_append _ _

theorem within_eq_self {lo hi : Nat} {ts : List Nat} (h : ∀ t ∈ ts, lo ≤ t ∧ t ≤ hi) :
    within lo hi ts = ts :=
  List.filter_eq_self.mpr fun t ht => decide_eq_true (h t ht)

theorem within_eq_nil {lo hi : Nat} {ts : List Nat} (h : ∀ t ∈ ts, t < lo) :
    within lo hi ts = [] := by
  refine List.filter_eq_nil_iff.mpr fun t ht => ?_
  have hlt := h t ht
  simp only [decide_eq_true_eq, not_and, Nat.not_le]
  omega

/-- `log` has every request with what became of it, `last` the time of the
last one. -/
structure Budget (w n last : Nat) (history : List Nat) (log : List (Nat × Bool)) : Prop where
  sorted : (granted log).Pairwise (· ≤ ·)
  past : ∀ t ∈ granted log, t ≤ last
  kept : ∃ old, granted log = old ++ history ∧ ∀ t ∈ old, t + w < last
  size : history.length ≤ n
  window : ∀ lo, (within lo (lo + w) (granted log)).length ≤ n
  refused : AtEach (fun pre e => e.2 = false → n ≤ (within (e.1 - w) e.1 (granted pre)).length) log

theorem budget_nil (w n last : Nat) : Budget w n last [] [] :=
  ⟨.nil, by simp [granted], ⟨[], rfl, by simp⟩, Nat.zero_le _, by simp [granted, within],
    atEach_nil _⟩

variable {w n last now : Nat} {history : List Nat} {log : List (Nat × Bool)}

/-- Time passes. -/
theorem Budget.later (B : Budget w n last history log) (hnow : last ≤ now) :
    Budget w n now history log := by
  obtain ⟨old, hsplit, hold⟩ := B.kept
  refine { B with past := ?_, kept := ⟨old, hsplit, ?_⟩ }
  · exact fun t ht => Nat.le_trans (B.past t ht) hnow
  · exact fun t ht => Nat.lt_of_lt_of_le (hold t ht) hnow

/-- What is dropped is older than the window, and what is left is not. -/
theorem expire_spec (hsorted : history.Pairwise (· ≤ ·)) :
    ∃ old, history = old ++ expire w now history ∧ (∀ t ∈ old, t + w < now) ∧
      ∀ t ∈ expire w now history, now ≤ t + w := by
  induction history with
  | nil => exact ⟨[], rfl, by simp, by simp [expire]⟩
  | cons t ts ih =>
    obtain ⟨hle, hrest⟩ := List.pairwise_cons.mp hsorted
    by_cases hold : now - t > w
    · have hdrop : expire w now (t :: ts) = expire w now ts :=
        List.dropWhile_cons_of_pos (by simpa using hold)
      obtain ⟨old, hsplit, hlate, hkept⟩ := ih hrest
      refine ⟨t :: old, ?_, ?_, ?_⟩
      · rw [hdrop, List.cons_append, ← hsplit]
      · intro x hx
        rcases List.mem_cons.mp hx with hx | hx
        · omega
        · exact hlate x hx
      · rw [hdrop]
        exact hkept
    · have hstop : expire w now (t :: ts) = t :: ts :=
        List.dropWhile_cons_of_neg (by simpa using hold)
      refine ⟨[], by rw [hstop]; rfl, by simp, ?_⟩
      rw [hstop]
      intro x hx
      rcases List.mem_cons.mp hx with hx | hx
      · omega
      · have hx := hle x hx
        omega

/-- The grants of the window that ends now are those that are kept. -/
theorem Budget.expired (B : Budget w n last history log) (hnow : last ≤ now) :
    ∃ old, granted log = old ++ expire w now history ∧ (∀ t ∈ old, t + w < now) ∧
      ∀ t ∈ expire w now history, now ≤ t + w ∧ t ≤ now := by
  obtain ⟨old, hsplit, hlate⟩ := B.kept
  have hsorted : history.Pairwise (· ≤ ·) := by
    have hall := B.sorted
    rw [hsplit] at hall
    exact (List.pairwise_append.mp hall).2.1
  obtain ⟨more, hmore, hdropped, hkept⟩ := @expire_spec w now history hsorted
  refine ⟨old ++ more, by rw [List.append_assoc, ← hmore, hsplit], ?_, ?_⟩
  · intro t ht
    rcases List.mem_append.mp ht with ht | ht
    · have hlt := hlate t ht
      omega
    · exact hdropped t ht
  · intro t ht
    have hmem : t ∈ granted log := by
      rw [hsplit, hmore]
      simp [ht]
    have hpast := B.past t hmem
    exact ⟨hkept t ht, by omega⟩

/-- A request keeps the budget. -/
theorem Budget.request (B : Budget w n last history log) (hnow : last ≤ now) :
    Budget w n now (request w n now history).2 (log ++ [(now, (request w n now history).1)]) := by
  obtain ⟨old, hsplit, hold, hkept⟩ := B.expired hnow
  have hpast : ∀ t ∈ granted log, t ≤ now := fun t ht => Nat.le_trans (B.past t ht) hnow
  have hsize : (expire w now history).length ≤ history.length :=
    (List.dropWhile_sublist _).length_le
  unfold SlidingWindow.request
  simp only
  split
  · rename_i hfull
    have hsame : granted (log ++ [(now, false)]) = granted log := by simp [granted]
    refine ⟨?_, ?_, ⟨old, ?_, hold⟩, Nat.le_trans hsize B.size, ?_, ?_⟩
    · rw [hsame]
      exact B.sorted
    · rw [hsame]
      exact hpast
    · rw [hsame]
      exact hsplit
    · rw [hsame]
      exact B.window
    · refine B.refused.concat fun _ => ?_
      have hin : within (now - w) now (expire w now history) = expire w now history := by
        refine within_eq_self fun t ht => ?_
        have hlo := hkept t ht
        omega
      rw [hsplit, within_append, hin, List.length_append]
      omega
  · rename_i hroom
    have hmore : granted (log ++ [(now, true)]) = granted log ++ [now] := by simp [granted]
    refine ⟨?_, ?_, ⟨old, ?_, hold⟩, ?_, ?_, B.refused.concat fun h => by cases h⟩
    · rw [hmore]
      refine List.pairwise_append.mpr ⟨B.sorted, List.pairwise_singleton _ _, ?_⟩
      intro t ht x hx
      rw [List.mem_singleton.mp hx]
      exact hpast t ht
    · rw [hmore]
      intro t ht
      rcases List.mem_append.mp ht with ht | ht
      · exact hpast t ht
      · exact Nat.le_of_eq (List.mem_singleton.mp ht)
    · rw [hmore, hsplit, List.append_assoc]
    · rw [List.length_append, List.length_singleton]
      omega
    · intro lo
      rw [hmore]
      by_cases hin : lo ≤ now ∧ now ≤ lo + w
      · -- every grant of this window is kept
        have hnone : within lo (lo + w) old = [] :=
          within_eq_nil fun t ht => by
            have hlt := hold t ht
            omega
        have hle : (within lo (lo + w) (expire w now history)).length ≤
            (expire w now history).length := List.length_filter_le _ _
        have hone : (within lo (lo + w) [now]).length ≤ 1 := List.length_filter_le _ _
        rw [hsplit, within_append, within_append, hnone]
        simp only [List.nil_append, List.length_append]
        omega
      · have hnone : within lo (lo + w) [now] = [] := by
          simp only [within, List.filter_cons, List.filter_nil]
          rw [if_neg (by simpa using hin)]
        rw [within_append, hnone, List.append_nil]
        exact B.window lo

end Core.SlidingWindow
