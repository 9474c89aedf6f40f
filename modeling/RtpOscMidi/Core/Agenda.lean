import Mathlib

/-!
# Agendas

Items that wait for a key of a linear order: taken in the order of their keys,
those of equal keys in the order in which they were put down. This is a
priority queue with a counter for the ties, given by the list of its entries
in the order in which they will be taken.

* `Schedule`: sorted and numbered by construction, so the first entry is the one
  to take (`pop_first`).
* `History taken a`: whatever was put down and dropped in between, what was
  taken before an entry has a lower rank, or the entry was put down after it
  was taken. Every operation keeps it (`History.push`, `.pop`, `.sub`).
* `History.ties`: entries of one key are taken in the order of their numbers.
-/
namespace Core.Agenda

universe u v

/-- `seq` is the number of entries put down before. -/
structure Entry (κ : Type u) (α : Type v) where
  key : κ
  seq : Nat
  item : α
  deriving DecidableEq

variable {κ : Type u} {α : Type v} [LinearOrder κ]

def Entry.rank (e : Entry κ α) : κ ×ₗ Nat := toLex (e.key, e.seq)

theorem Entry.rank_lt {a b : Entry κ α} :
    a.rank < b.rank ↔ a.key < b.key ∨ a.key = b.key ∧ a.seq < b.seq := Prod.Lex.toLex_lt_toLex

omit [LinearOrder κ] in
theorem Entry.rank_ne {a b : Entry κ α} (h : a.seq ≠ b.seq) : a.rank ≠ b.rank := by
  intro heq
  exact h (congrArg (fun r => (ofLex r).2) heq)

/-- The entries in the order in which they will be taken. -/
structure Schedule (κ : Type u) (α : Type v) [LinearOrder κ] where
  next : Nat
  entries : List (Entry κ α)
  sorted : entries.Pairwise fun a b => a.rank < b.rank
  numbered : ∀ e ∈ entries, e.seq < next

namespace Schedule

def empty : Schedule κ α := ⟨0, [], .nil, nofun⟩

def insert (e : Entry κ α) : List (Entry κ α) → List (Entry κ α)
  | [] => [e]
  | x :: xs => if e.rank < x.rank then e :: x :: xs else x :: insert e xs

theorem mem_insert {e x : Entry κ α} {l : List (Entry κ α)} : x ∈ insert e l ↔ x = e ∨ x ∈ l := by
  induction l with
  | nil => exact List.mem_cons
  | cons y l ih =>
    unfold insert
    split
    · exact List.mem_cons
    · rw [List.mem_cons, ih, List.mem_cons]
      exact or_left_comm

theorem perm_insert (e : Entry κ α) (l : List (Entry κ α)) : (insert e l).Perm (e :: l) := by
  induction l with
  | nil => exact .refl _
  | cons y l ih =>
    unfold insert
    split
    · exact .refl _
    · exact (ih.cons y).trans (.swap e y l)

theorem pairwise_insert {e : Entry κ α} {l : List (Entry κ α)}
    (h : l.Pairwise fun a b => a.rank < b.rank) (hne : ∀ x ∈ l, x.seq ≠ e.seq) :
    (insert e l).Pairwise fun a b => a.rank < b.rank := by
  induction l with
  | nil => exact List.pairwise_singleton _ e
  | cons y l ih =>
    obtain ⟨hy, hl⟩ := List.pairwise_cons.mp h
    unfold insert
    split
    · rename_i hlt
      refine List.pairwise_cons.mpr ⟨fun x hx => ?_, h⟩
      cases List.mem_cons.mp hx with
      | inl hxy => exact hxy ▸ hlt
      | inr hx => exact hlt.trans (hy x hx)
    · rename_i hge
      have hlt : y.rank < e.rank :=
        lt_of_le_of_ne (not_lt.mp hge) (Entry.rank_ne (hne y List.mem_cons_self))
      refine List.pairwise_cons.mpr
        ⟨fun x hx => ?_, ih hl fun x hx => hne x (List.mem_cons_of_mem y hx)⟩
      cases mem_insert.mp hx with
      | inl hxe => exact hxe ▸ hlt
      | inr hx => exact hy x hx

def push (a : Schedule κ α) (key : κ) (item : α) : Schedule κ α where
  next := a.next + 1
  entries := insert ⟨key, a.next, item⟩ a.entries
  sorted := pairwise_insert a.sorted fun x hx => Nat.ne_of_lt (a.numbered x hx)
  numbered x hx := by
    cases mem_insert.mp hx with
    | inl he => exact he ▸ Nat.lt_succ_self a.next
    | inr hx => exact Nat.lt_succ_of_lt (a.numbered x hx)

/-- The schedule without its first entry. -/
def tail (a : Schedule κ α) : Schedule κ α where
  next := a.next
  entries := a.entries.tail
  sorted := a.sorted.tail
  numbered x hx := a.numbered x (List.mem_of_mem_tail hx)

def keep (a : Schedule κ α) (p : α → Bool) : Schedule κ α where
  next := a.next
  entries := a.entries.filter fun e => p e.item
  sorted := a.sorted.filter _
  numbered x hx := a.numbered x (List.mem_of_mem_filter hx)

def clear (a : Schedule κ α) : Schedule κ α := ⟨a.next, [], .nil, nofun⟩

theorem pop_first {a : Schedule κ α} {e : Entry κ α} {rest : List (Entry κ α)}
    (h : a.entries = e :: rest) : ∀ x ∈ rest, e.rank < x.rank := by
  have hs := a.sorted
  rw [h] at hs
  exact (List.pairwise_cons.mp hs).1

end Schedule

/-! ## What was taken -/

/-- `next`: how many entries had been put down when this one was taken. -/
structure Taken (κ : Type u) (α : Type v) where
  entry : Entry κ α
  next : Nat
  deriving DecidableEq

/-- `e` had its turn after `t`, or was not there yet. -/
def After (t : Taken κ α) (e : Entry κ α) : Prop := t.entry.rank < e.rank ∨ t.next ≤ e.seq

structure History (taken : List (Taken κ α)) (a : Schedule κ α) : Prop where
  inTurn : taken.Pairwise fun t t' => After t t'.entry
  left : ∀ t ∈ taken, ∀ e ∈ a.entries, After t e
  numbered : ∀ t ∈ taken, t.entry.seq < t.next
  next : ∀ t ∈ taken, t.next ≤ a.next

namespace History

variable {taken : List (Taken κ α)} {a : Schedule κ α}

theorem empty : History [] (Schedule.empty : Schedule κ α) :=
  ⟨.nil, nofun, nofun, nofun⟩

theorem push (h : History taken a) (key : κ) (item : α) : History taken (a.push key item) where
  inTurn := h.inTurn
  left t ht e he := by
    cases Schedule.mem_insert.mp he with
    | inl he => exact .inr (he ▸ h.next t ht)
    | inr he => exact h.left t ht e he
  numbered := h.numbered
  next t ht := Nat.le_succ_of_le (h.next t ht)

/-- Entries may be dropped. -/
theorem sub (h : History taken a) {a' : Schedule κ α} (hsub : ∀ e ∈ a'.entries, e ∈ a.entries)
    (hnext : a'.next = a.next) : History taken a' :=
  ⟨h.inTurn, fun t ht e he => h.left t ht e (hsub e he), h.numbered,
    fun t ht => hnext ▸ h.next t ht⟩

theorem tail (h : History taken a) : History taken a.tail :=
  h.sub (fun _ => List.mem_of_mem_tail) rfl

theorem keep (h : History taken a) (p : α → Bool) : History taken (a.keep p) :=
  h.sub (fun _ => List.mem_of_mem_filter) rfl

theorem clear (h : History taken a) : History taken a.clear := h.sub (by simp [Schedule.clear]) rfl

theorem pop (h : History taken a) {e : Entry κ α} {rest : List (Entry κ α)}
    (he : a.entries = e :: rest) : History (taken ++ [⟨e, a.next⟩]) a.tail := by
  have hmem : e ∈ a.entries := he ▸ List.mem_cons_self
  refine ⟨?_, fun t ht x hx => ?_, fun t ht => ?_, fun t ht => ?_⟩
  · refine List.pairwise_append.mpr ⟨h.inTurn, List.pairwise_singleton .., fun t ht t' ht' => ?_⟩
    rw [List.mem_singleton.mp ht']
    exact h.left t ht e hmem
  · have hx : x ∈ rest := by
      have hx' : x ∈ a.entries.tail := hx
      rw [he] at hx'
      exact hx'
    cases List.mem_append.mp ht with
    | inl ht => exact h.left t ht x (he ▸ List.mem_cons_of_mem e hx)
    | inr ht =>
      rw [List.mem_singleton.mp ht]
      exact .inl (Schedule.pop_first he x hx)
  · cases List.mem_append.mp ht with
    | inl ht => exact h.numbered t ht
    | inr ht =>
      rw [List.mem_singleton.mp ht]
      exact a.numbered e hmem
  · cases List.mem_append.mp ht with
    | inl ht => exact h.next t ht
    | inr ht =>
      rw [List.mem_singleton.mp ht]
      exact Nat.le_refl _

/-- Of two entries with one key, the one put down first is taken first. -/
theorem ties (h : History taken a) :
    taken.Pairwise fun t t' => t.entry.key = t'.entry.key → t.entry.seq < t'.entry.seq := by
  refine h.inTurn.imp_of_mem fun {t t'} ht _ hafter hkey => ?_
  cases hafter with
  | inl hlt =>
    cases Entry.rank_lt.mp hlt with
    | inl hlt => exact absurd hkey hlt.ne
    | inr hlt => exact hlt.2
  | inr hnext => exact Nat.lt_of_lt_of_le (h.numbered t ht) hnext

end History

end Core.Agenda
