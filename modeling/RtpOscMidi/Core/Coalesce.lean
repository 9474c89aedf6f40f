import RtpOscMidi.Core.Lists

/-!
# Coalescing a numbered stream

A sender numbers its items 1, 2, 3, ... and queues them. A receiver takes them
in order into its hand, where an item may replace an earlier one of the same
key, and now and then closes its hand as a group.

* `Supersedes num key a b`: `b` has the key of `a` and is no older.
* `Ledger`: the stream with what was taken, the hand and the groups closed so
  far; `send`, `take`, `regroup` and `close` keep it.
* `Ledger.covered`: an item up to the highest number of a group is superseded
  by a member of that group or of an earlier one.
-/
namespace Core

universe u v

variable {α : Type u} {κ : Type v}

/-! ## Replacing the first match -/

/-- `l` with its first member that meets `p` replaced by `x`. -/
def replaceFirst (p : α → Bool) (x : α) : List α → Option (List α)
  | [] => none
  | a :: l => if p a then some (x :: l) else (replaceFirst p x l).map (a :: ·)

theorem replaceFirst_eq_none {p : α → Bool} {x : α} {l : List α} :
    replaceFirst p x l = none ↔ ∀ a ∈ l, p a = false := by
  induction l with
  | nil => simp [replaceFirst]
  | cons a l ih =>
    unfold replaceFirst
    split
    · rename_i h
      simp [h]
    · rename_i h
      simp [ih, h]

theorem length_replaceFirst {p : α → Bool} {x : α} {l l' : List α}
    (h : replaceFirst p x l = some l') : l'.length = l.length := by
  induction l generalizing l' with
  | nil => simp [replaceFirst] at h
  | cons a l ih =>
    unfold replaceFirst at h
    split at h
    · cases h
      rfl
    · obtain ⟨t, ht, rfl⟩ := Option.map_eq_some_iff.mp h
      simp [ih ht]

theorem subset_replaceFirst {p : α → Bool} {x : α} {l l' : List α}
    (h : replaceFirst p x l = some l') : ∀ a ∈ l', a ∈ l ++ [x] := by
  induction l generalizing l' with
  | nil => simp [replaceFirst] at h
  | cons b l ih =>
    intro a ha
    unfold replaceFirst at h
    split at h
    · cases h
      rcases List.mem_cons.mp ha with rfl | ha
      · simp
      · simp [ha]
    · obtain ⟨t, ht, rfl⟩ := Option.map_eq_some_iff.mp h
      rcases List.mem_cons.mp ha with rfl | ha
      · simp
      · exact List.mem_cons_of_mem _ (ih ht a ha)

theorem map_replaceFirst {p : α → Bool} {x : α} {l l' : List α} (key : α → κ)
    (hp : ∀ a ∈ l, p a = true → key a = key x) (h : replaceFirst p x l = some l') :
    l'.map key = l.map key := by
  induction l generalizing l' with
  | nil => simp [replaceFirst] at h
  | cons a l ih =>
    unfold replaceFirst at h
    split at h
    · rename_i ha
      cases h
      simp [hp a List.mem_cons_self ha]
    · obtain ⟨t, ht, rfl⟩ := Option.map_eq_some_iff.mp h
      simp [ih (fun b hb => hp b (List.mem_cons_of_mem _ hb)) ht]

/-! ## Covering -/

/-- Each member of `l` has one of `l'` related to it. -/
def Covers (R : α → α → Prop) (l l' : List α) : Prop := ∀ a ∈ l, ∃ b ∈ l', R a b

section Covers

variable {R : α → α → Prop} {l l₁ l₂ l' m : List α}

theorem covers_of_subset (hr : ∀ a, R a a) (h : ∀ a ∈ l, a ∈ l') : Covers R l l' :=
  fun a ha => ⟨a, h a ha, hr a⟩

theorem Covers.mono (h : Covers R l l') (hm : ∀ a ∈ l', a ∈ m) : Covers R l m := by
  intro a ha
  obtain ⟨b, hb, hr⟩ := h a ha
  exact ⟨b, hm b hb, hr⟩

theorem Covers.trans (ht : ∀ a b c, R a b → R b c → R a c) (h : Covers R l l')
    (h' : Covers R l' m) : Covers R l m := by
  intro a ha
  obtain ⟨b, hb, hab⟩ := h a ha
  obtain ⟨c, hc, hbc⟩ := h' b hb
  exact ⟨c, hc, ht a b c hab hbc⟩

theorem Covers.append (h₁ : Covers R l₁ m) (h₂ : Covers R l₂ m) : Covers R (l₁ ++ l₂) m := by
  intro a ha
  rcases List.mem_append.mp ha with ha | ha
  · exact h₁ a ha
  · exact h₂ a ha

theorem covers_replaceFirst {p : α → Bool} {x : α} (hr : ∀ a, R a a)
    (hp : ∀ a ∈ l, p a = true → R a x) (h : replaceFirst p x l = some l') :
    Covers R (l ++ [x]) l' := by
  induction l generalizing l' with
  | nil => simp [replaceFirst] at h
  | cons b l ih =>
    unfold replaceFirst at h
    split at h
    · rename_i hb
      cases h
      intro a ha
      simp only [List.cons_append, List.mem_cons, List.mem_append, List.not_mem_nil,
        or_false] at ha
      rcases ha with rfl | ha | rfl
      · exact ⟨x, List.mem_cons_self, hp a List.mem_cons_self hb⟩
      · exact ⟨a, List.mem_cons_of_mem _ ha, hr a⟩
      · exact ⟨a, List.mem_cons_self, hr a⟩
    · obtain ⟨t, ht, rfl⟩ := Option.map_eq_some_iff.mp h
      have hc := ih (fun a ha => hp a (List.mem_cons_of_mem _ ha)) ht
      intro a ha
      rcases List.mem_cons.mp ha with rfl | ha
      · exact ⟨a, List.mem_cons_self, hr a⟩
      · obtain ⟨c, hcm, hac⟩ := hc a ha
        exact ⟨c, List.mem_cons_of_mem _ hcm, hac⟩

end Covers

/-! ## The ledger -/

/-- `b` has the key of `a` and is no older. -/
def Supersedes (num : α → Nat) (key : α → κ) (a b : α) : Prop := key a = key b ∧ num a ≤ num b

/-- The highest number of a group, 0 for an empty one. -/
def highest (num : α → Nat) (l : List α) : Nat := (l.map num).max?.getD 0

section Ledger

variable {num : α → Nat} {key : α → κ} {sent gone queue hand hand' g : List α}
  {groups : List (List α)} {c : α}

theorem supersedes_refl (a : α) : Supersedes num key a a := ⟨rfl, Nat.le_refl _⟩

theorem supersedes_trans (a b c : α) (h : Supersedes num key a b) (h' : Supersedes num key b c) :
    Supersedes num key a c := ⟨h.1.trans h'.1, Nat.le_trans h.2 h'.2⟩

theorem le_highest (h : c ∈ g) : num c ≤ highest num g := by
  have hm := List.mem_map_of_mem (f := num) h
  unfold highest
  cases hmax : (g.map num).max? with
  | none =>
    rw [List.max?_eq_none_iff.mp hmax] at hm
    cases hm
  | some m => exact (List.max?_eq_some_iff.mp hmax).2 _ hm

/-- The highest number is that of a member. -/
theorem exists_highest (h : highest num g ≠ 0) : ∃ c ∈ g, num c = highest num g := by
  unfold highest at h ⊢
  cases hmax : (g.map num).max? with
  | none => simp [hmax] at h
  | some m => exact List.mem_map.mp (List.max?_eq_some_iff.mp hmax).1

theorem highest_le {n : Nat} (h : ∀ c ∈ g, num c ≤ n) : highest num g ≤ n := by
  by_cases h0 : highest num g = 0
  · omega
  · obtain ⟨c, hc, he⟩ := exists_highest h0
    rw [← he]
    exact h c hc

structure Ledger (num : α → Nat) (key : α → κ) (sent gone queue hand : List α)
    (groups : List (List α)) : Prop where
  numbered : sent.map num = List.range' 1 sent.length
  split : sent = gone ++ queue
  covers : Covers (Supersedes num key) gone (groups.flatten ++ hand)
  inHand : ∀ a ∈ hand, a ∈ gone
  closed : ∀ a ∈ groups.flatten, a ∈ gone
  later : ∀ a ∈ groups.flatten, ∀ b ∈ hand, num a < num b
  sorted : AtEach (fun pre g => ∀ a ∈ pre.flatten, ∀ b ∈ g, num a < num b) groups
  group : AtEach (fun pre g => ∀ a ∈ gone, num a ≤ highest num g →
    ∃ b ∈ pre.flatten ++ g, Supersedes num key a b) groups

theorem ledger_nil : Ledger num key [] [] [] [] [] where
  numbered := rfl
  split := rfl
  covers := nofun
  inHand := nofun
  closed := nofun
  later := nofun
  sorted := atEach_nil _
  group := atEach_nil _

namespace Ledger

theorem num_getElem (L : Ledger num key sent gone queue hand groups) {i : Nat}
    (h : sent[i]? = some c) : num c = i + 1 := by
  have hm : (sent.map num)[i]? = some (num c) := by rw [List.getElem?_map, h]; rfl
  rw [L.numbered, List.getElem?_range' (List.getElem?_eq_some_iff.mp h).1,
    Option.some.injEq] at hm
  omega

theorem num_pos (L : Ledger num key sent gone queue hand groups) (h : c ∈ sent) : 1 ≤ num c := by
  obtain ⟨i, hi⟩ := List.mem_iff_getElem?.mp h
  have := L.num_getElem hi
  omega

theorem mem_sent (L : Ledger num key sent gone queue hand groups) (h : c ∈ gone) : c ∈ sent := by
  rw [L.split]
  exact List.mem_append_left _ h

/-- What was taken has the lowest numbers. -/
theorem mem_gone_iff (L : Ledger num key sent gone queue hand groups) (h : c ∈ sent) :
    c ∈ gone ↔ num c ≤ gone.length := by
  constructor
  · intro hg
    obtain ⟨i, hi⟩ := List.mem_iff_getElem?.mp hg
    have hlt := (List.getElem?_eq_some_iff.mp hi).1
    have hs : sent[i]? = some c := by rw [L.split, List.getElem?_append_left hlt]; exact hi
    have := L.num_getElem hs
    omega
  · intro hle
    obtain ⟨i, hi⟩ := List.mem_iff_getElem?.mp h
    have hn := L.num_getElem hi
    rw [L.split, List.getElem?_append_left (by omega)] at hi
    exact List.mem_of_getElem? hi

theorem num_next (L : Ledger num key sent gone (c :: queue) hand groups) :
    num c = gone.length + 1 := by
  refine L.num_getElem ?_
  rw [L.split, List.getElem?_append_right (Nat.le_refl _), Nat.sub_self]
  rfl

theorem lt_next {a : α} (L : Ledger num key sent gone (c :: queue) hand groups) (ha : a ∈ gone) :
    num a < num c := by
  have := (L.mem_gone_iff (L.mem_sent ha)).mp ha
  rw [L.num_next]
  omega

theorem send (L : Ledger num key sent gone queue hand groups) (hc : num c = sent.length + 1) :
    Ledger num key (sent ++ [c]) gone (queue ++ [c]) hand groups :=
  { L with
    numbered := by
      rw [List.map_append, L.numbered, List.length_append, List.length_singleton,
        List.range'_concat]
      simp [hc, Nat.add_comm]
    split := by rw [L.split, List.append_assoc] }

/-- The next item is taken, and may replace others of the hand. -/
theorem take (L : Ledger num key sent gone (c :: queue) hand groups)
    (hc : Covers (Supersedes num key) (hand ++ [c]) hand') (hs : ∀ a ∈ hand', a ∈ hand ++ [c]) :
    Ledger num key sent (gone ++ [c]) queue hand' groups := by
  refine
    { numbered := L.numbered
      split := by rw [L.split, List.append_assoc]; rfl
      covers := ?_
      inHand := ?_
      closed := fun a ha => List.mem_append_left _ (L.closed a ha)
      later := ?_
      sorted := L.sorted
      group := ?_ }
  · have hhand : ∀ a ∈ hand ++ [c], ∃ b ∈ groups.flatten ++ hand', Supersedes num key a b :=
      hc.mono fun a ha => List.mem_append_right _ ha
    intro a ha
    rcases List.mem_append.mp ha with ha | ha
    · obtain ⟨b, hb, hab⟩ := L.covers a ha
      rcases List.mem_append.mp hb with hb | hb
      · exact ⟨b, List.mem_append_left _ hb, hab⟩
      · obtain ⟨d, hd, hbd⟩ := hhand b (List.mem_append_left _ hb)
        exact ⟨d, hd, supersedes_trans a b d hab hbd⟩
    · exact hhand a (List.mem_append_right _ ha)
  · intro a ha
    rcases List.mem_append.mp (hs a ha) with ha | ha
    · exact List.mem_append_left _ (L.inHand a ha)
    · exact List.mem_append_right _ ha
  · intro a ha b hb
    rcases List.mem_append.mp (hs b hb) with hb | hb
    · exact L.later a ha b hb
    · rw [List.mem_singleton.mp hb]
      exact L.lt_next (L.closed a ha)
  · intro pre g post e a ha hle
    have hg : highest num g < num c := by
      by_cases h0 : highest num g = 0
      · rw [h0, L.num_next]
        omega
      · obtain ⟨b, hb, he⟩ := exists_highest h0
        rw [← he]
        exact L.lt_next (L.closed b (by rw [e]; simp [hb]))
    rcases List.mem_append.mp ha with ha | ha
    · exact L.group pre g post e a ha hle
    · rw [List.mem_singleton.mp ha] at hle
      omega

/-- The hand is put together in another way. -/
theorem regroup (L : Ledger num key sent gone queue hand groups)
    (hc : Covers (Supersedes num key) hand hand') (hs : ∀ a ∈ hand', a ∈ hand) :
    Ledger num key sent gone queue hand' groups :=
  { L with
    covers := by
      refine L.covers.trans supersedes_trans (Covers.append ?_ ?_)
      · exact covers_of_subset supersedes_refl fun a ha => List.mem_append_left _ ha
      · exact hc.mono fun a ha => List.mem_append_right _ ha
    inHand := fun a ha => L.inHand a (hs a ha)
    later := fun a ha b hb => L.later a ha b (hs b hb) }

/-- The hand becomes a group. -/
theorem close (L : Ledger num key sent gone queue hand groups) :
    Ledger num key sent gone queue [] (groups ++ [hand]) :=
  { L with
    covers := by
      simpa using L.covers
    inHand := nofun
    closed := by
      intro a ha
      rw [List.flatten_append, List.mem_append] at ha
      rcases ha with ha | ha
      · exact L.closed a ha
      · exact L.inHand a (by simpa using ha)
    later := nofun
    sorted := L.sorted.concat L.later
    group := L.group.concat fun a ha _ => L.covers a ha }

/-- An item up to the highest number of a group is superseded in that group or
before it. -/
theorem covered (L : Ledger num key sent gone queue hand groups) {pre post : List (List α)}
    (hg : groups = pre ++ g :: post) (hc : c ∈ sent) (hle : num c ≤ highest num g) :
    ∃ d ∈ pre.flatten ++ g, Supersedes num key c d := by
  refine L.group pre g post hg c ((L.mem_gone_iff hc).mpr (Nat.le_trans hle ?_)) hle
  refine highest_le fun b hb => ?_
  have hgone := L.closed b (by rw [hg]; simp [hb])
  exact (L.mem_gone_iff (L.mem_sent hgone)).mp hgone

end Ledger

end Ledger

end Core
