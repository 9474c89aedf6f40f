import Mathlib

/-!
# Stable sorting and the removal of equal neighbours

`List.insertionSort` by a total and transitive relation is stable: it keeps
the order of the elements that the relation does not tell apart.

* `Tied r a b`: `r` holds both ways.
* `filter_tied_insertionSort`: the sort changes no class of tied elements.
* `insertionSort_eq_of_filter_tied`: a sorted list with the same classes is
  the result of the sort.
* `insertionSort_preferred`: sorting by whether an element is a chosen one
  puts the chosen ones in front of the others, in the order they had.
* `filter_flatMap_of_nodup`, `filter_regroup`: a list put together from parts
  with keys of their own.
* `destutter_flatMap_replicate`: the removal of equal neighbours sees only
  that there are copies, not how many.
* `destutter_replicate_append`: what the removal of equal neighbours leaves
  when the chosen ones stand in front.
-/
namespace Core

variable {α : Type*}

/-! ## Ties -/

def Tied (r : α → α → Prop) (a b : α) : Prop := r a b ∧ r b a

variable (r : α → α → Prop) [DecidableRel r]

instance : DecidableRel (Tied r) := fun _ _ => inferInstanceAs (Decidable (_ ∧ _))

section Stability

variable [Std.Total r] [IsTrans α r]

omit [DecidableRel r] [IsTrans α r] in
theorem tied_refl (a : α) : Tied r a a :=
  have h : r a a := (Std.Total.total (r := r) a a).elim id id
  ⟨h, h⟩

omit [Std.Total r] in
/-- The members of a class are related both ways, so any sublist of the
class is sorted. -/
theorem pairwise_filter_tied (a : α) (l : List α) :
    (l.filter fun b => Tied r a b).Pairwise r := by
  refine List.pairwise_of_forall_mem_list ?_
  intro b hb c hc
  have hab : Tied r a b := of_decide_eq_true (List.mem_filter.mp hb).2
  have hac : Tied r a c := of_decide_eq_true (List.mem_filter.mp hc).2
  exact IsTrans.trans b a c hab.2 hac.1

omit [Std.Total r] in
theorem filter_tied_insertionSort (a : α) (l : List α) :
    ((l.insertionSort r).filter fun b => Tied r a b) = l.filter fun b => Tied r a b := by
  have hsub : (l.filter fun b => Tied r a b).Sublist (l.insertionSort r) :=
    List.sublist_insertionSort (pairwise_filter_tied r a l) List.filter_sublist
  have hsub' := hsub.filter fun b => Tied r a b
  simp only [List.filter_filter, Bool.and_self] at hsub'
  have hlen := ((List.perm_insertionSort r l).filter fun b => Tied r a b).length_eq
  exact (hsub'.eq_of_length hlen.symm).symm

omit [IsTrans α r] in
/-- Two sorted lists with the same classes start with the same element. -/
theorem head_eq_of_filter_tied {a b : α} {l l' : List α} (h : (a :: l).Pairwise r)
    (h' : (b :: l').Pairwise r)
    (hf : ∀ c, ((a :: l).filter fun d => Tied r c d) = (b :: l').filter fun d => Tied r c d) :
    a = b := by
  have hmem : ∀ c, c ∈ a :: l ↔ c ∈ b :: l' := by
    intro c
    have hc := congrArg (c ∈ ·) (hf c)
    simpa only [List.mem_filter, decide_eq_true (tied_refl r c), and_true, eq_iff_iff] using hc
  have hab : r a b := by
    cases List.mem_cons.mp ((hmem b).mpr List.mem_cons_self) with
    | inl e => exact e ▸ (tied_refl r b).1
    | inr hb => exact List.rel_of_pairwise_cons h hb
  have hba : r b a := by
    cases List.mem_cons.mp ((hmem a).mp List.mem_cons_self) with
    | inl e => exact e ▸ (tied_refl r a).1
    | inr ha => exact List.rel_of_pairwise_cons h' ha
  have hheads := hf a
  have haa : Tied r a a := tied_refl r a
  have htied : Tied r a b := ⟨hab, hba⟩
  simp only [List.filter_cons, decide_eq_true haa, decide_eq_true htied, if_true] at hheads
  exact (List.cons.inj hheads).1

omit [IsTrans α r] in
theorem eq_of_filter_tied {l l' : List α} (h : l.Pairwise r) (h' : l'.Pairwise r)
    (hf : ∀ c, (l.filter fun d => Tied r c d) = l'.filter fun d => Tied r c d) : l = l' := by
  induction l generalizing l' with
  | nil =>
    cases l' with
    | nil => rfl
    | cons b l' => simpa [tied_refl r b] using hf b
  | cons a l ih =>
    cases l' with
    | nil => simpa [tied_refl r a] using hf a
    | cons b l' =>
      have hab : a = b := head_eq_of_filter_tied r h h' hf
      subst hab
      have htail : l = l' := by
        refine ih h.of_cons h'.of_cons fun c => ?_
        have hc := hf c
        by_cases hca : Tied r c a
        · simpa [hca] using hc
        · simpa [hca] using hc
      rw [htail]

theorem insertionSort_eq_of_filter_tied {l l' : List α} (h : l'.Pairwise r)
    (hf : ∀ c, (l.filter fun d => Tied r c d) = l'.filter fun d => Tied r c d) :
    l.insertionSort r = l' :=
  eq_of_filter_tied r (List.pairwise_insertionSort r l) h fun c =>
    (filter_tied_insertionSort r c l).trans (hf c)

end Stability

/-! ## Lists in parts -/

section Parts

omit r [DecidableRel r]

variable {β γ : Type*} [DecidableEq γ] {key : α → γ} {part : β → γ}

theorem filter_flatMap_of_nodup {f : β → List α} {ks : List β} (hks : (ks.map part).Nodup)
    (hf : ∀ k ∈ ks, ∀ a ∈ f k, key a = part k) {k : β} (hk : k ∈ ks) :
    ((ks.flatMap f).filter fun a => key a = part k) = f k := by
  induction ks with
  | nil => cases hk
  | cons j ks ih =>
    obtain ⟨hj, hks⟩ := List.nodup_cons.mp hks
    have hfs : ∀ k ∈ ks, ∀ a ∈ f k, key a = part k := fun k hk => hf k (List.mem_cons_of_mem _ hk)
    have hfj : ∀ a ∈ f j, key a = part j := hf j List.mem_cons_self
    rw [List.flatMap_cons, List.filter_append]
    by_cases hjk : part j = part k
    · -- the key of the first part: the others have other keys
      have hjk' : j = k := by
        cases List.mem_cons.mp hk with
        | inl e => exact e.symm
        | inr hk => exact absurd (hjk ▸ List.mem_map_of_mem hk) hj
      have hrest : ((ks.flatMap f).filter fun a => key a = part k) = [] := by
        refine List.filter_eq_nil_iff.mpr ?_
        intro a ha hak
        obtain ⟨i, hi, hai⟩ := List.mem_flatMap.mp ha
        have hkey : part i = part j := by
          rw [← hfs i hi a hai, hjk]
          exact of_decide_eq_true hak
        exact hj (hkey ▸ List.mem_map_of_mem hi)
      rw [hrest, List.append_nil, hjk']
      exact List.filter_eq_self.mpr fun a ha => decide_eq_true (hf k hk a ha)
    · have hfirst : ((f j).filter fun a => key a = part k) = [] := by
        refine List.filter_eq_nil_iff.mpr ?_
        intro a ha hak
        exact hjk ((hfj a ha).symm.trans (of_decide_eq_true hak))
      rw [hfirst, List.nil_append]
      cases List.mem_cons.mp hk with
      | inl e => exact absurd (congrArg part e.symm) hjk
      | inr hk => exact ih hks hfs hk

/-- Elements of one key, picked from the list regrouped by keys. -/
theorem filter_regroup {l : List α} {ks : List β} (hks : (ks.map part).Nodup)
    (hl : ∀ a ∈ l, ∃ k ∈ ks, key a = part k) {q : α → Bool}
    (hq : ∀ a b, q a → q b → key a = key b) :
    (ks.flatMap fun k => l.filter fun a => key a = part k).filter q = l.filter q := by
  by_cases hex : ∃ a ∈ l, q a
  · obtain ⟨a, ha, hqa⟩ := hex
    obtain ⟨k, hk, hak⟩ := hl a ha
    have hkey : ∀ L : List α, L.filter q = (L.filter fun b => key b = part k).filter q := by
      intro L
      rw [List.filter_filter]
      refine List.filter_congr fun b _ => ?_
      cases hqb : q b with
      | false => simp
      | true => simp [hq b a hqb hqa, hak]
    have hpart := @filter_flatMap_of_nodup α β γ _ key part
      (fun k => l.filter fun a => key a = part k) ks hks
      (fun k _ a ha => of_decide_eq_true (List.mem_filter.mp ha).2) k hk
    rw [hkey, hpart, ← hkey]
  · have hnone : ∀ L : List α, (∀ a ∈ L, a ∈ l) → L.filter q = [] := by
      intro L hL
      exact List.filter_eq_nil_iff.mpr fun a ha hqa => hex ⟨a, hL a ha, hqa⟩
    rw [hnone l fun _ h => h]
    refine hnone _ fun a ha => ?_
    obtain ⟨k, _, hak⟩ := List.mem_flatMap.mp ha
    exact (List.mem_filter.mp hak).1

theorem flatMap_ite_nil (p : β → Bool) (f : β → List α) (l : List β) :
    (l.flatMap fun b => if p b then f b else []) = (l.filter p).flatMap f := by
  induction l with
  | nil => rfl
  | cons b l ih =>
    rw [List.flatMap_cons, ih]
    cases hp : p b <;> simp [hp]

end Parts

/-! ## A chosen element in front -/

section Preferred

variable [DecidableEq α] (x : α)

/-- A relation by which only what is not `x` must wait for an `x`. -/
theorem insertionSort_preferred (hr : ∀ a b, r a b ↔ (b = x → a = x)) (l : List α) :
    l.insertionSort r = List.replicate (l.count x) x ++ l.filter (· ≠ x) := by
  have htotal : Std.Total r := ⟨fun a b => by
    rw [hr, hr]
    by_cases h : a = x
    · exact .inl fun _ => h
    · exact .inr fun ha => absurd ha h⟩
  have htrans : IsTrans α r := ⟨fun a b c hab hbc =>
    (hr a c).mpr fun hc => (hr a b).mp hab ((hr b c).mp hbc hc)⟩
  refine insertionSort_eq_of_filter_tied r ?_ ?_
  · refine List.pairwise_append.mpr ⟨?_, ?_, ?_⟩
    · exact List.pairwise_replicate.mpr (.inr (tied_refl r x).1)
    · refine List.pairwise_of_forall_mem_list ?_
      intro a _ b hb
      refine (hr a b).mpr fun e => ?_
      exact absurd e (by simpa using (List.mem_filter.mp hb).2)
    · intro a ha b _
      exact (hr a b).mpr fun _ => List.eq_of_mem_replicate ha
  · intro c
    have htied : ∀ d, Tied r c d ↔ (d = x ↔ c = x) := by
      intro d
      simp only [Tied, hr]
      exact ⟨fun h => ⟨h.1, h.2⟩, fun h => ⟨h.1, h.2⟩⟩
    simp only [htied]
    by_cases hc : c = x
    · simp [hc, List.filter_filter, List.filter_eq, List.count]
    · simp [hc, List.filter_filter]

theorem destutter'_cons_self (a : α) (l : List α) :
    (a :: l).destutter' (· ≠ ·) a = l.destutter' (· ≠ ·) a :=
  List.destutter'_cons_neg _ (by simp)

theorem destutter'_replicate_append (n : Nat) (a : α) (l : List α) :
    (List.replicate n a ++ l).destutter' (· ≠ ·) a = l.destutter' (· ≠ ·) a := by
  induction n with
  | zero => rfl
  | succ n ih => rw [List.replicate_succ, List.cons_append, destutter'_cons_self, ih]

theorem destutter_replicate_append (n : Nat) (l : List α) (hl : x ∉ l) :
    (List.replicate n x ++ l).destutter (· ≠ ·) =
      List.replicate (min n 1) x ++ l.destutter (· ≠ ·) := by
  cases n with
  | zero => simp
  | succ n =>
    have hrest : l.destutter' (· ≠ ·) x = x :: l.destutter (· ≠ ·) := by
      cases l with
      | nil => rfl
      | cons b l =>
        have hb : x ≠ b := fun e => hl (e ▸ List.mem_cons_self)
        exact List.destutter'_cons_pos _ hb
    rw [List.replicate_succ, List.cons_append, List.destutter_cons', destutter'_replicate_append,
      hrest]
    simp

end Preferred

theorem destutter'_flatMap_replicate {β : Type*} [DecidableEq α] (n : β → Nat) (f : β → α) (l : List β) :
    ∀ a, (l.flatMap fun b => List.replicate (n b) (f b)).destutter' (· ≠ ·) a =
      ((l.filter fun b => 0 < n b).map f).destutter' (· ≠ ·) a := by
  induction l with
  | nil => exact fun _ => rfl
  | cons b l ih =>
    intro a
    rw [List.flatMap_cons]
    cases hn : n b with
    | zero => simpa [hn] using ih a
    | succ k =>
      rw [List.filter_cons_of_pos (by simp [hn]), List.map_cons, List.replicate_succ,
        List.cons_append, List.destutter'_cons, List.destutter'_cons]
      split
      · rw [destutter'_replicate_append, ih]
      · rename_i hab
        rw [← not_not.mp hab, destutter'_replicate_append, ih]

/-- Copies next to each other count once, and none at all not. -/
theorem destutter_flatMap_replicate {β : Type*} [DecidableEq α] (n : β → Nat) (f : β → α) (l : List β) :
    (l.flatMap fun b => List.replicate (n b) (f b)).destutter (· ≠ ·) =
      ((l.filter fun b => 0 < n b).map f).destutter (· ≠ ·) := by
  induction l with
  | nil => rfl
  | cons b l ih =>
    rw [List.flatMap_cons]
    cases hn : n b with
    | zero => simpa [hn] using ih
    | succ k =>
      rw [List.filter_cons_of_pos (by simp [hn]), List.map_cons, List.replicate_succ,
        List.cons_append, List.destutter_cons', List.destutter_cons', destutter'_replicate_append,
        destutter'_flatMap_replicate]

/-- The removal of equal neighbours loses no element. -/
theorem mem_destutter [DecidableEq α] (l : List α) (a : α) :
    a ∈ l.destutter (· ≠ ·) ↔ a ∈ l := by
  refine ⟨fun h => (List.destutter_sublist _ l).subset h, ?_⟩
  cases l with
  | nil => exact id
  | cons b l =>
    rw [List.destutter_cons']
    intro h
    induction l generalizing b with
    | nil => exact h
    | cons c l ih =>
      rw [List.destutter'_cons]
      split
      · cases List.mem_cons.mp h with
        | inl e => exact e ▸ List.mem_cons_self
        | inr h => exact List.mem_cons_of_mem _ (ih c h)
      · rename_i hbc
        have hbc : b = c := not_not.mp hbc
        exact ih b (by simpa [hbc] using h)

end Core
