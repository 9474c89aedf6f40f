import Mathlib

/-!
# Lists as logs, queues and thread tables

* `any_entries`: some entry of a table meets a test.
* `countP_set_add`: counting the members of a thread table after one thread
  moved, without a subtraction.
* `getElem?_set_cases`, `getElem?_concat_cases`: a thread of that table.
* `AtEach Q l`: every member of `l` is related to the members before it.
* `Led R P l`: every member of `l` that meets `P` has an earlier member
  related to it by `R` ("every delivery is preceded by a send").
* `Since P Q l`: `l` has a member that meets `P` and none after it that
  meets `Q` ("locked and not unlocked since").
-/
namespace Core

universe u

variable {α : Type u}

/-- Some entry of a table without double keys meets `p`. -/
theorem any_entries {κ : Type*} {β : Type*} [DecidableEq κ] (t : AList fun _ : κ => β)
    (p : β → Bool) : ((t.entries.map Sigma.snd).any p) = true ↔
      ∃ key, (t.lookup key).any p = true := by
  simp only [List.any_map, List.any_eq_true, Function.comp, Option.any_eq_true]
  constructor
  · intro ⟨⟨key, value⟩, hmem, hp⟩
    exact ⟨key, value, AList.mem_lookup_iff.mpr hmem, hp⟩
  · intro ⟨key, value, hkey, hp⟩
    exact ⟨⟨key, value⟩, AList.mem_lookup_iff.mp hkey, hp⟩

theorem countP_cons_toNat (p : α → Bool) (x : α) (l : List α) :
    (x :: l).countP p = l.countP p + (p x).toNat := by
  rw [List.countP_cons]
  cases p x <;> rfl

theorem countP_concat (p : α → Bool) (l : List α) (x : α) :
    (l ++ [x]).countP p = l.countP p + (p x).toNat := by
  rw [List.countP_append, countP_cons_toNat, List.countP_nil, Nat.zero_add]

/-- One thread of a table moves from `a` to `b`. -/
theorem countP_set_add (p : α → Bool) (b : α) :
    ∀ {l : List α} {i : Nat} {a : α}, l[i]? = some a →
      (l.set i b).countP p + (p a).toNat = l.countP p + (p b).toNat
  | [], _, _, h => by simp at h
  | x :: xs, 0, a, h => by
    simp only [List.getElem?_cons_zero, Option.some.injEq] at h
    subst h
    simp only [List.set_cons_zero, countP_cons_toNat]
    omega
  | x :: xs, i + 1, a, h => by
    simp only [List.getElem?_cons_succ] at h
    have ih := countP_set_add p b h
    simp only [List.set_cons_succ, countP_cons_toNat]
    omega

/-- A thread of a table after one thread moved: that one, or another as it was. -/
theorem getElem?_set_cases {l : List α} {i j : Nat} {a b : α} (h : (l.set i a)[j]? = some b) :
    (j = i ∧ b = a) ∨ (j ≠ i ∧ l[j]? = some b) := by
  rw [List.getElem?_set] at h
  split at h
  · rename_i hij
    split at h
    · exact .inl ⟨hij.symm, (Option.some.inj h).symm⟩
    · cases h
  · rename_i hij
    exact .inr ⟨fun e => hij e.symm, h⟩

/-- A thread of a table after one thread joined. -/
theorem getElem?_concat_cases {l : List α} {j : Nat} {a b : α} (h : (l ++ [a])[j]? = some b) :
    (j = l.length ∧ b = a) ∨ l[j]? = some b := by
  rw [List.getElem?_append] at h
  split at h
  · exact .inr h
  · rename_i hlt
    rw [List.getElem?_singleton] at h
    split at h
    · rename_i h0
      exact .inl ⟨by omega, (Option.some.inj h).symm⟩
    · cases h

theorem lt_of_getElem?_eq_some {l : List α} {i : Nat} {a : α} (h : l[i]? = some a) :
    i < l.length := (List.getElem?_eq_some_iff.mp h).1

theorem mem_of_set {l : List α} {i : Nat} {a b : α} (h : a ∈ l.set i b) : a ∈ l ∨ a = b :=
  List.mem_or_eq_of_mem_set h

theorem mem_of_modify {l : List α} {i : Nat} {f : α → α} {b : α} (h : b ∈ l.modify i f) :
    b ∈ l ∨ ∃ a, l[i]? = some a ∧ b = f a := by
  obtain ⟨j, hj⟩ := List.mem_iff_getElem?.mp h
  rw [List.getElem?_modify] at hj
  cases ha : l[j]? with
  | none => simp [ha] at hj
  | some a =>
    simp only [ha, Option.map_eq_map, Option.map_some, Option.some.injEq] at hj
    split at hj
    · rename_i hij
      exact .inr ⟨a, by rw [hij, ha], hj.symm⟩
    · exact .inl (hj ▸ List.mem_of_getElem? ha)

/-! ## Precedence in a log -/

/-- Every member of `l` is related by `Q` to what comes before it. -/
def AtEach (Q : List α → α → Prop) (l : List α) : Prop :=
  ∀ xs x ys, l = xs ++ x :: ys → Q xs x

theorem atEach_nil (Q : List α → α → Prop) : AtEach Q [] := by
  intro xs x ys h
  simp at h

theorem AtEach.append {Q : List α → α → Prop} {l l' : List α} (h : AtEach Q l)
    (h' : ∀ xs x ys, l' = xs ++ x :: ys → Q (l ++ xs) x) : AtEach Q (l ++ l') := by
  intro xs x ys e
  rcases List.append_eq_append_iff.mp e with ⟨as, rfl, e'⟩ | ⟨bs, rfl, e'⟩
  · exact h' as x ys e'
  · cases bs with
    | nil =>
      have := h' [] x ys e'.symm
      simpa using this
    | cons b bs =>
      obtain ⟨rfl, -⟩ := List.cons.inj e'
      exact h xs x bs rfl

theorem AtEach.concat {Q : List α → α → Prop} {l : List α} {a : α} (h : AtEach Q l) (ha : Q l a) :
    AtEach Q (l ++ [a]) := by
  refine h.append fun xs x ys e => ?_
  cases xs with
  | nil =>
    obtain ⟨rfl, -⟩ := List.cons.inj e
    simpa using ha
  | cons b xs => simp at e

/-- Every member of `l` that meets `P` has an earlier member `R`-related to it. -/
def Led (R : α → α → Prop) (P : α → Prop) (l : List α) : Prop :=
  AtEach (fun xs x => P x → ∃ y ∈ xs, R y x) l

theorem led_nil (R : α → α → Prop) (P : α → Prop) : Led R P [] := atEach_nil _

theorem Led.concat {R : α → α → Prop} {P : α → Prop} {l : List α} {a : α} (h : Led R P l)
    (ha : P a → ∃ y ∈ l, R y a) : Led R P (l ++ [a]) :=
  AtEach.concat h ha

theorem Led.append {R : α → α → Prop} {P : α → Prop} {l l' : List α} (h : Led R P l)
    (h' : ∀ x ∈ l', P x → ∃ y ∈ l, R y x) : Led R P (l ++ l') := by
  induction l' generalizing l with
  | nil => simpa using h
  | cons a l' ih =>
    rw [← List.singleton_append, ← List.append_assoc]
    refine ih (h.concat (h' a List.mem_cons_self)) fun x hx hp => ?_
    obtain ⟨y, hy, hr⟩ := h' x (List.mem_cons_of_mem a hx) hp
    exact ⟨y, List.mem_append_left _ hy, hr⟩

/-! ## Since -/

/-- A member of `l` meets `P`, and none after it meets `Q`. -/
def Since (P Q : α → Prop) (l : List α) : Prop :=
  ∃ xs x ys, l = xs ++ x :: ys ∧ P x ∧ ∀ y ∈ ys, ¬Q y

theorem since_concat {P Q : α → Prop} {a : α} (l : List α) (ha : P a) : Since P Q (l ++ [a]) :=
  ⟨l, a, [], rfl, ha, nofun⟩

theorem Since.append {P Q : α → Prop} {l l' : List α} (h : Since P Q l) (h' : ∀ a ∈ l', ¬Q a) :
    Since P Q (l ++ l') := by
  obtain ⟨xs, x, ys, rfl, hx, hys⟩ := h
  refine ⟨xs, x, ys ++ l', by simp, hx, fun y hy => ?_⟩
  rcases List.mem_append.mp hy with hy | hy
  · exact hys y hy
  · exact h' y hy

end Core
