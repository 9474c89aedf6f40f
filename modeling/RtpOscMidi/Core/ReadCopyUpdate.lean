import RtpOscMidi.Core.LTS

/-!
# Read, work on a copy, store, save

Calls on one cell that has a copy on disk. A call reads the cell, works out a
new content from what it read, or returns, and then stores it in the cell and
saves it. The calls run at once, step by step; `update i` is what call `i`
makes of the content it read.

`stores` counts the stores; `version` is the count at the store whose content
the disk has. No step depends on them.

* `Orderly`: a store finds the cell as its call read it; a save succeeds, and
  what it saves was stored after what the disk has.
* `Ordered`: the calls that have stored or returned, run one by one in some
  order, leave the cell as it is. A call that stores comes last; one that only
  read comes where it read.
* `Saved`: the last store is on disk or its call has still to save.
* `serial_of_returned`: when all calls have returned, cell and disk are as
  some order of the calls leaves them.
-/
namespace Core.ReadCopyUpdate

universe u v

variable {ι : Type u} {σ : Type v}

inductive Phase (σ : Type v) where
  | idle
  | read (copy : σ)
  | ready (copy new : σ)
  | stored (new : σ) (version : Nat)
  | returned
  deriving DecidableEq

def Phase.copy? : Phase σ → Option σ
  | .read copy | .ready copy _ => some copy
  | _ => none

/-- The call has taken effect, if it has one. -/
def Phase.done : Phase σ → Bool
  | .stored .. | .returned => true
  | _ => false

structure State (ι : Type u) (σ : Type v) where
  mem : σ
  disk : σ
  stores : Nat
  version : Nat
  phase : ι → Phase σ

inductive Label (ι : Type u) where
  | read (i : ι)
  | work (i : ι)
  | store (i : ι)
  | save (i : ι) (ok : Bool)

variable [DecidableEq ι]

def State.goto (s : State ι σ) (i : ι) (p : Phase σ) : State ι σ :=
  { s with phase := Function.update s.phase i p }

@[simp] theorem goto_mem (s : State ι σ) (i : ι) (p : Phase σ) : (s.goto i p).mem = s.mem := rfl
@[simp] theorem goto_disk (s : State ι σ) (i : ι) (p : Phase σ) : (s.goto i p).disk = s.disk := rfl
@[simp] theorem goto_stores (s : State ι σ) (i : ι) (p : Phase σ) :
    (s.goto i p).stores = s.stores := rfl
@[simp] theorem goto_version (s : State ι σ) (i : ι) (p : Phase σ) :
    (s.goto i p).version = s.version := rfl

theorem goto_phase (s : State ι σ) (i : ι) (p : Phase σ) (j : ι) :
    (s.goto i p).phase j = if j = i then p else s.phase j := by
  simp [State.goto, Function.update_apply]

def step (update : ι → σ → Option σ) (s : State ι σ) : Label ι → Option (State ι σ)
  | .read i =>
    match s.phase i with
    | .idle => some (s.goto i (.read s.mem))
    | _ => none
  | .work i =>
    match s.phase i with
    | .read copy =>
      match update i copy with
      | none => some (s.goto i .returned)
      | some new => some (s.goto i (.ready copy new))
    | _ => none
  | .store i =>
    match s.phase i with
    | .ready _ new =>
      some ({ s with mem := new, stores := s.stores + 1 }.goto i (.stored new (s.stores + 1)))
    | _ => none
  | .save i ok =>
    match s.phase i with
    | .stored new version =>
      some (if ok then { s with disk := new, version := version }.goto i .returned
        else s.goto i .returned)
    | _ => none

def start (m d : σ) : State ι σ := ⟨m, d, 0, 0, fun _ => .idle⟩

def system (update : ι → σ → Option σ) (m d : σ) : LTS (State ι σ) (Label ι) :=
  .ofStep (· = start m d) (step update)

/-- A store replaces what its call read. -/
def Phase.Fresh (mem : σ) : Phase σ → Prop
  | .ready copy _ => copy = mem
  | .idle | .read _ | .stored .. | .returned => True

/-- A save comes after those of earlier stores only. -/
def Phase.Newer (version : Nat) : Phase σ → Prop
  | .stored _ v => version < v
  | .idle | .read _ | .ready .. | .returned => True

instance [DecidableEq σ] (mem : σ) : ∀ p : Phase σ, Decidable (p.Fresh mem)
  | .ready copy _ => inferInstanceAs (Decidable (copy = mem))
  | .idle | .read _ | .stored .. | .returned => inferInstanceAs (Decidable True)

instance (version : Nat) : ∀ p : Phase σ, Decidable (p.Newer version)
  | .stored _ v => inferInstanceAs (Decidable (version < v))
  | .idle | .read _ | .ready .. | .returned => inferInstanceAs (Decidable True)

def Orderly (s : State ι σ) : Label ι → Prop
  | .read _ | .work _ => True
  | .store i => (s.phase i).Fresh s.mem
  | .save i ok => ok = true ∧ (s.phase i).Newer s.version

instance [DecidableEq σ] (s : State ι σ) : ∀ l, Decidable (Orderly s l)
  | .read _ | .work _ => inferInstanceAs (Decidable True)
  | .store i => inferInstanceAs (Decidable ((s.phase i).Fresh s.mem))
  | .save i _ => inferInstanceAs (Decidable (_ ∧ (s.phase i).Newer s.version))

/-- What a step does, by its label and the phase of its call. -/
theorem step_cases {update : ι → σ → Option σ} {s s' : State ι σ} {l : Label ι}
    (h : step update s l = some s') :
    (∃ i, l = .read i ∧ s.phase i = .idle ∧ s' = s.goto i (.read s.mem)) ∨
    (∃ i copy, l = .work i ∧ s.phase i = .read copy ∧ update i copy = none ∧
      s' = s.goto i .returned) ∨
    (∃ i copy new, l = .work i ∧ s.phase i = .read copy ∧ update i copy = some new ∧
      s' = s.goto i (.ready copy new)) ∨
    (∃ i copy new, l = .store i ∧ s.phase i = .ready copy new ∧
      s' = { s with mem := new, stores := s.stores + 1 }.goto i (.stored new (s.stores + 1))) ∨
    ∃ i ok new version, l = .save i ok ∧ s.phase i = .stored new version ∧
      s' = if ok then { s with disk := new, version := version }.goto i .returned
        else s.goto i .returned := by
  cases l with
  | read i =>
    cases hp : s.phase i with
    | idle =>
      simp only [step, hp, Option.some.injEq] at h
      exact .inl ⟨i, rfl, hp, h.symm⟩
    | read copy => simp [step, hp] at h
    | ready copy new => simp [step, hp] at h
    | stored new version => simp [step, hp] at h
    | returned => simp [step, hp] at h
  | work i =>
    cases hp : s.phase i with
    | read copy =>
      cases hu : update i copy with
      | none =>
        simp only [step, hp, hu, Option.some.injEq] at h
        exact .inr (.inl ⟨i, copy, rfl, hp, hu, h.symm⟩)
      | some new =>
        simp only [step, hp, hu, Option.some.injEq] at h
        exact .inr (.inr (.inl ⟨i, copy, new, rfl, hp, hu, h.symm⟩))
    | idle => simp [step, hp] at h
    | ready copy new => simp [step, hp] at h
    | stored new version => simp [step, hp] at h
    | returned => simp [step, hp] at h
  | store i =>
    cases hp : s.phase i with
    | ready copy new =>
      simp only [step, hp, Option.some.injEq] at h
      exact .inr (.inr (.inr (.inl ⟨i, copy, new, rfl, hp, h.symm⟩)))
    | idle => simp [step, hp] at h
    | read copy => simp [step, hp] at h
    | stored new version => simp [step, hp] at h
    | returned => simp [step, hp] at h
  | save i ok =>
    cases hp : s.phase i with
    | stored new version =>
      simp only [step, hp, Option.some.injEq] at h
      exact .inr (.inr (.inr (.inr ⟨i, ok, new, version, rfl, hp, h.symm⟩)))
    | idle => simp [step, hp] at h
    | read copy => simp [step, hp] at h
    | ready copy new => simp [step, hp] at h
    | returned => simp [step, hp] at h

/-- Who goes from `ready` to `stored` has moved itself. -/
theorem goto_stored {s : State ι σ} {i j : ι} {p : Phase σ} {copy new new' : σ} {version : Nat}
    (hp : s.phase i = .ready copy new) (h : (s.goto j p).phase i = .stored new' version) :
    i = j ∧ p = .stored new' version := by
  rw [goto_phase] at h
  split at h
  · rename_i hij
    exact ⟨hij, h⟩
  · rw [hp] at h
    cases h

theorem store_of_stored {update : ι → σ → Option σ} {s s' : State ι σ} {l : Label ι} {i : ι}
    {copy new new' : σ} {version : Nat} (hst : step update s l = some s')
    (hp : s.phase i = .ready copy new) (hp' : s'.phase i = .stored new' version) :
    l = .store i ∧ s'.mem = new := by
  obtain ⟨j, rfl, hj, rfl⟩ | ⟨j, c, rfl, hj, hu, rfl⟩ | ⟨j, c, u, rfl, hj, hu, rfl⟩ |
    ⟨j, c, u, rfl, hj, rfl⟩ | ⟨j, ok, u, v, rfl, hj, rfl⟩ := step_cases hst
  · cases (goto_stored hp hp').2
  · cases (goto_stored hp hp').2
  · cases (goto_stored hp hp').2
  · have hphase : (s.goto j (.stored u (s.stores + 1))).phase i = .stored new' version := hp'
    have hij := (goto_stored hp hphase).1
    rw [← hij, hp] at hj
    cases hj
    exact ⟨congrArg Label.store hij.symm, rfl⟩
  · have hphase : (s.goto j .returned).phase i = .stored new' version := by
      cases ok <;> exact hp'
    cases (goto_stored hp hphase).2

/-! ## Calls one by one -/

/-- A call that runs alone, from the cell and the disk to both. -/
def alone (update : ι → σ → Option σ) (p : σ × σ) (i : ι) : σ × σ :=
  match update i p.1 with
  | none => p
  | some new => (new, new)

def serial (update : ι → σ → Option σ) (order : List ι) (p : σ × σ) : σ × σ :=
  order.foldl (alone update) p

omit [DecidableEq ι] in
theorem serial_append (update : ι → σ → Option σ) (order order' : List ι) (p : σ × σ) :
    serial update (order ++ order') p = serial update order' (serial update order p) :=
  List.foldl_append

omit [DecidableEq ι] in
/-- A call that stores nothing may stand wherever it read. -/
theorem serial_insert {update : ι → σ → Option σ} {order order' : List ι} {p : σ × σ} {i : ι}
    (h : update i (serial update order p).1 = none) :
    serial update (order ++ i :: order') p = serial update (order ++ order') p := by
  have halone : alone update (serial update order p) i = serial update order p := by
    rw [alone, h]
  rw [serial_append, serial_append]
  generalize serial update order p = q at halone ⊢
  rw [serial, List.foldl_cons, halone, serial]

structure Ordered (update : ι → σ → Option σ) (m d : σ) (order : List ι) (s : State ι σ) : Prop where
  nodup : order.Nodup
  mem_iff : ∀ i, i ∈ order ↔ (s.phase i).done
  result : serial update order (m, d) = (s.mem, if s.stores = 0 then d else s.mem)
  unchanged : s.stores = 0 → s.mem = m
  copied : ∀ i copy, (s.phase i).copy? = some copy →
    ∃ before after, order = before ++ after ∧ (serial update before (m, d)).1 = copy
  ready : ∀ i copy new, s.phase i = .ready copy new → update i copy = some new

variable {update : ι → σ → Option σ} {m d : σ} {order : List ι} {s s' : State ι σ} {i : ι}

omit [DecidableEq ι] in
theorem ordered_start : Ordered update m d [] (start m d) where
  nodup := .nil
  mem_iff _ := by simp [start, Phase.done]
  result := by simp [serial, start]
  unchanged _ := rfl
  copied _ _ h := by simp [start, Phase.copy?] at h
  ready _ _ _ h := by simp [start] at h

/-- A call moves on without taking effect. -/
theorem Ordered.goto (O : Ordered update m d order s) {p : Phase σ} (hnew : p.done = false)
    (hold : (s.phase i).done = false)
    (hcopy : ∀ copy, p.copy? = some copy →
      ∃ before after, order = before ++ after ∧ (serial update before (m, d)).1 = copy)
    (hready : ∀ copy new, p = .ready copy new → update i copy = some new) :
    Ordered update m d order (s.goto i p) where
  nodup := O.nodup
  mem_iff j := by
    rw [O.mem_iff, goto_phase]
    split
    · rename_i hj
      rw [hj, hold, hnew]
    · rfl
  result := O.result
  unchanged := O.unchanged
  copied j copy hj := by
    rw [goto_phase] at hj
    split at hj
    · exact hcopy copy hj
    · exact O.copied j copy hj
  ready j copy new hj := by
    rw [goto_phase] at hj
    split at hj
    · rename_i e
      exact e ▸ hready copy new hj
    · exact O.ready j copy new hj

/-- A call returns without storing: it takes its place where it read. -/
theorem Ordered.skip (O : Ordered update m d order s) {copy : σ} (hp : s.phase i = .read copy)
    (hu : update i copy = none) : ∃ order', Ordered update m d order' (s.goto i .returned) := by
  obtain ⟨before, after, horder, hcopy⟩ := O.copied i copy (by rw [hp]; rfl)
  have hnew : i ∉ order := by
    rw [O.mem_iff, hp]
    simp [Phase.done]
  have hperm : (before ++ i :: after).Perm (i :: order) := horder ▸ List.perm_middle
  have hserial : ∀ rest, serial update (before ++ i :: rest) (m, d) =
      serial update (before ++ rest) (m, d) := fun rest => serial_insert (hcopy ▸ hu)
  refine ⟨before ++ i :: after, ?_, ?_, ?_, O.unchanged, ?_, ?_⟩
  · exact hperm.nodup_iff.mpr (List.nodup_cons.mpr ⟨hnew, O.nodup⟩)
  · intro j
    rw [hperm.mem_iff, List.mem_cons, O.mem_iff, goto_phase]
    split
    · rename_i hj
      simp [hj, Phase.done]
    · rename_i hj
      simp [hj]
  · rw [hserial, ← horder]
    exact O.result
  · intro j copyj hj
    rw [goto_phase] at hj
    split at hj
    · simp [Phase.copy?] at hj
    · obtain ⟨beforej, afterj, horderj, hcopyj⟩ := O.copied j copyj hj
      -- what was read before call `i` read is read before it still
      cases List.append_eq_append_iff.mp (horder.symm.trans horderj) with
      | inl hle =>
        obtain ⟨mid, hbeforej, hafter⟩ := hle
        refine ⟨before ++ i :: mid, afterj, by simp [hafter], ?_⟩
        rw [hserial, ← hbeforej]
        exact hcopyj
      | inr hge =>
        obtain ⟨mid, hbefore, _⟩ := hge
        exact ⟨beforej, mid ++ i :: after, by simp [hbefore], hcopyj⟩
  · intro j copyj newj hj
    rw [goto_phase] at hj
    split at hj
    · cases hj
    · exact O.ready j copyj newj hj

/-- A call stores what it made of the cell as it is. -/
theorem Ordered.store (O : Ordered update m d order s) {new : σ}
    (hp : s.phase i = .ready s.mem new) :
    Ordered update m d (order ++ [i])
      ({ s with mem := new, stores := s.stores + 1 }.goto i (.stored new (s.stores + 1))) where
  nodup := by
    have hnew : i ∉ order := by
      rw [O.mem_iff, hp]
      simp [Phase.done]
    exact List.nodup_append.mpr ⟨O.nodup, List.nodup_singleton i, by
      intro a ha b hb e
      exact hnew (List.mem_singleton.mp hb ▸ e ▸ ha)⟩
  mem_iff j := by
    rw [List.mem_append, O.mem_iff, List.mem_singleton, goto_phase]
    split
    · rename_i hj
      simp [hj, Phase.done]
    · rename_i hj
      simp [hj]
  result := by
    have halone : alone update (serial update order (m, d)) i = (new, new) := by
      rw [O.result, alone, O.ready i _ _ hp]
    rw [serial_append, serial, List.foldl_cons, halone]
    simp
  unchanged h := by simp at h
  copied j copy hj := by
    rw [goto_phase] at hj
    split at hj
    · simp [Phase.copy?] at hj
    · obtain ⟨before, after, horder, hcopy⟩ := O.copied j copy hj
      exact ⟨before, after ++ [i], by simp [horder], hcopy⟩
  ready j copy newj hj := by
    rw [goto_phase] at hj
    split at hj
    · cases hj
    · exact O.ready j copy newj hj

/-- A call returns from its save. -/
theorem Ordered.save (O : Ordered update m d order s) {new x : σ} {version v : Nat}
    (hp : s.phase i = .stored new version) :
    Ordered update m d order ({ s with disk := x, version := v }.goto i .returned) where
  nodup := O.nodup
  mem_iff j := by
    rw [O.mem_iff, goto_phase]
    split
    · rename_i hj
      simp [hj, hp, Phase.done]
    · rfl
  result := O.result
  unchanged := O.unchanged
  copied j copy hj := by
    rw [goto_phase] at hj
    split at hj
    · simp [Phase.copy?] at hj
    · exact O.copied j copy hj
  ready j copy newj hj := by
    rw [goto_phase] at hj
    split at hj
    · cases hj
    · exact O.ready j copy newj hj

theorem ordered_step (O : Ordered update m d order s) {l : Label ι} (hok : Orderly s l)
    (hst : step update s l = some s') : ∃ order', Ordered update m d order' s' := by
  obtain ⟨i, rfl, hp, rfl⟩ | ⟨i, copy, rfl, hp, hu, rfl⟩ | ⟨i, copy, new, rfl, hp, hu, rfl⟩ |
    ⟨i, copy, new, rfl, hp, rfl⟩ | ⟨i, ok, new, version, rfl, hp, rfl⟩ := step_cases hst
  · refine ⟨order, O.goto rfl (by rw [hp]; rfl) ?_ (by simp)⟩
    intro copy hcopy
    refine ⟨order, [], (List.append_nil _).symm, ?_⟩
    rw [O.result]
    exact Option.some.inj hcopy
  · exact O.skip hp hu
  · refine ⟨order, O.goto rfl (by rw [hp]; rfl) ?_ ?_⟩
    · intro c hc
      exact O.copied i c (by rw [hp]; exact hc)
    · intro c n hn
      cases hn
      exact hu
  · simp only [Orderly, hp, Phase.Fresh] at hok
    subst hok
    exact ⟨order ++ [i], O.store hp⟩
  · refine ⟨order, ?_⟩
    cases ok with
    | true => exact O.save hp
    | false => exact O.save hp

/-! ## The disk -/

structure Saved (d : σ) (s : State ι σ) : Prop where
  untouched : s.version = 0 → s.disk = d
  le : s.version ≤ s.stores
  disk : 0 < s.version → s.version = s.stores → s.disk = s.mem
  stored : ∀ i new version, s.phase i = .stored new version →
    version ≤ s.stores ∧ (version = s.stores → new = s.mem)
  distinct : ∀ i j new new' version, s.phase i = .stored new version →
    s.phase j = .stored new' version → i = j
  pending : s.version < s.stores → ∃ i new, s.phase i = .stored new s.stores

omit [DecidableEq ι] in
theorem saved_start : Saved d (start m d : State ι σ) where
  untouched _ := rfl
  le := Nat.le_refl 0
  disk h := absurd h (Nat.lt_irrefl 0)
  stored _ _ _ h := by simp [start] at h
  distinct _ _ _ _ _ h := by simp [start] at h
  pending h := absurd h (Nat.lt_irrefl 0)

/-- A call that has not stored moves on without storing. -/
theorem Saved.goto (S : Saved d s) {p : Phase σ} (hp : ∀ new version, p ≠ .stored new version)
    (hold : ∀ new version, s.phase i ≠ .stored new version) : Saved d (s.goto i p) where
  untouched := S.untouched
  le := S.le
  disk := S.disk
  stored j new version hj := by
    rw [goto_phase] at hj
    split at hj
    · exact absurd hj (hp new version)
    · exact S.stored j new version hj
  distinct j k new new' version hj hk := by
    rw [goto_phase] at hj hk
    split at hj
    · exact absurd hj (hp new version)
    · split at hk
      · exact absurd hk (hp new' version)
      · exact S.distinct j k new new' version hj hk
  pending h := by
    obtain ⟨j, new, hj⟩ := S.pending h
    refine ⟨j, new, ?_⟩
    rw [goto_phase, if_neg, goto_stores]
    · exact hj
    · intro e
      exact hold new s.stores (e ▸ hj)

theorem Saved.store (S : Saved d s) (new : σ) :
    Saved d ({ s with mem := new, stores := s.stores + 1 }.goto i (.stored new (s.stores + 1))) where
  untouched := S.untouched
  le := Nat.le_succ_of_le S.le
  disk _ h := by
    have hle := S.le
    simp only [goto_version, goto_stores] at h
    omega
  stored j newj version hj := by
    rw [goto_phase] at hj
    split at hj
    · cases hj
      exact ⟨Nat.le_refl _, fun _ => rfl⟩
    · have hle := (S.stored j newj version hj).1
      refine ⟨Nat.le_succ_of_le hle, fun e => ?_⟩
      simp only [goto_stores] at e
      omega
  distinct j k newj newk version hj hk := by
    rw [goto_phase] at hj hk
    split at hj
    · rename_i hji
      cases hj
      split at hk
      · rename_i hki
        exact hji.trans hki.symm
      · have hle := (S.stored k newk _ hk).1
        omega
    · split at hk
      · cases hk
        have hle := (S.stored j newj _ hj).1
        omega
      · exact S.distinct j k newj newk version hj hk
  pending _ := ⟨i, new, by rw [goto_phase, if_pos rfl, goto_stores]⟩

/-- A save of something newer than the disk. The last store is saved now, or
another call has it. -/
theorem Saved.save (S : Saved d s) {new : σ} {version : Nat} (hp : s.phase i = .stored new version)
    (hnewer : s.version < version) :
    Saved d ({ s with disk := new, version := version }.goto i .returned) where
  untouched h := by
    simp only [goto_version] at h
    omega
  le := (S.stored i new version hp).1
  disk _ h := (S.stored i new version hp).2 h
  stored j newj versionj hj := by
    rw [goto_phase] at hj
    split at hj
    · cases hj
    · exact S.stored j newj versionj hj
  distinct j k newj newk versionj hj hk := by
    rw [goto_phase] at hj hk
    split at hj
    · cases hj
    · split at hk
      · cases hk
      · exact S.distinct j k newj newk versionj hj hk
  pending h := by
    simp only [goto_version, goto_stores] at h
    obtain ⟨j, newj, hj⟩ := S.pending (by omega)
    refine ⟨j, newj, ?_⟩
    rw [goto_phase, if_neg, goto_stores]
    · exact hj
    · intro e
      rw [e, hp] at hj
      cases hj
      omega

theorem saved_step (S : Saved d s) {l : Label ι} (hok : Orderly s l)
    (hst : step update s l = some s') : Saved d s' := by
  obtain ⟨i, rfl, hp, rfl⟩ | ⟨i, copy, rfl, hp, hu, rfl⟩ | ⟨i, copy, new, rfl, hp, hu, rfl⟩ |
    ⟨i, copy, new, rfl, hp, rfl⟩ | ⟨i, ok, new, version, rfl, hp, rfl⟩ := step_cases hst
  · exact S.goto (by simp) (by simp [hp])
  · exact S.goto (by simp) (by simp [hp])
  · exact S.goto (by simp) (by simp [hp])
  · exact S.store new
  · simp only [Orderly, hp, Phase.Newer] at hok
    rw [if_pos hok.1]
    exact S.save hp hok.2

/-! ## Whole runs -/

def Serializable (update : ι → σ → Option σ) (m d : σ) (s : State ι σ) : Prop :=
  (∃ order, Ordered update m d order s) ∧ Saved d s

theorem serializable_inductive (update : ι → σ → Option σ) (m d : σ) :
    ((system update m d).restrict Orderly).Inductive (Serializable update m d) where
  init s hs := by
    have hs : s = start m d := hs
    subst hs
    exact ⟨⟨[], ordered_start⟩, saved_start⟩
  step s l s' hs hst := by
    obtain ⟨⟨order, O⟩, S⟩ := hs
    exact ⟨ordered_step O hst.1 hst.2, saved_step S hst.1 hst.2⟩

omit [DecidableEq ι] in
theorem serial_of_returned (hs : Serializable update m d s)
    (hret : ∀ i, s.phase i = .returned) :
    (∃ order : List ι, order.Nodup ∧ (∀ i, i ∈ order) ∧
      serial update order (m, d) = (s.mem, s.disk)) ∧
    (s.disk = s.mem ∨ s.mem = m ∧ s.disk = d) := by
  obtain ⟨⟨order, O⟩, S⟩ := hs
  have hlast : s.version = s.stores := by
    refine Nat.le_antisymm S.le (Nat.le_of_not_lt fun h => ?_)
    obtain ⟨i, new, hi⟩ := S.pending h
    rw [hret i] at hi
    cases hi
  have hdisk : s.disk = if s.stores = 0 then d else s.mem := by
    split
    · rename_i h
      exact S.untouched (hlast.trans h)
    · rename_i h
      exact S.disk (hlast ▸ Nat.pos_of_ne_zero h) hlast
  refine ⟨⟨order, O.nodup, ?_, by rw [O.result, hdisk]⟩, ?_⟩
  · intro i
    rw [O.mem_iff, hret i]
    rfl
  · by_cases h : s.stores = 0
    · exact .inr ⟨O.unchanged h, by rw [hdisk, if_pos h]⟩
    · exact .inl (by rw [hdisk, if_neg h])

end Core.ReadCopyUpdate
