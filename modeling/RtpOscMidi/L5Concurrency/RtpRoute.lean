import RtpOscMidi.L5Concurrency.RtpPanics

/-!
# The route of the RTP output

* `rtp_output`: the panics between the generations, and what goes out while
  thru is disabled.
* `sent_while_shut`: a frame that goes out after thru has been disabled.
-/
namespace RtpOscMidi.L5.RtpOutput

open Core L1.MidiMessage L2.MidiQueue

variable {s s' : St} {i : Nat}

/-! ## While thru is disabled -/

def hand : Pc → List OutgoingFrame
  | .taken f | .compared f _ | .ready f => [f]
  | _ => []

/-- The frames that wait for the task, that it holds, and that no panic has
answered yet. -/
def St.waiting (s : St) : List OutgoingFrame :=
  s.queue ++ (s.task.pending.toList ++ (hand s.task.pc ++ unreleased s.wire))

def Op.holdsLock : Op → Bool
  | .send _ pc => pc != .lock && pc != .done
  | .setThru _ pc => pc != .lock && pc != .done

/-- Between the test of `enabled` and the end of the admission. -/
def Op.admitting : Op → Bool
  | .send _ .sender | .send _ .copy | .send _ .stamp | .send _ (.trySend _) => true
  | _ => false

/-- A call has asked for a reset and is about to disable thru. -/
def Op.shutting : Op → Bool
  | .setThru _ (.store true) => true
  | _ => false

structure OpInv (s : St) : Prop where
  owner : ∀ (i : Nat) (o : Op), s.ops[i]? = some o → o.holdsLock = true → s.lock = some i
  admitting : ∀ (i : Nat) (o : Op), s.ops[i]? = some o → o.admitting = true → s.enabled = true
  read : ∀ (i : Nat) (f : MidiFrame) (r : Nat), s.ops[i]? = some (.send f (.trySend r)) →
    r ≤ s.routeGeneration
  disabled : s.shut = true → s.enabled = false
  waiting_le : ∀ f ∈ s.waiting, f.routeGeneration ≤ s.routeGeneration
  /-- what waits is older than the reset that disabling thru asked for -/
  old : (s.shut = true ∨ ∃ (i : Nat) (o : Op), s.ops[i]? = some o ∧ o.shutting = true) →
    ∀ f ∈ s.waiting, f.routeGeneration < s.routeGeneration

theorem opInv_init : OpInv init where
  owner i o h := by simp [init] at h
  admitting i o h := by simp [init] at h
  read i f r h := by simp [init] at h
  disabled h := by cases h
  waiting_le f h := by cases h
  old h := by simp [init] at h

/-- A call goes on without a frame and without touching `enabled`. -/
theorem OpInv.moveOp {o o' : Op} {p : Option Nat} {r : Nat} (I : OpInv s) (hi : s.ops[i]? = some o)
    (hr : s.routeGeneration ≤ r)
    (howner : o'.holdsLock = true → p = some i)
    (hother : ∀ (j : Nat), j ≠ i → s.lock = some j → p = some j)
    (hadm : o'.admitting = true → s.enabled = true)
    (hread : ∀ f r', o' = .send f (.trySend r') → r' ≤ r)
    (hshut : o'.shutting = true → ∀ f ∈ s.waiting, f.routeGeneration < r) :
    OpInv { s with ops := s.ops.set i o', lock := p, routeGeneration := r } := by
  refine ⟨fun j o'' hj hl => ?_, fun j o'' hj ha => ?_, fun j f r' hj => ?_, I.disabled,
    fun f hf => Nat.le_trans (I.waiting_le f hf) hr, fun hs f hf => ?_⟩
  · rcases getElem?_set_cases hj with ⟨rfl, rfl⟩ | ⟨hne, hj⟩
    · exact howner hl
    · exact hother j hne (I.owner j o'' hj hl)
  · rcases getElem?_set_cases hj with ⟨rfl, rfl⟩ | ⟨hne, hj⟩
    · exact hadm ha
    · exact I.admitting j o'' hj ha
  · rcases getElem?_set_cases hj with ⟨rfl, he⟩ | ⟨hne, hj⟩
    · exact hread f r' he.symm
    · exact Nat.le_trans (I.read j f r' hj) hr
  · have hold := fun h => Nat.lt_of_lt_of_le (I.old h f hf) hr
    rcases hs with hs | ⟨j, o'', hj, hs⟩
    · exact hold (.inl hs)
    · rcases getElem?_set_cases hj with ⟨rfl, rfl⟩ | ⟨hne, hj⟩
      · exact hshut hs f hf
      · exact hold (.inr ⟨j, o'', hj, hs⟩)

/-- A call goes on to where it neither admits a frame nor disables thru. -/
theorem OpInv.moveIdle {o o' : Op} {p : Option Nat} {r : Nat} (I : OpInv s)
    (hi : s.ops[i]? = some o) (hr : s.routeGeneration ≤ r)
    (howner : o'.holdsLock = true → p = some i)
    (hother : ∀ (j : Nat), j ≠ i → s.lock = some j → p = some j)
    (hadm : o'.admitting = false) (hshut : o'.shutting = false) :
    OpInv { s with ops := s.ops.set i o', lock := p, routeGeneration := r } := by
  refine I.moveOp hi hr howner hother (fun h => ?_) (fun f r' h => ?_) fun h => ?_
  · rw [hadm] at h
    cases h
  · rw [h] at hadm
    cases hadm
  · rw [hshut] at h
    cases h

/-- The call that holds the lock is alone between the test and the store. -/
theorem OpInv.alone {o o' : Op} {j : Nat} (I : OpInv s) (hi : s.ops[i]? = some o)
    (hl : o.holdsLock = true) (hj : s.ops[j]? = some o') (hl' : o'.holdsLock = true) : j = i := by
  have h := I.owner i o hi hl
  rw [I.owner j o' hj hl'] at h
  exact Option.some.inj h

theorem holdsLock_of_admitting {o : Op} (h : o.admitting = true) : o.holdsLock = true := by
  cases o with
  | send f pc =>
    cases pc with
    | lock | enabled | requestReset | unlock | done => cases h
    | sender | copy | stamp | trySend _ => rfl
  | setThru e pc => cases h

theorem holdsLock_of_shutting {o : Op} (h : o.shutting = true) : o.holdsLock = true := by
  cases o with
  | send f pc => cases h
  | setThru e pc =>
    cases pc with
    | store requested => rfl
    | lock | read | sender | requestReset | unlock | done => cases h

/-- A frame is admitted only while no reset for a disabling is behind. -/
theorem OpInv.not_shut (I : OpInv s) {o : Op} (hi : s.ops[i]? = some o) (ha : o.admitting = true) :
    ¬(s.shut = true ∨ ∃ (j : Nat) (o' : Op), s.ops[j]? = some o' ∧ o'.shutting = true) := by
  intro h
  rcases h with h | ⟨j, o', hj, hs⟩
  · have he := I.admitting i o hi ha
    rw [I.disabled h] at he
    cases he
  · have hij := I.alone hi (holdsLock_of_admitting ha) hj (holdsLock_of_shutting hs)
    subst hij
    rw [hi] at hj
    cases hj
    cases o with
    | send f pc => cases hs
    | setThru e pc => cases ha

theorem OpInv.push {f : MidiFrame} {r : Nat} (I : OpInv s)
    (hi : s.ops[i]? = some (.send f (.trySend r))) :
    OpInv { s.setOp i (.send f .unlock) with queue := s.queue ++ [⟨f, f.generation, r⟩] } := by
  have hown := I.owner i _ hi rfl
  have hno := I.not_shut hi rfl
  have hwait : ∀ g ∈ s.queue ++ [⟨f, f.generation, r⟩] ++
      (s.task.pending.toList ++ (hand s.task.pc ++ unreleased s.wire)),
      g ∈ s.waiting ∨ g = ⟨f, f.generation, r⟩ := by
    intro g hg
    rcases List.mem_append.mp hg with hg | hg
    · rcases List.mem_append.mp hg with hg | hg
      · exact .inl (List.mem_append_left _ hg)
      · exact .inr (List.mem_singleton.mp hg)
    · exact .inl (List.mem_append_right _ hg)
  refine ⟨fun j o hj hl => ?_, fun j o hj ha => ?_, fun j g r' hj => ?_, I.disabled,
    fun g hg => ?_, fun hs => ?_⟩
  · rcases getElem?_set_cases hj with ⟨rfl, rfl⟩ | ⟨hne, hj⟩
    · exact hown
    · exact I.owner j o hj hl
  · rcases getElem?_set_cases hj with ⟨rfl, rfl⟩ | ⟨hne, hj⟩
    · cases ha
    · exact I.admitting j o hj ha
  · rcases getElem?_set_cases hj with ⟨rfl, he⟩ | ⟨hne, hj⟩
    · cases he
    · exact I.read j g r' hj
  · rcases hwait g hg with hg | rfl
    · exact I.waiting_le g hg
    · exact I.read i f r hi
  · refine absurd ?_ hno
    rcases hs with hs | ⟨j, o, hj, hs⟩
    · exact .inl hs
    · rcases getElem?_set_cases hj with ⟨rfl, rfl⟩ | ⟨hne, hj⟩
      · cases hs
      · exact .inr ⟨j, o, hj, hs⟩

theorem OpInv.store {e requested : Bool} (I : OpInv s)
    (hi : s.ops[i]? = some (.setThru e (.store requested))) :
    OpInv { s.setOp i (.setThru e .unlock) with
      enabled := e, shut := !e && (s.shut || requested) } := by
  have hown := I.owner i _ hi rfl
  refine ⟨fun j o hj hl => ?_, fun j o hj ha => ?_, fun j g r' hj => ?_, fun hs => ?_,
    I.waiting_le, fun hs => I.old ?_⟩
  · rcases getElem?_set_cases hj with ⟨rfl, rfl⟩ | ⟨hne, hj⟩
    · exact hown
    · exact I.owner j o hj hl
  · rcases getElem?_set_cases hj with ⟨rfl, rfl⟩ | ⟨hne, hj⟩
    · cases ha
    · exact absurd (I.alone hi rfl hj (holdsLock_of_admitting ha)) hne
  · rcases getElem?_set_cases hj with ⟨rfl, he⟩ | ⟨hne, hj⟩
    · cases he
    · exact I.read j g r' hj
  · have hs' : (!e && (s.shut || requested)) = true := hs
    simp only [Bool.and_eq_true, Bool.not_eq_true'] at hs'
    exact hs'.1
  · rcases hs with hs | ⟨j, o, hj, hs⟩
    · have hs' : (!e && (s.shut || requested)) = true := hs
      simp only [Bool.and_eq_true, Bool.or_eq_true] at hs'
      rcases hs'.2 with h | h
      · exact .inl h
      · exact .inr ⟨i, _, hi, by rw [h]; rfl⟩
    · rcases getElem?_set_cases hj with ⟨rfl, rfl⟩ | ⟨hne, hj⟩
      · cases hs
      · exact .inr ⟨j, o, hj, hs⟩

theorem opInv_send {f : MidiFrame} {ok : Bool} {pc : SendPc} (I : OpInv s)
    (hi : s.ops[i]? = some (.send f pc)) (h : sendStep s i f ok pc = some s') : OpInv s' := by
  have hle := Nat.le_refl s.routeGeneration
  have hown := I.owner i _ hi
  have hadm := I.admitting i _ hi
  have hkeep : ∀ (j : Nat), j ≠ i → s.lock = some j → s.lock = some j := fun _ _ h => h
  cases pc with
  | lock =>
    simp only [sendStep] at h
    split at h
    · rename_i hfree
      cases h
      refine I.moveIdle hi hle (fun _ => rfl) (fun j _ hj => ?_) rfl rfl
      rw [hfree] at hj
      cases hj
    · cases h
  | enabled =>
    cases h
    by_cases he : s.enabled = true
    · rw [if_pos he]
      exact I.moveOp hi hle (fun _ => hown rfl) hkeep (fun _ => he) (fun _ _ h => by cases h)
        fun h => by cases h
    · rw [if_neg he]
      exact I.moveIdle hi hle (fun _ => hown rfl) hkeep rfl rfl
  | sender =>
    cases h
    split
    · exact I.moveOp hi hle (fun _ => hown rfl) hkeep (fun _ => hadm rfl)
        (fun _ _ h => by cases h) fun h => by cases h
    · exact I.moveIdle hi hle (fun _ => hown rfl) hkeep rfl rfl
  | copy =>
    cases h
    split
    · exact I.moveOp hi hle (fun _ => hown rfl) hkeep (fun _ => hadm rfl)
        (fun _ _ h => by cases h) fun h => by cases h
    · split
      · exact I.moveIdle hi hle (fun _ => hown rfl) hkeep rfl rfl
      · exact I.moveIdle hi hle (fun _ => hown rfl) hkeep rfl rfl
  | stamp =>
    cases h
    refine I.moveOp hi hle (fun _ => hown rfl) hkeep (fun _ => hadm rfl) (fun f' r he => ?_)
      fun h => by cases h
    cases he
    exact hle
  | trySend r =>
    simp only [sendStep] at h
    split at h
    · cases h
      exact I.push hi
    · cases h
      split
      · exact I.moveIdle hi hle (fun _ => hown rfl) hkeep rfl rfl
      · exact I.moveIdle hi hle (fun _ => hown rfl) hkeep rfl rfl
  | requestReset =>
    cases h
    exact I.moveIdle hi (Nat.le_succ _) (fun _ => hown rfl) hkeep rfl rfl
  | unlock =>
    cases h
    refine I.moveIdle hi hle (fun hl => by cases hl) (fun j hne hj => ?_) rfl rfl
    rw [hown rfl] at hj
    exact absurd (Option.some.inj hj).symm hne
  | done => cases h

theorem opInv_thru {e : Bool} {pc : ThruPc} (I : OpInv s)
    (hi : s.ops[i]? = some (.setThru e pc)) (h : thruStep s i e pc = some s') : OpInv s' := by
  have hle := Nat.le_refl s.routeGeneration
  have hown := I.owner i _ hi
  have hkeep : ∀ (j : Nat), j ≠ i → s.lock = some j → s.lock = some j := fun _ _ h => h
  cases pc with
  | lock =>
    simp only [thruStep] at h
    split at h
    · rename_i hfree
      cases h
      refine I.moveIdle hi hle (fun _ => rfl) (fun j _ hj => ?_) rfl rfl
      rw [hfree] at hj
      cases hj
    · cases h
  | read =>
    cases h
    split
    · exact I.moveIdle hi hle (fun _ => hown rfl) hkeep rfl rfl
    · exact I.moveIdle hi hle (fun _ => hown rfl) hkeep rfl rfl
  | sender =>
    cases h
    split
    · exact I.moveIdle hi hle (fun _ => hown rfl) hkeep rfl rfl
    · exact I.moveIdle hi hle (fun _ => hown rfl) hkeep rfl rfl
  | requestReset =>
    cases h
    exact I.moveOp hi (Nat.le_succ _) (fun _ => hown rfl) hkeep (fun h => by cases h)
      (fun _ _ h => by cases h) fun _ f hf => Nat.lt_succ_of_le (I.waiting_le f hf)
  | store requested =>
    cases h
    exact I.store hi
  | unlock =>
    cases h
    refine I.moveIdle hi hle (fun hl => by cases hl) (fun j hne hj => ?_) rfl rfl
    rw [hown rfl] at hj
    exact absurd (Option.some.inj hj).symm hne
  | done => cases h

/-- A call comes in. -/
theorem OpInv.enter {o : Op} (I : OpInv s) (hl : o.holdsLock = false) :
    OpInv { s with ops := s.ops ++ [o] } := by
  have hadm : o.admitting = false := by
    by_contra ha
    rw [holdsLock_of_admitting (Bool.not_eq_false _ ▸ ha)] at hl
    cases hl
  have hshut : o.shutting = false := by
    by_contra ha
    rw [holdsLock_of_shutting (Bool.not_eq_false _ ▸ ha)] at hl
    cases hl
  refine ⟨fun j o' hj hl' => ?_, fun j o' hj ha => ?_, fun j f r hj => ?_, I.disabled,
    I.waiting_le, fun hs => I.old ?_⟩
  · rcases getElem?_concat_cases hj with ⟨-, rfl⟩ | hj
    · rw [hl] at hl'
      cases hl'
    · exact I.owner j o' hj hl'
  · rcases getElem?_concat_cases hj with ⟨-, rfl⟩ | hj
    · rw [hadm] at ha
      cases ha
    · exact I.admitting j o' hj ha
  · rcases getElem?_concat_cases hj with ⟨-, he⟩ | hj
    · rw [← he] at hl
      cases hl
    · exact I.read j f r hj
  · rcases hs with hs | ⟨j, o', hj, hs⟩
    · exact .inl hs
    · rcases getElem?_concat_cases hj with ⟨-, rfl⟩ | hj
      · rw [hshut] at hs
        cases hs
      · exact .inr ⟨j, o', hj, hs⟩

/-- What a step of the task leaves to the calls. -/
structure Apart (s s' : St) : Prop where
  ops : s'.ops = s.ops
  lock : s'.lock = s.lock
  enabled : s'.enabled = s.enabled
  shut : s'.shut = s.shut
  routeGeneration : s.routeGeneration ≤ s'.routeGeneration
  waiting : ∀ f ∈ s'.waiting, f ∈ s.waiting

/-- The task moves frames on or drops them. -/
theorem Moves.apart (h : Moves s s') : Apart s s' := by
  have hle := Nat.le_refl s.routeGeneration
  have hmem : ∀ f, f ∈ s.waiting ↔ f ∈ s.queue ∨ f ∈ s.task.pending.toList ∨
      f ∈ hand s.task.pc ∨ f ∈ unreleased s.wire := by simp [St.waiting]
  -- the queue, the frame put back and the wire stay; at most the hand is emptied
  have hdrop : ∀ pc, (hand pc = [] ∨ hand pc = hand s.task.pc) → ∀ f ∈ s.queue ++
      (s.task.pending.toList ++ (hand pc ++ unreleased s.wire)), f ∈ s.waiting := by
    intro pc hh f hf
    simp only [List.mem_append] at hf
    rw [hmem]
    rcases hf with h | h | h | h
    · exact .inl h
    · exact .inr (.inl h)
    · rcases hh with hh | hh
      · rw [hh] at h
        cases h
      · exact .inr (.inr (.inl (hh ▸ h)))
    · exact .inr (.inr (.inr h))
  cases h with
  | go pc hgo =>
    refine ⟨rfl, rfl, rfl, rfl, hle, hdrop pc ?_⟩
    generalize s.task.pc = p at hgo
    cases hgo with
    | compare _ | ready _ _ _ _ => exact .inr rfl
    | _ => exact .inl rfl
  | start hpc | startRoute hpc | observeRoute hpc | observeGeneration hpc =>
    exact ⟨rfl, rfl, rfl, rfl, hle, hdrop _ (.inl rfl)⟩
  | request hpc => exact ⟨rfl, rfl, rfl, rfl, Nat.le_succ _, hdrop _ (.inl rfl)⟩
  | panicked hpc =>
    refine ⟨rfl, rfl, rfl, rfl, hle, fun f hf => (hmem f).mpr ?_⟩
    have hf' : f ∈ s.queue ++ (s.task.pending.toList ++ ([] ++
      unreleased (s.wire ++ [.panic s.task.handled true]))) := hf
    rw [unreleased_panic] at hf'
    simp only [if_true, List.append_nil, List.mem_append] at hf'
    exact hf'.imp_right .inl
  | panicFailed hpc =>
    refine ⟨rfl, rfl, rfl, rfl, hle, fun f hf => hdrop .panicFailed (.inl rfl) f ?_⟩
    have hf' : f ∈ s.queue ++ (s.task.pending.toList ++ (hand .panicFailed ++
      unreleased (s.wire ++ [.panic s.task.handled false]))) := hf
    rw [unreleased_panic] at hf'
    exact hf'
  | lastPanic ok hpc _ =>
    refine ⟨rfl, rfl, rfl, rfl, hle, fun f hf => hdrop .done (.inl rfl) f ?_⟩
    have hf' : f ∈ s.queue ++ (s.task.pending.toList ++ (hand .done ++
      unreleased (s.wire ++ [.panic s.task.handled ok]))) := hf
    rw [unreleased_panic] at hf'
    cases ok with
    | true =>
      simp only [if_true, List.append_nil, List.mem_append] at hf' ⊢
      exact hf'.imp_right (·.imp_right .inl)
    | false => exact hf'
  | transmit f hpc =>
    refine ⟨rfl, rfl, rfl, rfl, hle, fun g hg => (hmem g).mpr ?_⟩
    have hg' : g ∈ s.queue ++ (s.task.pending.toList ++ ([] ++
      unreleased (s.wire ++ [.frame f]))) := hg
    rw [unreleased_frame] at hg'
    rw [hpc]
    simp only [List.nil_append, List.mem_append] at hg'
    exact hg'.imp_right (·.imp_right Or.symm)
  | takePending f hpc _ hp =>
    refine ⟨rfl, rfl, rfl, rfl, hle, fun g hg => (hmem g).mpr ?_⟩
    have hg' : g ∈ s.queue ++ ([] ++ ([f] ++ unreleased s.wire)) := hg
    rw [hp]
    simp only [List.nil_append, List.mem_append] at hg'
    exact hg'.imp_right (·.imp_right .inr)
  | takeQueue f queue hpc _ hq =>
    refine ⟨rfl, rfl, rfl, rfl, hle, fun g hg => (hmem g).mpr ?_⟩
    have hg' : g ∈ queue ++ (s.task.pending.toList ++ ([f] ++ unreleased s.wire)) := hg
    rw [hq]
    simp only [List.mem_append] at hg'
    rcases hg' with h | h | h | h
    · exact .inl (List.mem_cons_of_mem _ h)
    · exact .inr (.inl h)
    · exact .inl (List.mem_singleton.mp h ▸ List.mem_cons_self)
    · exact .inr (.inr (.inr h))
  | defer f g hpc =>
    refine ⟨rfl, rfl, rfl, rfl, hle, fun g' hg => (hmem g').mpr ?_⟩
    have hg' : g' ∈ s.queue ++ ([f] ++ ([] ++ unreleased s.wire)) := hg
    rw [hpc]
    simp only [List.nil_append, List.mem_append] at hg'
    exact hg'.imp_right (·.elim (fun h => .inr (.inl h)) fun h => .inr (.inr h))

theorem OpInv.moves (I : OpInv s) (h : Moves s s') : OpInv s' := by
  obtain ⟨ho, hl, he, hs, hr, hw⟩ := h.apart
  refine ⟨?_, ?_, ?_, ?_, fun f hf => Nat.le_trans (I.waiting_le f (hw f hf)) hr, ?_⟩
  · rw [ho, hl]
    exact I.owner
  · rw [ho, he]
    exact I.admitting
  · rw [ho]
    exact fun i f r hi => Nat.le_trans (I.read i f r hi) hr
  · rw [hs, he]
    exact I.disabled
  · rw [ho, hs]
    exact fun h f hf => Nat.lt_of_lt_of_le (I.old h f (hw f hf)) hr

theorem opInv_step {l : Lbl} (I : OpInv s) (h : step s l = some s') : OpInv s' := by
  cases l with
  | task c => exact I.moves (moves h)
  | op i ok =>
    obtain ⟨o, hi, h⟩ := Option.bind_eq_some_iff.mp h
    cases o with
    | send f pc => exact opInv_send I hi h
    | setThru e pc => exact opInv_thru I hi h
  | submit f =>
    cases h
    refine I.enter ?_
    split <;> rfl
  | setThru e =>
    cases h
    exact I.enter rfl
  | setRoute _ | reset | stop | hangUp =>
    cases h
    exact ⟨I.owner, I.admitting, I.read, I.disabled, I.waiting_le, I.old⟩

theorem opInv_inductive : system.Inductive OpInv where
  init s h := by
    have h0 : s = init := h
    rw [h0]
    exact opInv_init
  step _ _ _ I h := opInv_step I h

def St.transmitted (s : St) : Nat := s.wire.countP fun e => !e.isPanic

/-- A frame the task has compared and not yet sent. -/
def St.atReady (s : St) : Nat :=
  match s.task.pc with
  | .ready _ => 1
  | _ => 0

/-- While thru is disabled only a frame that was compared before goes out. -/
theorem shut_step {l : Lbl} (I : OpInv s) (hs : s.shut = true) (h : step s l = some s') :
    s'.transmitted + s'.atReady ≤ s.transmitted + s.atReady := by
  rcases step_cases h with ⟨-, ho⟩ | ⟨-, hm⟩
  · unfold St.transmitted St.atReady
    rw [ho.wire, ho.task]
  · cases hm with
    | go pc hgo =>
      have hold := I.old (.inl hs)
      refine Nat.add_le_add_left ?_ _
      unfold St.atReady
      generalize hp : s.task.pc = p at hgo
      cases hgo with
      | ready f g he hh =>
        have hmem : f ∈ s.waiting := by
          unfold St.waiting
          rw [hp]
          simp [hand]
        have hlt := hold f hmem
        have hr : f.routeGeneration = s.routeGeneration := congrArg Prod.snd (he.trans hh)
        omega
      | _ => exact Nat.zero_le _
    | transmit f hpc =>
      simp only [St.transmitted, St.atReady, St.setTask, hpc, countP_concat]
      exact Nat.le_refl _
    | panicked hpc | panicFailed hpc | lastPanic ok hpc _ =>
      simp only [St.transmitted, St.atReady, St.setTask, hpc, countP_concat]
      exact Nat.le_refl _
    | start hpc | startRoute hpc | observeRoute hpc | observeGeneration hpc | takePending f hpc _ _
    | takeQueue f queue hpc _ _ | defer f g hpc | request hpc =>
      simp only [St.transmitted, St.atReady, St.setTask, hpc]
      exact Nat.le_refl _

theorem shut_run {s s' : St} {ls : List Lbl}
    (hr : (system.restrict fun s _ => s.shut = true).Run s ls s') :
    OpInv s → s'.transmitted + s'.atReady ≤ s.transmitted + s.atReady := by
  induction hr with
  | nil s => exact fun _ => Nat.le_refl _
  | cons hst _ ih =>
    exact fun I => Nat.le_trans (ih (opInv_step I hst.2)) (shut_step I hst.1 hst.2)

/-- Once thru is disabled, what has gone out is owed a panic. -/
theorem Owing.of_shut (T : TaskInv s) (I : OpInv s) (hs : s.shut = true)
    (hf : unreleased s.wire ≠ []) (hd : s.task.pc ≠ .done) : Owing s := by
  refine ⟨hf, hd, ?_⟩
  obtain ⟨f, hmem⟩ := List.exists_mem_of_ne_nil _ hf
  have hlt : f.routeGeneration < s.routeGeneration := by
    refine I.old (.inl hs) f ?_
    unfold St.waiting
    simp [hmem]
  by_cases hobs : s.task.pc = .observeGeneration
  · exact .inr (.inr (.inr hobs))
  · cases hrp : s.task.resetPending with
    | true => exact .inr (.inr (.inl rfl))
    | false =>
      have he : f.routeGeneration = s.task.routeGeneration :=
        congrArg Prod.snd (T.since hobs hrp f hmem)
      exact .inr (.inl (he ▸ hlt))

/-- A panic that failed is still owing. -/
theorem Owing.of_failed (T : TaskInv s) (hpc : s.task.pc = .panicFailed) : Owing s := by
  have hrp := T.retrying (by rw [hpc]; rfl)
  have hd : s.task.pc ≠ .done := by
    rw [hpc]
    nofun
  exact ⟨(T.used_iff hd).mp (T.pending_used hrp), hd, .inr (.inr (.inl hrp))⟩

/-! ## The output -/

/-- A frame is never sent after a panic for generations newer than its own, and
only after frames of its own generations or a panic that answers them. When a
generation moves, or thru is disabled, after frames were sent, the panic is
tried within 14 steps of the task, again after a failure, and at the latest
when the task ends, which a stop brings about within 15 of its steps. While
thru is disabled nothing goes out but a frame that was compared before. -/
theorem rtp_output {s : St} (hr : system.Reachable s) :
    AtEach AfterPanic s.wire ∧ AtEach SamePeriod s.wire ∧
    (unreleased s.wire ≠ [] → s.task.pc ≠ .done →
      (s.task.generation < s.generation ∨ s.task.routeGeneration < s.routeGeneration ∨
        s.shut = true ∨ s.task.pc = .panicFailed) →
      ∀ ls s', system.Run s ls s' → 14 ≤ ls.countP Lbl.isTask →
        ∃ l, s'.wire = s.wire ++ l ∧ ∃ e ∈ l, e.isPanic = true) ∧
    (s.task.pc = .done → unanswered s.wire = []) ∧
    (s.stopSent = true → ∀ ls s', system.Run s ls s' → ls.countP Lbl.isTask ≤ 15) ∧
    (s.task.pc ≠ .done → ∃ c s', taskStep s c = some s') ∧
    ∀ ls s', (system.restrict fun s _ => s.shut = true).Run s ls s' →
      s'.transmitted ≤ s.transmitted + s.atReady := by
  have T := taskInv_inductive.reachable s hr
  have I := opInv_inductive.reachable s hr
  refine ⟨T.after, T.period, fun hf hd hcause ls s' hrun hn => ?_, T.answered,
    fun hs ls s' hrun => ?_, task_goes_on, fun ls s' hrun => ?_⟩
  · have ho : Owing s := by
      rcases hcause with h | h | h | h
      · exact ⟨hf, hd, .inl h⟩
      · exact ⟨hf, hd, .inr (.inl h)⟩
      · exact .of_shut T I h hf hd
      · exact .of_failed T h
    exact ho.run hrun T (Nat.le_trans (rank_le s) hn)
  · have h := left_run hrun hs
    have hle := left_le s
    omega
  · exact Nat.le_trans (Nat.le_add_right _ _) (shut_run hrun I)

def noteOn (generation : Nat) : MidiFrame := ⟨generation, "Keyboard", [0x90, 60, 100]⟩

/-- The first call is done with its frame, and the task has compared it. -/
def compareFirst : List Lbl :=
  .setRoute true :: .submit (noteOn 0) :: List.replicate 7 (.op 0 true) ++
    List.replicate 5 (.task .next) ++ [.task .frame, .task .next, .task .next]

/-- The second frame, of the next generation, is sent after a panic. -/
def sendSecond : List Lbl :=
  [.task .next, .task (.result true), .reset, .submit (noteOn 1)] ++ List.replicate 7 (.op 1 true) ++
    List.replicate 4 (.task .next) ++ [.task (.result true), .task .frame] ++
    List.replicate 3 (.task .next)

/-- Two frames of two generations, and the panic between them. -/
theorem panic_between : ∃ s, system.Reachable s ∧
    s.wire = [.frame ⟨noteOn 0, 0, 0⟩, .panic (1, 0) true, .frame ⟨noteOn 1, 1, 0⟩] ∧
    AtEach AfterPanic s.wire ∧ AtEach SamePeriod s.wire := by
  have hrun : ∃ s, system.Reachable s ∧ decide (s.wire =
      [.frame ⟨noteOn 0, 0, 0⟩, .panic (1, 0) true, .frame ⟨noteOn 1, 1, 0⟩]) = true :=
    LTS.reachable_of_any (compareFirst ++ sendSecond) rfl (by decide +kernel)
  obtain ⟨s, hr, hs⟩ := hrun
  obtain ⟨ha, hp, -⟩ := rtp_output hr
  exact ⟨s, hr, of_decide_eq_true hs, ha, hp⟩

/-- A frame that was compared before thru was disabled goes out after it. -/
theorem sent_while_shut : ∃ s s', system.Reachable s ∧ s.enabled = false ∧ s.shut = true ∧
    s.lock = none ∧ step s (.task .next) = some s' ∧ s.wire = [] ∧
    s'.wire = [.frame ⟨noteOn 0, 0, 0⟩] := by
  have hrun : ∃ s, system.Reachable s ∧ decide (s.enabled = false ∧ s.shut = true ∧
      s.lock = none ∧ s.wire = [] ∧ (taskStep s .next).any (fun s' =>
        s'.wire = [.frame ⟨noteOn 0, 0, 0⟩]) = true) = true :=
    LTS.reachable_of_any (compareFirst ++ .setThru false :: List.replicate 6 (.op 1 true)) rfl
      (by decide +kernel)
  obtain ⟨s, hr, hs⟩ := hrun
  obtain ⟨he, hsh, hl, hw, hany⟩ := of_decide_eq_true hs
  obtain ⟨s', hs', hw'⟩ := (Option.any_eq_true _ _).mp hany
  exact ⟨s, s', hr, he, hsh, hl, hs', hw, of_decide_eq_true hw'⟩

end RtpOscMidi.L5.RtpOutput
