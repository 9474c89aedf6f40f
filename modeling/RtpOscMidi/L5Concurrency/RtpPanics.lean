import RtpOscMidi.L5Concurrency.RtpOutput

/-!
# The panics of the RTP output

What the task has sent is answered by a panic before anything newer goes out
(`TaskInv`); a panic that is owing is tried within `rank` steps of the task,
and a stop ends it within `left`.
-/
namespace RtpOscMidi.L5.RtpOutput

open Core L1.MidiMessage L2.MidiQueue

variable {s s' : St} {i : Nat}

/-! ## Frames and panics -/

def Event.stamp : Event → Nat × Nat
  | .frame f => f.stamp
  | .panic handled _ => handled

/-- Where no reset can be owing. -/
def Pc.settled : Pc → Bool
  | .start | .startRoute | .select | .taken _ | .compared _ _ | .ready _ | .sending
  | .sendFailed => true
  | _ => false

/-- Where a panic is being tried. -/
def Pc.retrying : Pc → Bool
  | .panicking | .panicFailed => true
  | _ => false

/-- What is sent after a panic is not older than it. -/
def AfterPanic (w : List Event) : Event → Prop
  | .frame f => ∀ h ok, .panic h ok ∈ w → h.1 ≤ f.generation ∧ h.2 ≤ f.routeGeneration
  | .panic _ _ => True

/-- A frame follows only frames of its own generations, or a panic after them. -/
def SamePeriod (w : List Event) : Event → Prop
  | .frame f => ∀ f' ∈ unreleased w, f'.stamp = f.stamp
  | .panic _ _ => True

structure TaskInv (s : St) : Prop where
  generation_le : s.task.generation ≤ s.generation
  route_le : s.task.routeGeneration ≤ s.routeGeneration
  begun : s.task.pc = .start ∨ s.task.pc = .startRoute → s.wire = [] ∧ s.task.used = false
  ready_stamp : ∀ f, s.task.pc = .ready f → f.stamp = s.task.handled
  wire_le : ∀ e ∈ s.wire, e.stamp.1 ≤ s.task.generation ∧ e.stamp.2 ≤ s.task.routeGeneration
  settled : s.task.pc.settled = true → s.task.resetPending = false
  used_iff : s.task.pc ≠ .done → (s.task.used = true ↔ unreleased s.wire ≠ [])
  since : s.task.pc ≠ .observeGeneration → s.task.resetPending = false →
    ∀ f ∈ unreleased s.wire, f.stamp = s.task.handled
  after : AtEach AfterPanic s.wire
  period : AtEach SamePeriod s.wire
  answered : s.task.pc = .done → unanswered s.wire = []
  pending_used : s.task.resetPending = true → s.task.used = true
  retrying : s.task.pc.retrying = true → s.task.resetPending = true

theorem taskInv_init : TaskInv init where
  generation_le := Nat.le_refl 0
  route_le := Nat.le_refl 0
  begun _ := ⟨rfl, rfl⟩
  ready_stamp f h := by cases h
  wire_le e h := by cases h
  settled _ := rfl
  used_iff _ := by simp [init, unreleased, framesSince]
  since _ _ f h := by cases h
  after := atEach_nil _
  period := atEach_nil _
  answered h := by cases h
  pending_used h := by cases h
  retrying h := by cases h

theorem TaskInv.others (I : TaskInv s) (h : Others s s') : TaskInv s' := by
  obtain ⟨ht, hw, hg, hr, -⟩ := h
  refine ⟨?_, ?_, ?_, ?_, ?_, ?_, ?_, ?_, ?_, ?_, ?_, ?_, ?_⟩
  · rw [ht]
    exact Nat.le_trans I.generation_le hg
  · rw [ht]
    exact Nat.le_trans I.route_le hr
  · rw [ht, hw]
    exact I.begun
  · rw [ht]
    exact I.ready_stamp
  · rw [ht, hw]
    exact I.wire_le
  · rw [ht]
    exact I.settled
  · rw [ht, hw]
    exact I.used_iff
  · rw [ht, hw]
    exact I.since
  · rw [hw]
    exact I.after
  · rw [hw]
    exact I.period
  · rw [ht, hw]
    exact I.answered
  · rw [ht]
    exact I.pending_used
  · rw [ht]
    exact I.retrying

/-- Only the place of the task and what it waits with move. -/
theorem TaskInv.go {pc : Pc} {pending : Option OutgoingFrame} {queue : List OutgoingFrame} {r : Nat}
    (I : TaskInv s) (hr : s.routeGeneration ≤ r) (hpc : s.task.pc ≠ .done)
    (hobs : s.task.pc ≠ .observeGeneration) (hbegun : pc ≠ .start ∧ pc ≠ .startRoute)
    (hready : ∀ f, pc = .ready f → f.stamp = s.task.handled)
    (hsettled : pc.settled = true → s.task.resetPending = false)
    (hretry : pc.retrying = true → s.task.resetPending = true)
    (hdone : pc = .done → s.task.used = false) :
    TaskInv { s with
      task := { s.task with pc, pending }, queue, routeGeneration := r } := by
  refine ⟨I.generation_le, Nat.le_trans I.route_le hr, ?_, hready, I.wire_le, hsettled,
    fun _ => I.used_iff hpc, fun _ => I.since hobs, I.after, I.period, fun hd => ?_,
    I.pending_used, hretry⟩
  · intro h
    rcases h with h | h
    · exact absurd h hbegun.1
    · exact absurd h hbegun.2
  · refine unanswered_of_unreleased ?_
    by_contra hne
    have hu := (I.used_iff hpc).mpr hne
    rw [hdone hd] at hu
    cases hu

/-- The task takes note of generations; `hsince`: nothing of the old ones is
unanswered, or it will be known. -/
theorem TaskInv.observe {g r : Nat} {pc : Pc} {resetPending : Bool} (I : TaskInv s)
    (hg : s.task.generation ≤ g) (hgle : g ≤ s.generation) (hr : s.task.routeGeneration ≤ r)
    (hrle : r ≤ s.routeGeneration) (hpc : s.task.pc ≠ .done) (hready : ∀ f, pc ≠ .ready f)
    (hdone : pc ≠ .done)
    (hbegun : pc = .start ∨ pc = .startRoute → s.wire = [] ∧ s.task.used = false)
    (hsettled : pc.settled = true → resetPending = false)
    (hused : resetPending = true → s.task.used = true) (hretry : pc.retrying = false)
    (hsince : pc ≠ .observeGeneration → resetPending = false → unreleased s.wire = []) :
    TaskInv { s with task := { s.task with
      generation := g, routeGeneration := r, resetPending, pc } } := by
  refine ⟨hgle, hrle, hbegun, fun f h => absurd h (hready f), fun e he => ?_, hsettled,
    fun _ => I.used_iff hpc, fun hobs hrp f hf => ?_, I.after, I.period, fun h => absurd h hdone,
    hused, fun h => ?_⟩
  · obtain ⟨h1, h2⟩ := I.wire_le e he
    exact ⟨Nat.le_trans h1 hg, Nat.le_trans h2 hr⟩
  · have hf' : f ∈ unreleased s.wire := hf
    rw [hsince hobs hrp] at hf'
    cases hf'
  · rw [hretry] at h
    cases h

theorem TaskInv.moves (I : TaskInv s) (h : Moves s s') : TaskInv s' := by
  have hle := Nat.le_refl s.routeGeneration
  have hwire : ∀ ok, ∀ e ∈ s.wire ++ [Event.panic s.task.handled ok],
      e.stamp.1 ≤ s.task.generation ∧ e.stamp.2 ≤ s.task.routeGeneration := by
    intro ok e he
    rcases List.mem_append.mp he with he | he
    · exact I.wire_le e he
    · rw [List.mem_singleton.mp he]
      exact ⟨Nat.le_refl _, Nat.le_refl _⟩
  cases h with
  | go pc hgo =>
    generalize hp : s.task.pc = p at hgo
    have hst := I.settled
    rw [hp] at hst
    cases hgo with
    | sameGeneration _ | newGeneration _ | sameRoute _ | newRoute _ | stopRetry _ | retry _
    | stop _ | tick _ | hungUp _ | discard _ _ | sent =>
      exact I.go hle (by rw [hp]; nofun) (by rw [hp]; nofun) ⟨nofun, nofun⟩ nofun nofun nofun nofun
    | owing hr =>
      exact I.go hle (by rw [hp]; nofun) (by rw [hp]; nofun) ⟨nofun, nofun⟩ nofun nofun
        (fun _ => hr) nofun
    | settled hr =>
      exact I.go hle (by rw [hp]; nofun) (by rw [hp]; nofun) ⟨nofun, nofun⟩ nofun
        (fun _ => hr) nofun nofun
    | compare f =>
      exact I.go hle (by rw [hp]; nofun) (by rw [hp]; nofun) ⟨nofun, nofun⟩ nofun
        (fun _ => hst rfl) nofun nofun
    | ready f g he hh =>
      refine I.go hle (by rw [hp]; nofun) (by rw [hp]; nofun) ⟨nofun, nofun⟩ (fun f' hf => ?_)
        (fun _ => hst rfl) nofun nofun
      cases hf
      exact he
    | failed =>
      exact I.go hle (by rw [hp]; nofun) (by rw [hp]; nofun) ⟨nofun, nofun⟩ nofun
        (fun _ => hst rfl) nofun nofun
    | finish hu =>
      exact I.go hle (by rw [hp]; nofun) (by rw [hp]; nofun) ⟨nofun, nofun⟩ nofun nofun nofun
        fun _ => hu
  | start hpc =>
    obtain ⟨hw, hu⟩ := I.begun (.inl hpc)
    have hr := I.settled (by rw [hpc]; rfl)
    exact I.observe I.generation_le (Nat.le_refl _) (Nat.le_refl _) I.route_le (by rw [hpc]; nofun)
      nofun nofun (fun _ => ⟨hw, hu⟩) (fun _ => hr) I.pending_used rfl fun _ _ => by rw [hw]; rfl
  | startRoute hpc =>
    obtain ⟨hw, hu⟩ := I.begun (.inr hpc)
    exact I.observe (Nat.le_refl _) I.generation_le I.route_le hle (by rw [hpc]; nofun)
      nofun nofun nofun nofun I.pending_used rfl fun _ _ => by rw [hw]; rfl
  | observeRoute hpc =>
    exact I.observe (Nat.le_refl _) I.generation_le I.route_le hle (by rw [hpc]; nofun)
      nofun nofun nofun nofun I.pending_used rfl fun h _ => absurd rfl h
  | observeGeneration hpc =>
    refine I.observe I.generation_le (Nat.le_refl _) (Nat.le_refl _) I.route_le (by rw [hpc]; nofun)
      nofun nofun nofun nofun (fun h => ?_) rfl fun _ hr => ?_
    · exact ((Bool.or_eq_true _ _).mp h).elim I.pending_used id
    · have hu := (Bool.or_eq_false_iff.mp hr).2
      by_contra hne
      rw [(I.used_iff (by rw [hpc]; nofun)).mpr hne] at hu
      cases hu
  | panicked hpc =>
    have hun : unreleased (s.wire ++ [.panic s.task.handled true]) = [] := unreleased_panic _ _ true
    refine ⟨I.generation_le, I.route_le, nofun, nofun, hwire true, fun _ => rfl, fun _ => ?_,
      fun _ _ f hf => ?_, I.after.concat trivial, I.period.concat trivial, nofun, nofun, nofun⟩
    · show false = true ↔ unreleased (s.wire ++ [.panic s.task.handled true]) ≠ []
      rw [hun]
      simp
    · have hf' : f ∈ unreleased (s.wire ++ [.panic s.task.handled true]) := hf
      rw [hun] at hf'
      cases hf'
  | panicFailed hpc =>
    have hun : unreleased (s.wire ++ [.panic s.task.handled false]) = unreleased s.wire :=
      unreleased_panic _ _ false
    refine ⟨I.generation_le, I.route_le, nofun, nofun, hwire false, nofun, fun _ => ?_,
      fun _ => ?_, I.after.concat trivial, I.period.concat trivial, nofun, I.pending_used,
      fun _ => I.retrying (by rw [hpc]; rfl)⟩
    · show s.task.used = true ↔ unreleased (s.wire ++ [.panic s.task.handled false]) ≠ []
      rw [hun]
      exact I.used_iff (by rw [hpc]; nofun)
    · show s.task.resetPending = false → ∀ f ∈ unreleased (s.wire ++ [.panic s.task.handled false]), _
      rw [hun]
      exact I.since (by rw [hpc]; nofun)
  | takePending f hpc hs hp =>
    have hst := I.settled (by rw [hpc]; rfl)
    exact I.go hle (by rw [hpc]; nofun) (by rw [hpc]; nofun) ⟨nofun, nofun⟩ nofun
      (fun _ => hst) nofun nofun
  | takeQueue f queue hpc hs hq =>
    have hst := I.settled (by rw [hpc]; rfl)
    exact I.go hle (by rw [hpc]; nofun) (by rw [hpc]; nofun) ⟨nofun, nofun⟩ nofun
      (fun _ => hst) nofun nofun
  | defer f g hpc =>
    exact I.go hle (by rw [hpc]; nofun) (by rw [hpc]; nofun) ⟨nofun, nofun⟩ nofun nofun nofun
      nofun
  | transmit f hpc =>
    have hstamp := I.ready_stamp f hpc
    have hr := I.settled (by rw [hpc]; rfl)
    have hsince := I.since (by rw [hpc]; nofun) hr
    have hun := unreleased_frame s.wire f
    refine ⟨I.generation_le, I.route_le, nofun, nofun, fun e he => ?_, fun _ => hr, fun _ => ?_,
      fun _ _ f' hf => ?_, I.after.concat fun h ok hm => ?_, I.period.concat fun f' hf => ?_, nofun,
      fun _ => rfl, nofun⟩
    · rcases List.mem_append.mp he with he | he
      · exact I.wire_le e he
      · rw [List.mem_singleton.mp he]
        exact ⟨Nat.le_of_eq (congrArg Prod.fst hstamp), Nat.le_of_eq (congrArg Prod.snd hstamp)⟩
    · show true = true ↔ unreleased (s.wire ++ [.frame f]) ≠ []
      rw [hun]
      simp
    · have hf' : f' ∈ unreleased (s.wire ++ [.frame f]) := hf
      rw [hun] at hf'
      rcases List.mem_append.mp hf' with hf' | hf'
      · exact hsince f' hf'
      · rw [List.mem_singleton.mp hf']
        exact hstamp
    · obtain ⟨hg, hr⟩ := I.wire_le _ hm
      exact ⟨Nat.le_trans hg (Nat.le_of_eq (congrArg Prod.fst hstamp).symm),
        Nat.le_trans hr (Nat.le_of_eq (congrArg Prod.snd hstamp).symm)⟩
    · exact (hsince f' hf).trans hstamp.symm
  | request hpc =>
    exact I.go (Nat.le_succ _) (by rw [hpc]; nofun) (by rw [hpc]; nofun) ⟨nofun, nofun⟩ nofun nofun
      nofun nofun
  | lastPanic ok hpc hu =>
    refine ⟨I.generation_le, I.route_le, nofun, nofun, hwire ok, nofun, fun h => absurd rfl h,
      fun _ hr f hf => ?_, I.after.concat trivial, I.period.concat trivial,
      fun _ => unanswered_panic _ _ _, I.pending_used, nofun⟩
    have hf' : f ∈ unreleased (s.wire ++ [.panic s.task.handled ok]) := hf
    rw [unreleased_panic] at hf'
    split at hf'
    · cases hf'
    · exact I.since (by rw [hpc]; nofun) hr f hf'

theorem taskInv_inductive : system.Inductive TaskInv where
  init s h := by
    have h0 : s = init := h
    rw [h0]
    exact taskInv_init
  step s l s' I h := by
    rcases step_cases h with ⟨-, ho⟩ | ⟨-, hm⟩
    · exact I.others ho
    · exact I.moves hm

/-! ## A panic that is owing is sent -/

/-- Frames wait for a panic, and the task knows or is about to find out. -/
structure Owing (s : St) : Prop where
  frames : unreleased s.wire ≠ []
  running : s.task.pc ≠ .done
  cause : s.task.generation < s.generation ∨ s.task.routeGeneration < s.routeGeneration ∨
    s.task.resetPending = true ∨ s.task.pc = .observeGeneration

/-- The steps of the task from here to the panic, at most. -/
def rank (s : St) : Nat :=
  match s.task.pc with
  | .done => 0
  | .panicking | .stopping => 1
  | .branch => if s.task.resetPending then 2 else 13
  | .observeGeneration => 3
  | .observeRoute => 4
  | .checkRoute =>
    if s.task.resetPending ∨ s.task.routeGeneration ≠ s.routeGeneration then 5 else 14
  | .checkGeneration => 6
  | .sendFailed | .panicFailed => 7
  | .sending => 8
  | .ready _ => 9
  | .compared _ _ => 10
  | .taken _ => 11
  | .select => 12
  | .start | .startRoute => 14

theorem rank_le (s : St) : rank s ≤ 14 := by
  unfold rank
  split <;> try split
  all_goals omega

theorem Owing.others (I : TaskInv s) (h : Others s s') (ho : Owing s) :
    Owing s' ∧ rank s' ≤ rank s := by
  obtain ⟨ht, hw, hg, hr, -⟩ := h
  refine ⟨⟨by rw [hw]; exact ho.frames, by rw [ht]; exact ho.running, ?_⟩, ?_⟩
  · rw [ht]
    rcases ho.cause with h | h | h | h
    · exact .inl (Nat.lt_of_lt_of_le h hg)
    · exact .inr (.inl (Nat.lt_of_lt_of_le h hr))
    · exact .inr (.inr (.inl h))
    · exact .inr (.inr (.inr h))
  · have hle := I.route_le
    unfold rank
    rw [ht]
    split
    all_goals try exact Nat.le_refl _
    split
    · split <;> omega
    · rename_i hn
      rw [if_neg (fun h => hn (h.imp_right fun hne => by omega))]

/-- The place of the task moves, and with it the rank. -/
theorem Owing.go {pc : Pc} (I : TaskInv s) (ho : Owing s) (h : Goes s s.task.pc pc) :
    Owing (s.setTask { s.task with pc }) ∧ rank (s.setTask { s.task with pc }) < rank s := by
  have hg := I.generation_le
  have hr := I.route_le
  have hused : s.task.used = true := (I.used_iff ho.running).mpr ho.frames
  have hset := I.settled
  have hcause := ho.cause
  have hkeep : s.task.pc ≠ .observeGeneration → pc ≠ .done → Owing (s.setTask { s.task with pc }) := by
    refine fun hobs hdone => ⟨ho.frames, hdone, ?_⟩
    rcases ho.cause with h | h | h | h
    · exact .inl h
    · exact .inr (.inl h)
    · exact .inr (.inr (.inl h))
    · exact absurd h hobs
  have hrank : rank s = rank { s with task := { s.task with pc := s.task.pc } } := rfl
  generalize hp : s.task.pc = p at h hkeep hset hcause hrank
  rw [hrank]
  cases h with
  | sameGeneration heq =>
    refine ⟨hkeep nofun nofun, ?_⟩
    have hne : s.task.resetPending = true ∨ s.task.routeGeneration ≠ s.routeGeneration := by
      rcases hcause with h | h | h | h
      · omega
      · exact .inr (by omega)
      · exact .inl h
      · cases h
    simp [rank, St.setTask, hne]
  | newGeneration _ | newRoute _ =>
    refine ⟨hkeep nofun nofun, ?_⟩
    simp only [rank, St.setTask]
    try split
    all_goals omega
  | sameRoute heq =>
    refine ⟨hkeep nofun nofun, ?_⟩
    simp only [rank, St.setTask]
    by_cases hrp : s.task.resetPending = true
    · simp [hrp]
    · simp [hrp, heq]
  | owing hrp =>
    refine ⟨hkeep nofun nofun, ?_⟩
    simp [rank, St.setTask, hrp]
  | settled hrp =>
    refine ⟨hkeep nofun nofun, ?_⟩
    simp [rank, St.setTask, hrp]
  | finish hu =>
    rw [hused] at hu
    cases hu
  | stopRetry _ | retry _ | stop _ | tick _ | hungUp _ | compare _ | discard _ _ | ready _ _ _ _
  | sent | failed =>
    refine ⟨hkeep nofun nofun, ?_⟩
    simp only [rank, St.setTask]
    omega

/-- A step of the task sends the panic or brings it nearer. -/
theorem Owing.moves (I : TaskInv s) (h : Moves s s') (ho : Owing s) :
    (∃ g ok, s'.wire = s.wire ++ [.panic g ok]) ∨ (Owing s' ∧ rank s' < rank s) := by
  have hr := I.route_le
  have hused : s.task.used = true := (I.used_iff ho.running).mpr ho.frames
  have hset := I.settled
  -- where no reset is pending a generation has moved
  have hmoved : s.task.pc.settled = true → s.task.pc ≠ .observeGeneration →
      s.task.generation < s.generation ∨ s.task.routeGeneration < s.routeGeneration := by
    intro hs hobs
    rcases ho.cause with h | h | h | h
    · exact .inl h
    · exact .inr h
    · rw [hset hs] at h
      cases h
    · exact absurd h hobs
  cases h with
  | go pc hgo => exact .inr (ho.go I hgo)
  | start hpc => exact absurd (I.begun (.inl hpc)).2 (by rw [hused]; nofun)
  | startRoute hpc => exact absurd (I.begun (.inr hpc)).2 (by rw [hused]; nofun)
  | observeRoute hpc =>
    refine .inr ⟨⟨ho.frames, nofun, .inr (.inr (.inr rfl))⟩, ?_⟩
    simp [rank, St.setTask, hpc]
  | observeGeneration hpc =>
    refine .inr ⟨⟨ho.frames, nofun, .inr (.inr (.inl ?_))⟩, ?_⟩
    · show (s.task.resetPending || s.task.used) = true
      rw [hused, Bool.or_true]
    · simp [rank, St.setTask, hpc, hused]
  | panicked hpc => exact .inl ⟨_, _, rfl⟩
  | panicFailed hpc => exact .inl ⟨_, _, rfl⟩
  | takePending f hpc hs hp =>
    rcases hmoved (by rw [hpc]; rfl) (by rw [hpc]; nofun) with h | h
    · exact .inr ⟨⟨ho.frames, nofun, .inl h⟩, by simp [rank, St.setTask, hpc]⟩
    · exact .inr ⟨⟨ho.frames, nofun, .inr (.inl h)⟩, by simp [rank, St.setTask, hpc]⟩
  | takeQueue f queue hpc hs hq =>
    rcases hmoved (by rw [hpc]; rfl) (by rw [hpc]; nofun) with h | h
    · exact .inr ⟨⟨ho.frames, nofun, .inl h⟩, by simp [rank, St.setTask, hpc]⟩
    · exact .inr ⟨⟨ho.frames, nofun, .inr (.inl h)⟩, by simp [rank, St.setTask, hpc]⟩
  | defer f g hpc =>
    rcases hmoved (by rw [hpc]; rfl) (by rw [hpc]; nofun) with h | h
    · exact .inr ⟨⟨ho.frames, nofun, .inl h⟩, by simp [rank, St.setTask, hpc]⟩
    · exact .inr ⟨⟨ho.frames, nofun, .inr (.inl h)⟩, by simp [rank, St.setTask, hpc]⟩
  | transmit f hpc =>
    have hun : unreleased (s.wire ++ [.frame f]) ≠ [] := by
      rw [unreleased_frame]
      simp
    rcases hmoved (by rw [hpc]; rfl) (by rw [hpc]; nofun) with h | h
    · exact .inr ⟨⟨hun, nofun, .inl h⟩, by simp [rank, St.setTask, hpc]⟩
    · exact .inr ⟨⟨hun, nofun, .inr (.inl h)⟩, by simp [rank, St.setTask, hpc]⟩
  | request hpc =>
    exact .inr ⟨⟨ho.frames, nofun, .inr (.inl (Nat.lt_succ_of_le hr))⟩,
      by simp [rank, St.setTask, hpc]⟩
  | lastPanic ok hpc hu => exact .inl ⟨_, _, rfl⟩

/-- The wire only grows. -/
theorem wire_step {l : Lbl} (h : step s l = some s') : ∃ w, s'.wire = s.wire ++ w := by
  rcases step_cases h with ⟨-, ho⟩ | ⟨-, hm⟩
  · exact ⟨[], by rw [ho.wire, List.append_nil]⟩
  · cases hm with
    | panicked | panicFailed | transmit | lastPanic => exact ⟨_, rfl⟩
    | _ => exact ⟨[], (List.append_nil _).symm⟩

theorem wire_run {s s' : St} {ls : List Lbl} (hr : system.Run s ls s') :
    ∃ l, s'.wire = s.wire ++ l := by
  induction hr with
  | nil s => exact ⟨[], (List.append_nil _).symm⟩
  | cons hst _ ih =>
    obtain ⟨l, hl⟩ := ih
    obtain ⟨l₁, hl₁⟩ := wire_step hst
    exact ⟨l₁ ++ l, by rw [hl, hl₁, List.append_assoc]⟩

theorem Owing.rank_pos (ho : Owing s) : 0 < rank s := by
  have h := ho.running
  unfold rank
  split
  all_goals try split
  all_goals first
    | omega
    | contradiction

/-- Whatever else goes on, the panic is tried within `rank` steps of the task. -/
theorem Owing.run {s s' : St} {ls : List Lbl} (hr : system.Run s ls s') :
    TaskInv s → Owing s → rank s ≤ ls.countP Lbl.isTask →
      ∃ l, s'.wire = s.wire ++ l ∧ ∃ e ∈ l, e.isPanic = true := by
  induction hr with
  | nil s =>
    intro _ ho hle
    exact absurd ho.rank_pos (Nat.not_lt.mpr hle)
  | @cons s lbl s₁ ls s₂ hst hrun ih =>
    intro I ho hle
    have I₁ := taskInv_inductive.step _ _ _ I hst
    rw [countP_cons_toNat] at hle
    rcases step_cases hst with ⟨hl, hot⟩ | ⟨hl, hm⟩
    · obtain ⟨ho₁, hle₁⟩ := ho.others I hot
      rw [hl, Bool.toNat_false, Nat.add_zero] at hle
      obtain ⟨l, hw, hp⟩ := ih I₁ ho₁ (Nat.le_trans hle₁ hle)
      exact ⟨l, by rw [hw, hot.wire], hp⟩
    · rw [hl, Bool.toNat_true] at hle
      rcases ho.moves I hm with ⟨g, ok, hw⟩ | ⟨ho₁, hlt⟩
      · obtain ⟨l, hl⟩ := wire_run hrun
        exact ⟨.panic g ok :: l, by rw [hl, hw, List.append_assoc]; rfl, _, List.mem_cons_self, rfl⟩
      · obtain ⟨l, hl, hp⟩ := ih I₁ ho₁ (by omega)
        obtain ⟨l₁, hl₁⟩ := wire_step hst
        obtain ⟨e, he, hpanic⟩ := hp
        exact ⟨l₁ ++ l, by rw [hl, hl₁, List.append_assoc], e, List.mem_append_right _ he, hpanic⟩

/-! ## A stop ends the task -/

/-- The steps of the task from here to its end once a stop has come, at most. -/
def left (s : St) : Nat :=
  match s.task.pc with
  | .done => 0
  | .stopping => 1
  | .select | .panicFailed => 2
  | .panicking => 4
  | .branch => 5
  | .observeGeneration => 6
  | .observeRoute => 7
  | .checkRoute => 8
  | .checkGeneration => 9
  | .sendFailed => 10
  | .sending => 11
  | .ready _ => 12
  | .compared _ _ => 13
  | .taken _ => 14
  | .startRoute => 14
  | .start => 15

theorem left_le (s : St) : left s ≤ 15 := by
  unfold left
  split
  all_goals omega

theorem left_goes {pc : Pc} (hs : s.stopSent = true) (h : Goes s s.task.pc pc) :
    left (s.setTask { s.task with pc }) < left s := by
  have hrank : left s = left { s with task := { s.task with pc := s.task.pc } } := rfl
  generalize hp : s.task.pc = p at h hrank
  rw [hrank]
  cases h with
  | retry hn | tick hn | hungUp hn =>
    rw [hs] at hn
    cases hn
  | _ =>
    simp only [left, St.setTask]
    omega

theorem left_moves (hs : s.stopSent = true) (h : Moves s s') :
    left s' < left s ∧ s'.stopSent = true := by
  cases h with
  | go pc hgo => exact ⟨left_goes hs hgo, hs⟩
  | takePending f hpc hn _ | takeQueue f queue hpc hn _ =>
    rw [hs] at hn
    cases hn
  | start hpc | startRoute hpc | observeRoute hpc | observeGeneration hpc | panicked hpc
  | panicFailed hpc | defer f g hpc | transmit f hpc | request hpc | lastPanic ok hpc _ =>
    refine ⟨?_, hs⟩
    simp only [left, St.setTask, hpc]
    omega

theorem left_run {s s' : St} {ls : List Lbl} (hr : system.Run s ls s') :
    s.stopSent = true → ls.countP Lbl.isTask + left s' ≤ left s := by
  induction hr with
  | nil s => exact fun _ => Nat.le_of_eq (Nat.zero_add _)
  | cons hst _ ih =>
    intro hs
    rw [countP_cons_toNat]
    rcases step_cases hst with ⟨hl, ho⟩ | ⟨hl, hm⟩
    · have hle := ih (ho.stopSent hs)
      have hsame := congrArg Task.pc ho.task
      unfold left at hle ⊢
      rw [hsame] at hle
      rw [hl, Bool.toNat_false]
      exact hle
    · obtain ⟨hlt, hs'⟩ := left_moves hs hm
      have hle := ih hs'
      rw [hl, Bool.toNat_true]
      omega

/-- Until it is done the task can go on. -/
theorem task_goes_on (hd : s.task.pc ≠ .done) : ∃ c s', taskStep s c = some s' := by
  cases hp : s.task.pc with
  | select | panicFailed =>
    by_cases hs : s.stopSent = true
    · exact ⟨.stop, _, by simp only [taskStep, hp]; exact if_pos hs⟩
    · exact ⟨.tick, _, by simp only [taskStep, hp]; exact if_neg hs⟩
  | panicking | sending => exact ⟨.result true, _, by simp only [taskStep, hp]; rfl⟩
  | stopping =>
    by_cases hu : s.task.used = true
    · exact ⟨.result true, _, by simp only [taskStep, hp]; exact if_pos hu⟩
    · exact ⟨.result true, _, by simp only [taskStep, hp]; exact if_neg hu⟩
  | compared f g =>
    cases hg : generationAction f.stamp s.task.handled (g, s.routeGeneration) with
    | discard | defer | ready => exact ⟨.next, _, by simp only [taskStep, hp, hg]; rfl⟩
  | done => exact absurd hp hd
  | start | startRoute | checkGeneration | checkRoute | observeRoute | observeGeneration | branch
  | taken f | ready f | sendFailed => exact ⟨.next, _, by simp only [taskStep, hp]; rfl⟩

end RtpOscMidi.L5.RtpOutput
