import RtpOscMidi.Core.Backoff
import RtpOscMidi.Core.LTS
import RtpOscMidi.Core.Notify

/-!
# Inviting the remote RTP targets

The server's task goes through the configured targets and invites those that no
participant matches and whose next attempt is due, then sleeps until the
earliest attempt of the rest, or until a participant has joined or left. The
session's listeners change the list of participants and then notify; the task
looks at the list once, at the top of the loop.

A step is one target of the loop, one choice of its `select!`, one listener's
change or notification, or time. `invites` records the times of the passes that
invited a target since it was last seen connected.

* `rtp_invitations`: invitations to a target back off; when the task sleeps and
  no notification is under way, every target is connected or the sleep ends by
  its next attempt; and a target that is not connected is invited when its
  attempt is due, by the task's own steps.

How long an invitation takes is not modelled: the code counts its waits from the
start of the pass, and so does this.
-/
namespace RtpOscMidi.L5.RtpInvitations

open Core Core.Backoff

inductive IpAddr where
  | v4 (bits : BitVec 32)
  | v6 (bits : BitVec 128)
  deriving DecidableEq, Repr

structure SocketAddr where
  ip : IpAddr
  port : UInt16
  deriving DecidableEq, Repr

/-- An IPv4-mapped address is the IPv4 address.
mirrors src-tauri/src/rtp/rtp_midi.rs:60-71 -/
def normalizeIp : IpAddr → IpAddr
  | .v4 bits => .v4 bits
  | .v6 bits => if bits >>> 32 = 0xFFFF#128 then .v4 (bits.setWidth 32) else .v6 bits

/-- The control port or the data port beside it.
mirrors src-tauri/src/rtp/rtp_midi.rs:73-83 -/
def participantMatchesTarget (participant target : SocketAddr) : Bool :=
  normalizeIp participant.ip == normalizeIp target.ip &&
    (participant.port == target.port || participant.port.toNat == target.port.toNat + 1 ||
      participant.port.toNat + 1 == target.port.toNat)

/-- Times in milliseconds.
mirrors src-tauri/src/rtp/rtp_server.rs:66-70 -/
structure RemoteTargetState where
  name : String
  addr : SocketAddr
  backoff : Nat
  nextAttempt : Nat
  invites : List Nat
  deriving DecidableEq, Repr

/-- mirrors src-tauri/src/rtp/rtp_server.rs:465-472 -/
def RemoteTargetState.new (target : String × SocketAddr) (now : Nat) : RemoteTargetState :=
  ⟨target.1, target.2, 1000, now, []⟩

def connected (participants : List SocketAddr) (state : RemoteTargetState) : Bool :=
  participants.any (participantMatchesTarget · state.addr)

/-- mirrors src-tauri/src/rtp/rtp_server.rs:490-491 -/
def RemoteTargetState.seen (state : RemoteTargetState) (now : Nat) : RemoteTargetState :=
  { state with backoff := 1000, nextAttempt := now + 1000, invites := [] }

/-- mirrors src-tauri/src/rtp/rtp_server.rs:495-499 -/
def RemoteTargetState.attempt (state : RemoteTargetState) (now : Nat) : RemoteTargetState :=
  if state.nextAttempt ≤ now then
    let backoff := min (state.backoff * 2) 30000
    { state with backoff, nextAttempt := now + backoff, invites := state.invites ++ [now] }
  else state

/-- mirrors src-tauri/src/rtp/rtp_server.rs:502-504 -/
def wakeBy (nextWake : Option Nat) (attempt : Nat) : Option Nat :=
  some (match nextWake with
    | none => attempt
    | some current => min current attempt)

/-- `visiting`: the next target of the pass that began at `now`. -/
inductive Pc where
  | scan
  | visiting (now i : Nat) (nextWake : Option Nat)
  | asleep (nextWake : Option Nat)
  | done
  deriving DecidableEq, Repr

structure St where
  time : Nat
  participants : Watched (List SocketAddr)
  targets : List RemoteTargetState
  pc : Pc
  stopping : Bool
  deriving DecidableEq, Repr

/-- One turn of the loop over the targets.
mirrors src-tauri/src/rtp/rtp_server.rs:481-505 -/
def visit (s : St) (now i : Nat) (nextWake : Option Nat) (state : RemoteTargetState) : St :=
  if connected s.participants.seen state then
    { s with targets := s.targets.set i (state.seen now), pc := .visiting now (i + 1) nextWake }
  else
    let state := state.attempt now
    { s with
      targets := s.targets.set i state
      pc := .visiting now (i + 1) (wakeBy nextWake state.nextAttempt) }

/-- The task's next step; of the `select!`, a notification first.
mirrors src-tauri/src/rtp/rtp_server.rs:474-532 -/
def poll (s : St) : Option St :=
  match s.pc with
  | .scan => some { s with participants := s.participants.read, pc := .visiting s.time 0 none }
  | .visiting now i nextWake =>
    match s.targets[i]? with
    | some state => some (visit s now i nextWake state)
    | none => some { s with pc := .asleep nextWake }
  | .asleep nextWake =>
    if s.participants.permit then some { s with participants := s.participants.take, pc := .scan }
    else if nextWake.any (· ≤ s.time) then some { s with pc := .scan }
    else none
  | .done => none

inductive Lbl where
  | tick (ms : Nat)
  | joined (addr : SocketAddr)
  | left (addr : SocketAddr)
  | notify
  | poll
  | elapsed
  | stop
  | stopped
  deriving DecidableEq, Repr

def step (s : St) : Lbl → Option St
  | .tick ms => some { s with time := s.time + ms }
  -- mirrors src-tauri/src/rtp/rtp_server.rs:385-393
  | .joined addr =>
    let list := s.participants.current
    some { s with
      participants := s.participants.change (if addr ∈ list then list else list ++ [addr]) }
  -- mirrors src-tauri/src/rtp/rtp_server.rs:416-421
  | .left addr =>
    some { s with
      participants := s.participants.change (s.participants.current.filter (· ≠ addr)) }
  | .notify =>
    if 0 < s.participants.notifying then some { s with participants := s.participants.notify }
    else none
  | .poll => RtpInvitations.poll s
  -- the timer, also where there is a notification
  | .elapsed =>
    match s.pc with
    | .asleep nextWake => if nextWake.any (· ≤ s.time) then some { s with pc := .scan } else none
    | _ => none
  | .stop => some { s with stopping := true }
  | .stopped =>
    match s.pc with
    | .asleep _ => if s.stopping then some { s with pc := .done } else none
    | _ => none

/-- There are targets, and nobody has joined. -/
def Initial (s : St) : Prop :=
  ∃ targets : List (String × SocketAddr), s = ⟨s.time, .new [],
    targets.map (RemoteTargetState.new · s.time), .scan, false⟩

def system : LTS St Lbl := .ofStep Initial step

/-! ## Invitations back off -/

/-- The wait after an invitation that `n` others came before. -/
def wait (n : Nat) : Nat := doubling 1000 30000 (n + 1)

/-- The invitations since the target was last connected are at least the wait apart. -/
structure BacksOff (state : RemoteTargetState) : Prop where
  backoff : state.backoff = doubling 1000 30000 state.invites.length
  spaced : Spaced wait state.nextAttempt state.invites

theorem backsOff_new (target : String × SocketAddr) (now : Nat) : BacksOff (.new target now) :=
  ⟨rfl, spaced_nil wait now⟩

theorem backsOff_seen (state : RemoteTargetState) (now : Nat) : BacksOff (state.seen now) :=
  ⟨rfl, spaced_nil wait _⟩

theorem BacksOff.attempt {state : RemoteTargetState} (h : BacksOff state) (now : Nat) :
    BacksOff (state.attempt now) := by
  unfold RemoteTargetState.attempt
  split
  · rename_i hdue
    have hnext : min (state.backoff * 2) 30000 = wait state.invites.length := by
      rw [h.backoff]
      exact doubling_succ 1000 30000 _
    have hspaced := h.spaced.failed hdue
    refine ⟨?_, ?_⟩
    · show min (state.backoff * 2) 30000 = doubling 1000 30000 (state.invites ++ [now]).length
      rw [hnext, List.length_append, List.length_singleton]
      rfl
    · show Spaced wait (now + min (state.backoff * 2) 30000) (state.invites ++ [now])
      rw [hnext]
      exact hspaced
  · exact h

theorem BacksOff.le {state : RemoteTargetState} (h : BacksOff state) : state.backoff ≤ 30000 := by
  rw [h.backoff, doubling]
  exact Nat.min_le_right _ _

/-! ## The sleep is short enough -/

/-- Connected, or the sleep ends by its next attempt. -/
def Covered (participants : List SocketAddr) (nextWake : Option Nat) (state : RemoteTargetState) :
    Prop :=
  connected participants state = true ∨ ∃ t, nextWake = some t ∧ t ≤ state.nextAttempt

theorem Covered.wakeBy {participants : List SocketAddr} {nextWake : Option Nat}
    {state : RemoteTargetState} (h : Covered participants nextWake state) (attempt : Nat) :
    Covered participants (wakeBy nextWake attempt) state := by
  refine h.imp id fun hwake => ?_
  obtain ⟨t, hnext, hle⟩ := hwake
  refine ⟨min t attempt, ?_, Nat.le_trans (Nat.min_le_left _ _) hle⟩
  rw [hnext]
  rfl

theorem covered_wakeBy (participants : List SocketAddr) (nextWake : Option Nat)
    (state : RemoteTargetState) :
    Covered participants (wakeBy nextWake state.nextAttempt) state := by
  refine .inr ?_
  cases nextWake with
  | none => exact ⟨_, rfl, Nat.le_refl _⟩
  | some t => exact ⟨_, rfl, Nat.min_le_right _ _⟩

/-- Where the task is, and what it has seen. -/
def PcInv (s : St) : Pc → Prop
  | .scan => True
  | .visiting now i nextWake => s.participants.Fresh ∧ now ≤ s.time ∧
    ∀ j state, j < i → s.targets[j]? = some state → Covered s.participants.seen nextWake state
  | .asleep nextWake => s.participants.Fresh ∧
    ∀ state ∈ s.targets, Covered s.participants.seen nextWake state
  | .done => True

structure Inv (s : St) : Prop where
  backsOff : ∀ state ∈ s.targets, BacksOff state
  pc : PcInv s s.pc

theorem inv_visit {s : St} {now i : Nat} {nextWake : Option Nat} {state : RemoteTargetState}
    (hs : Inv s) (hpc : s.pc = .visiting now i nextWake) (hstate : s.targets[i]? = some state) :
    Inv (visit s now i nextWake state) := by
  obtain ⟨hbacks, hpcinv⟩ := hs
  rw [hpc] at hpcinv
  obtain ⟨hfresh, hnow, hcovered⟩ := hpcinv
  have hmem := List.mem_of_getElem? hstate
  have hset : ∀ {new : RemoteTargetState}, BacksOff new →
      ∀ st ∈ s.targets.set i new, BacksOff st := by
    intro new hnew st hst
    cases List.mem_or_eq_of_mem_set hst with
    | inl hold => exact hbacks st hold
    | inr heq => exact heq ▸ hnew
  have hvisited : ∀ {new : RemoteTargetState} {wake : Option Nat},
      Covered s.participants.seen wake new →
      (∀ st, Covered s.participants.seen nextWake st → Covered s.participants.seen wake st) →
      ∀ j st, j < i + 1 → (s.targets.set i new)[j]? = some st →
        Covered s.participants.seen wake st := by
    intro new wake hnew hkeep j st hj hst
    by_cases heq : j = i
    · rw [heq, List.getElem?_set_self (List.getElem?_eq_some_iff.mp hstate).1] at hst
      cases hst
      exact hnew
    · rw [List.getElem?_set_ne (Ne.symm heq)] at hst
      exact hkeep st (hcovered j st (by omega) hst)
  unfold visit
  split
  · rename_i hconnected
    exact ⟨hset (backsOff_seen state now), hfresh, hnow, hvisited (.inl hconnected) fun st h => h⟩
  · refine ⟨hset ((hbacks state hmem).attempt now), hfresh, hnow, ?_⟩
    exact hvisited (covered_wakeBy _ _ _) fun st h => h.wakeBy _

theorem poll_inv {s s' : St} (hs : Inv s) (h : poll s = some s') : Inv s' := by
  unfold poll at h
  split at h
  · cases h
    exact ⟨hs.backsOff, Watched.fresh_read _, Nat.le_refl _, fun j state hj => by cases hj⟩
  · rename_i now i nextWake hpc
    split at h
    · rename_i state hstate
      cases h
      exact inv_visit hs hpc hstate
    · rename_i hend
      cases h
      have hpcinv := hs.pc
      rw [hpc] at hpcinv
      refine ⟨hs.backsOff, hpcinv.1, fun state hmem => ?_⟩
      obtain ⟨j, hj⟩ := List.getElem?_of_mem hmem
      refine hpcinv.2.2 j state ?_ hj
      have hlt : j < s.targets.length := (List.getElem?_eq_some_iff.mp hj).1
      have hlen := List.getElem?_eq_none_iff.mp hend
      omega
  · split at h
    · cases h
      exact ⟨hs.backsOff, trivial⟩
    · split at h
      · cases h
        exact ⟨hs.backsOff, trivial⟩
      · cases h
  · cases h

/-- The others change nothing that the task knows but the list, and time passes. -/
theorem Inv.frame {s s' : St} (hs : Inv s) (htime : s.time ≤ s'.time)
    (htargets : s'.targets = s.targets) (hpc : s'.pc = s.pc)
    (hseen : s'.participants.seen = s.participants.seen)
    (hfresh : s.participants.Fresh → s'.participants.Fresh) : Inv s' := by
  refine ⟨fun state hstate => hs.backsOff state (htargets ▸ hstate), ?_⟩
  have hpcinv := hs.pc
  rw [hpc]
  cases hat : s.pc with
  | scan => trivial
  | visiting now i nextWake =>
    rw [hat] at hpcinv
    refine ⟨hfresh hpcinv.1, Nat.le_trans hpcinv.2.1 htime, ?_⟩
    rw [htargets, hseen]
    exact hpcinv.2.2
  | asleep nextWake =>
    rw [hat] at hpcinv
    refine ⟨hfresh hpcinv.1, ?_⟩
    rw [htargets, hseen]
    exact hpcinv.2
  | done => trivial

theorem step_inv {s s' : St} (l : Lbl) (hs : Inv s) (h : step s l = some s') : Inv s' := by
  cases l with
  | tick ms =>
    cases h
    exact hs.frame (Nat.le_add_right _ _) rfl rfl rfl id
  | joined addr =>
    cases h
    exact hs.frame (Nat.le_refl _) rfl rfl rfl fun _ => Watched.fresh_change _ _
  | left addr =>
    cases h
    exact hs.frame (Nat.le_refl _) rfl rfl rfl fun _ => Watched.fresh_change _ _
  | notify =>
    simp only [step] at h
    split at h
    · cases h
      exact hs.frame (Nat.le_refl _) rfl rfl rfl fun _ => Watched.fresh_notify _
    · cases h
  | poll => exact poll_inv hs h
  | elapsed =>
    simp only [step] at h
    split at h
    · split at h
      · cases h
        exact ⟨hs.backsOff, trivial⟩
      · cases h
    · cases h
  | stop =>
    cases h
    exact hs.frame (Nat.le_refl _) rfl rfl rfl id
  | stopped =>
    simp only [step] at h
    split at h
    · split at h
      · cases h
        exact ⟨hs.backsOff, trivial⟩
      · cases h
    · cases h

theorem inv_inductive : system.Inductive Inv where
  init s hinit := by
    obtain ⟨targets, heq⟩ := hinit
    rw [heq]
    refine ⟨fun state hstate => ?_, trivial⟩
    obtain ⟨target, -, rfl⟩ := List.mem_map.mp hstate
    exact backsOff_new target s.time
  step s l s' hs h := step_inv l hs h

/-! ## A due invitation is made -/

/-- The state of the target `i` before it is invited, in a pass or asleep at `time`. -/
structure Waiting (i : Nat) (state : RemoteTargetState) (s : St) : Prop where
  inv : Inv s
  target : s.targets[i]? = some state
  quiet : s.participants.Quiet
  alone : connected s.participants.current state = false
  due : state.nextAttempt ≤ s.time
  runs : s.pc ≠ .done

/-- The target was invited, when it was due. -/
def Invited (i : Nat) (state : RemoteTargetState) (s : St) : Prop :=
  ∃ now, state.nextAttempt ≤ now ∧ s.targets[i]? = some (state.attempt now)

/-- The steps up to the visit of the target in a pass where it is due. -/
def steps (i : Nat) (state : RemoteTargetState) (s : St) : Nat :=
  match s.pc with
  | .visiting now j _ =>
    if state.nextAttempt ≤ now ∧ j ≤ i then i - j else s.targets.length - j + (i + 4)
  | .asleep _ => i + 3
  | .scan => i + 2
  | .done => 0

/-- Nothing is left to do when the target has changed. -/
def rank (i : Nat) (state : RemoteTargetState) (s : St) : Nat :=
  if s.targets[i]? = some state then steps i state s + 1 else 0

theorem attempt_ne {state : RemoteTargetState} {now : Nat} (hdue : state.nextAttempt ≤ now) :
    state.attempt now ≠ state := by
  intro heq
  have hlen := congrArg (fun state => state.invites.length) heq
  simp [RemoteTargetState.attempt, hdue] at hlen

section Progress

variable {i : Nat} {state : RemoteTargetState} {s s' : St}

theorem Waiting.alone_seen (h : Waiting i state s) (hfresh : s.participants.Fresh) :
    connected s.participants.seen state = false := by
  rw [hfresh h.quiet]
  exact h.alone

theorem Waiting.rank_lt (h : Waiting i state s)
    (hlt : s'.targets[i]? = some state → steps i state s' < steps i state s) :
    rank i state s' < rank i state s := by
  unfold rank
  rw [if_pos h.target]
  split
  · rename_i hsame
    have hsteps := hlt hsame
    omega
  · omega

/-- A visit of another target, or of this one before it is due, gets nearer to
the pass where it is due; a visit when it is due invites it. -/
theorem Waiting.visit (h : Waiting i state s) {now j : Nat} {nextWake : Option Nat}
    {state' : RemoteTargetState} (hpc : s.pc = .visiting now j nextWake)
    (hstate : s.targets[j]? = some state') :
    (Waiting i state (visit s now j nextWake state') ∨
      Invited i state (RtpInvitations.visit s now j nextWake state')) ∧
      rank i state (RtpInvitations.visit s now j nextWake state') < rank i state s := by
  have hinv' := inv_visit h.inv hpc hstate
  have hpcinv := h.inv.pc
  rw [hpc] at hpcinv
  have hj : j < s.targets.length := (List.getElem?_eq_some_iff.mp hstate).1
  by_cases heq : j = i
  · -- the target itself, which is not connected
    have hsame : state' = state := by
      have htarget := h.target
      rw [← heq, hstate] at htarget
      exact Option.some.inj htarget
    have hvisit : RtpInvitations.visit s now j nextWake state' =
        { s with
          targets := s.targets.set j (state.attempt now)
          pc := .visiting now (j + 1) (wakeBy nextWake (state.attempt now).nextAttempt) } := by
      simp only [RtpInvitations.visit, hsame, h.alone_seen hpcinv.1, Bool.false_eq_true, if_false]
    have htarget : (s.targets.set j (state.attempt now))[i]? = some (state.attempt now) := by
      rw [← heq]
      exact List.getElem?_set_self hj
    rw [hvisit] at hinv' ⊢
    by_cases hdue : state.nextAttempt ≤ now
    · refine ⟨.inr ⟨now, hdue, htarget⟩, h.rank_lt fun hno => ?_⟩
      exact absurd (Option.some.inj (htarget.symm.trans hno)) (attempt_ne hdue)
    · have hsame : state.attempt now = state := by
        rw [RemoteTargetState.attempt, if_neg hdue]
      rw [hsame] at htarget hinv' ⊢
      refine ⟨.inl ⟨hinv', htarget, h.quiet, h.alone, h.due, by simp⟩, h.rank_lt fun _ => ?_⟩
      simp only [steps, hpc, hdue, false_and, if_false, List.length_set]
      omega
  · -- another one
    have hother : ∀ new, (s.targets.set j new)[i]? = some state := fun new => by
      rw [List.getElem?_set_ne heq]
      exact h.target
    have hnearer : ∀ {s' : St} {wake : Option Nat}, s'.targets.length = s.targets.length →
        s'.pc = .visiting now (j + 1) wake → steps i state s' < steps i state s := by
      intro s' wake hlen hpc'
      simp only [steps, hpc, hpc', hlen]
      split
      · rename_i hnear
        rw [if_pos ⟨hnear.1, by omega⟩]
        omega
      · split
        · omega
        · omega
    unfold RtpInvitations.visit at hinv' ⊢
    split at hinv'
    · rename_i hconnected
      rw [if_pos hconnected]
      exact ⟨.inl ⟨hinv', hother _, h.quiet, h.alone, h.due, by simp⟩,
        h.rank_lt fun _ => hnearer (List.length_set ..) rfl⟩
    · rename_i hconnected
      rw [if_neg hconnected]
      exact ⟨.inl ⟨hinv', hother _, h.quiet, h.alone, h.due, by simp⟩,
        h.rank_lt fun _ => hnearer (List.length_set ..) rfl⟩

theorem Waiting.poll (h : Waiting i state s) :
    ∃ s', poll s = some s' ∧ (Waiting i state s' ∨ Invited i state s') ∧
      rank i state s' < rank i state s := by
  have hinv := h.inv.pc
  cases hpc : s.pc with
  | scan =>
    have hpoll : RtpInvitations.poll s =
        some { s with participants := s.participants.read, pc := .visiting s.time 0 none } := by
      simp only [RtpInvitations.poll, hpc]
    refine ⟨_, hpoll, .inl ⟨poll_inv h.inv hpoll, h.target, h.quiet, h.alone, h.due, by simp⟩,
      h.rank_lt fun _ => ?_⟩
    simp only [steps, hpc, h.due, Nat.zero_le, and_self, if_true]
    omega
  | visiting now j nextWake =>
    cases hstate : s.targets[j]? with
    | some state' =>
      have hvisit := h.visit hpc hstate
      refine ⟨_, ?_, hvisit⟩
      simp only [RtpInvitations.poll, hpc, hstate]
    | none =>
      have hpoll : RtpInvitations.poll s = some { s with pc := .asleep nextWake } := by
        simp only [RtpInvitations.poll, hpc, hstate]
      refine ⟨_, hpoll, .inl ⟨poll_inv h.inv hpoll, h.target, h.quiet, h.alone, h.due, by simp⟩,
        h.rank_lt fun _ => ?_⟩
      have hi : i < s.targets.length := (List.getElem?_eq_some_iff.mp h.target).1
      have hlen := List.getElem?_eq_none_iff.mp hstate
      simp only [steps, hpc]
      rw [if_neg (by omega)]
      omega
  | asleep nextWake =>
    rw [hpc] at hinv
    -- it is covered, and not by being connected
    have hwake : nextWake.any (· ≤ s.time) = true := by
      cases hinv.2 state (List.mem_of_getElem? h.target) with
      | inl hconnected =>
        rw [h.alone_seen hinv.1] at hconnected
        cases hconnected
      | inr hby =>
        obtain ⟨t, hnext, hle⟩ := hby
        rw [hnext]
        simpa using Nat.le_trans hle h.due
    have hpoll : RtpInvitations.poll s = some { s with pc := .scan } := by
      simp only [RtpInvitations.poll, hpc, h.quiet.2, hwake, Bool.false_eq_true, if_false, if_true]
    refine ⟨_, hpoll, .inl ⟨poll_inv h.inv hpoll, h.target, h.quiet, h.alone, h.due, by simp⟩,
      h.rank_lt fun _ => ?_⟩
    simp only [steps, hpc]
    omega
  | done => exact absurd hpc h.runs

theorem Waiting.invited (h : Waiting i state s) :
    ∃ n s', LTS.exec step s (List.replicate n .poll) = some s' ∧ Invited i state s' := by
  obtain ⟨n, s', hexec, -, hinvited⟩ := LTS.exec_until (f := step) (l := .poll)
    (I := fun s => Waiting i state s ∨ Invited i state s) (G := Invited i state) (rank i state)
    (fun s hs hno => (hs.resolve_right hno).poll) s (.inl h)
  exact ⟨n, s', hexec, hinvited⟩

/-- (1) The invitations to a target since it was last seen connected are at
least the doubling wait apart, and the wait is at most 30 seconds. (2) When the
task sleeps, with no notification under way, each target is connected or the
sleep ends by its next attempt. (3) A target that is not connected and whose
attempt is due is invited by the task's own steps, with no notification under
way and before the task has stopped. -/
theorem rtp_invitations (hs : system.Reachable s) :
    (∀ state ∈ s.targets, Spaced wait state.nextAttempt state.invites ∧ state.backoff ≤ 30000) ∧
    (∀ nextWake, s.pc = .asleep nextWake → s.participants.Quiet →
      ∀ state ∈ s.targets, Covered s.participants.current nextWake state) ∧
    ∀ (i : Nat) (state : RemoteTargetState), s.targets[i]? = some state →
      connected s.participants.current state = false → state.nextAttempt ≤ s.time →
      s.participants.Quiet → s.pc ≠ .done →
      ∃ n s' now, LTS.exec step s (List.replicate n .poll) = some s' ∧ state.nextAttempt ≤ now ∧
        s'.targets[i]? = some (state.attempt now) := by
  have hinv := inv_inductive.reachable s hs
  refine ⟨fun state hstate => ?_, fun nextWake hpc hquiet state hstate => ?_, ?_⟩
  · exact ⟨(hinv.backsOff state hstate).spaced, (hinv.backsOff state hstate).le⟩
  · have hasleep := hinv.pc
    rw [hpc] at hasleep
    rw [← hasleep.1 hquiet]
    exact hasleep.2 state hstate
  · intro i state hstate halone hdue hquiet hruns
    obtain ⟨n, s', hexec, now, hnow, htarget⟩ :=
      Waiting.invited ⟨hinv, hstate, hquiet, halone, hdue, hruns⟩
    exact ⟨n, s', now, hexec, hnow, htarget⟩

end Progress

/-! ## A run -/

def studio : SocketAddr := ⟨.v4 0xC0A80132#32, 5004⟩

def oneTarget : St := ⟨0, .new [], [.new ("studio", studio) 0], .scan, false⟩

/-- Invited at once, joined, seen connected, and gone: it is invited again. -/
def rejoined : List Lbl :=
  [.poll, .poll, .poll, .joined studio, .notify, .poll, .poll, .poll, .poll,
    .tick 5000, .left studio, .notify, .poll, .poll, .poll, .poll]

theorem rtp_invitations_rejoined : ∃ s, system.Reachable s ∧ s.targets.any (fun state =>
    state.invites = [5000] && state.nextAttempt = 7000) = true ∧
    ∀ state ∈ s.targets, Spaced wait state.nextAttempt state.invites := by
  have hrun : ∃ s, system.Reachable s ∧ s.targets.any (fun state =>
      state.invites = [5000] && state.nextAttempt = 7000) = true :=
    @LTS.reachable_of_any _ _ Initial step _ oneTarget rejoined
      ⟨[("studio", studio)], rfl⟩ (by decide)
  obtain ⟨s, hs, hinvited⟩ := hrun
  exact ⟨s, hs, hinvited, fun state hstate => ((rtp_invitations hs).1 state hstate).1⟩

end RtpOscMidi.L5.RtpInvitations
