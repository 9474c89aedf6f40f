import RtpOscMidi.Core.LTS
import RtpOscMidi.L2Machine.SourceState
import RtpOscMidi.L2Machine.MidiOutput
import RtpOscMidi.L5Concurrency.PlaybackConnection

/-!
# Reliable playback

The server accepts up to eight connections at once, each with its thread and
the scheduler of its session, and joins them all before its own releases. A
step is one of any of these threads; threads that cannot be spawned and the
other users of the queue are not modelled.

* `reliable_playback`: the session's events are offered in order, none before
  it is due and none after a release or the final reply; what `Completed`
  reports adds up; after `Stopped` every release was admitted or the whole
  input is reset, and nothing is left held.
* `playback_server`: at most eight connections; the server's releases come
  after all else; the active session is one that is being played.
-/
namespace RtpOscMidi.L5.ReliablePlayback

open Core L1.MidiMessage L2.InputRouting L2.SourceState
open L2.MidiOutput (foldl_hear_off)

/-! ## The server -/

/-- mirrors src-tauri/src/reliable_playback.rs:203-241 -/
inductive AcceptPc where
  | check
  | accept
  | ended
  deriving DecidableEq, Repr

/-- mirrors src-tauri/src/reliable_playback.rs:158-182 -/
inductive ServerPc where
  | running
  | joinAccept
  | joinWorkers
  | release (n : Nat)
  | releaseOffer (n generation : Nat)
  | clear
  | stopped
  deriving DecidableEq, Repr

/-- `log` is what was done, by which connection or (`none`) by the server. -/
structure St where
  shared : Shared
  accept : AcceptPc
  server : ServerPc
  permits : Nat
  conns : List Conn
  log : List (Option Nat × Act)

/-- `reset`: another thread asks for a MIDI reset; `clearMetrics`: one calls
`reset_reliable_playback_metrics`; `stop`: the server is stopped. -/
inductive Label where
  | tick (us : Nat)
  | reset
  | clearMetrics
  | stop
  | accept (connected : Bool)
  | server (answers : Answers)
  | conn (i : Nat) (answers : Answers)
  | scheduler (i : Nat) (answers : Answers)

def Act.resets : Act → Nat
  | .tried t => t.enqueue.resets
  | .release e => e.resets
  | .reply _ => 0

/-- The acts of one step, and the resets that it asked for. -/
def St.did (s : St) (owner : Option Nat) (acts : List Act) : St :=
  { s with
    shared := { s.shared with generation := s.shared.generation + (acts.map Act.resets).sum }
    log := s.log ++ acts.map fun act => (owner, act) }

/-- mirrors src-tauri/src/reliable_playback.rs:203-241 -/
def St.acceptStep (s : St) (connected : Bool) : St :=
  match s.accept with
  | .check => { s with accept := if s.shared.stop then .ended else .accept }
  | .accept =>
    if connected ∧ s.permits < maxConnections then
      { s with accept := .check, permits := s.permits + 1, conns := s.conns ++ [.accepted] }
    else { s with accept := .check }
  | .ended => s

def serverName : String := "ReliablePLV:server-stop"

/-- mirrors src-tauri/src/reliable_playback.rs:158-182 -/
def St.serverStep (s : St) (a : Answers) : St :=
  match s.server with
  | .running | .stopped => s
  | .joinAccept => { s with server := if s.accept = .ended then .joinWorkers else .joinAccept }
  | .joinWorkers =>
    { s with server := if s.conns.all (·.pc = .gone) then .release 0 else .joinWorkers }
  | .release n =>
    { s with
      server := if n < resetMessages.length then .releaseOffer n s.shared.generation else .clear }
  | .releaseOffer n generation =>
    { s with server := .release (n + 1) }.did none (inject serverName n generation a)
  | .clear => { s with shared := { s.shared with active := none }, server := .stopped }

def St.connStep (s : St) (i : Nat) (a : Answers) : St :=
  match s.conns[i]? with
  | none => s
  | some c =>
    let r := c.step s.shared a
    { s with
      shared := r.1
      permits := if c.pc = ConnPc.ended then s.permits - 1 else s.permits
      conns := s.conns.set i r.2.1 }.did (some i) r.2.2

def St.schedulerStep (s : St) (i : Nat) (a : Answers) : St :=
  match s.conns[i]? with
  | none => s
  | some c =>
    let r := c.schedule s.shared a
    { s with conns := s.conns.set i r.1 }.did (some i) r.2

def St.step (s : St) : Label → St
  | .tick us => { s with shared := { s.shared with now := s.shared.now + us } }
  | .reset => { s with shared := { s.shared with generation := s.shared.generation + 1 } }
  | .clearMetrics => { s with shared := { s.shared with active := none } }
  | .stop =>
    if s.server = .running then
      { s with shared := { s.shared with stop := true }, server := .joinAccept }
    else s
  | .accept connected => s.acceptStep connected
  | .server a => s.serverStep a
  | .conn i a => s.connStep i a
  | .scheduler i a => s.schedulerStep i a

/-- The server has started.
mirrors src-tauri/src/reliable_playback.rs:126-151 -/
structure Started (s : St) : Prop where
  stop : s.shared.stop = false
  active : s.shared.active = none
  accept : s.accept = .check
  server : s.server = .running
  permits : s.permits = 0
  conns : s.conns = []
  log : s.log = []

def system : LTS St Label where
  init := Started
  step s l s' := s' = s.step l

/-! ## The runs -/

/-- What was done by a connection, or by the server. -/
def actsOf (owner : Option Nat) (log : List (Option Nat × Act)) : List Act :=
  log.filterMap fun e => if e.1 = owner then some e.2 else none

/-- The accept loop has been joined. -/
def ServerPc.joined : ServerPc → Bool
  | .running | .joinAccept => false
  | _ => true

/-- The connections have been joined. -/
def ServerPc.closing : ServerPc → Bool
  | .running | .joinAccept | .joinWorkers => false
  | _ => true

structure Inv (s : St) : Prop where
  conns : ∀ i c, s.conns[i]? = some c →
    ConnInv s.shared.stop s.shared.now (actsOf (some i) s.log) c
  owners : ∀ i act, (some i, act) ∈ s.log → i < s.conns.length
  permits : s.permits = s.conns.countP fun c => c.pc ≠ .gone
  limit : s.permits ≤ maxConnections
  stop : s.server ≠ .running → s.shared.stop = true
  joined : s.server.joined = true → s.accept = .ended
  gone : s.server.closing = true → ∀ c ∈ s.conns, c.pc = .gone
  order : AtEach (fun before x => x.1 ≠ none → ∀ y ∈ before, y.1 ≠ none) s.log
  unserved : s.server.closing = false → ∀ y ∈ s.log, y.1 ≠ none
  releasing : ∀ n, s.server = .release n → n ≤ resetMessages.length ∧
    Released serverName n (releasesOf (actsOf none s.log))
  offering : ∀ n generation, s.server = .releaseOffer n generation → n < resetMessages.length ∧
    Released serverName n (releasesOf (actsOf none s.log))
  released : s.server = .clear ∨ s.server = .stopped →
    Released serverName resetMessages.length (releasesOf (actsOf none s.log))

theorem actsOf_append (owner : Option Nat) (log : List (Option Nat × Act)) (other : Option Nat)
    (acts : List Act) : actsOf owner (log ++ acts.map fun act => (other, act)) =
      actsOf owner log ++ if other = owner then acts else [] := by
  unfold actsOf
  rw [List.filterMap_append, List.filterMap_map]
  congr 1
  split
  · rename_i he
    induction acts with
    | nil => rfl
    | cons act acts ih => simp [he]
  · rename_i hne
    exact List.filterMap_eq_nil_iff.mpr fun act _ => if_neg hne

theorem joined_of_closing {pc : ServerPc} (h : pc.closing = true) : pc.joined = true := by
  cases pc with
  | running | joinAccept | joinWorkers => cases h
  | _ => rfl

/-- A thread of a connection takes a step. -/
theorem Inv.update {s : St} (h : Inv s) {i : Nat} {c c' : Conn} (hc : s.conns[i]? = some c)
    {shared : Shared} {permits : Nat} {acts : List Act}
    (hinv : ConnInv s.shared.stop s.shared.now (actsOf (some i) s.log ++ acts) c')
    (hshared : shared.now = s.shared.now ∧ shared.stop = s.shared.stop)
    (hgone : c.pc = .gone → c'.pc = .gone ∧ acts = [])
    (hpermits : permits = if c.pc ≠ .gone ∧ c'.pc = .gone then s.permits - 1 else s.permits) :
    Inv { s with
      shared, permits, conns := s.conns.set i c'
      log := s.log ++ acts.map fun act => (some i, act) } := by
  have hi : i < s.conns.length := (List.getElem?_eq_some_iff.mp hc).1
  have hserver : actsOf none (s.log ++ acts.map fun act => (some i, act)) = actsOf none s.log := by
    rw [actsOf_append, if_neg (by simp), List.append_nil]
  refine
    { conns := fun j d hd => ?_
      owners := fun j act hmem => ?_
      permits := ?_
      limit := ?_
      stop := fun he => hshared.2.trans (h.stop he)
      joined := h.joined
      gone := fun he d hd => ?_
      order := ?_
      unserved := fun he y hy => ?_
      releasing := fun n he => hserver ▸ h.releasing n he
      offering := fun n g he => hserver ▸ h.offering n g he
      released := fun he => hserver ▸ h.released he }
  · rw [hshared.1, hshared.2, actsOf_append]
    by_cases hij : i = j
    · subst hij
      rw [List.getElem?_set_self hi] at hd
      cases hd
      rw [if_pos rfl]
      exact hinv
    · rw [List.getElem?_set_ne hij] at hd
      rw [if_neg fun he => hij (Option.some.inj he), List.append_nil]
      exact h.conns j d hd
  · rw [List.length_set]
    cases List.mem_append.mp hmem with
    | inl hmem => exact h.owners j act hmem
    | inr hmem =>
      obtain ⟨_, -, he⟩ := List.mem_map.mp hmem
      cases he
      exact hi
  · have hget : s.conns[i] = c := (List.getElem?_eq_some_iff.mp hc).2
    have hpos : c.pc ≠ .gone → 0 < s.conns.countP fun c => c.pc ≠ .gone := fun hne =>
      List.countP_pos_iff.mpr ⟨c, List.mem_of_getElem? hc, decide_eq_true hne⟩
    rw [List.countP_set hi, hget, hpermits, h.permits]
    generalize (s.conns.countP fun c => c.pc ≠ .gone) = live at hpos ⊢
    by_cases hpc : c.pc = .gone
    · simp [hpc, (hgone hpc).1]
    · have := hpos hpc
      by_cases hpc' : c'.pc = .gone
      · simp [hpc, hpc']
      · simp only [ne_eq, hpc, hpc', not_false_eq_true, and_false, if_false, decide_true, if_true]
        omega
  · rw [hpermits]
    split
    · exact (Nat.sub_le _ _).trans h.limit
    · exact h.limit
  · cases List.mem_or_eq_of_mem_set hd with
    | inl hd => exact h.gone he d hd
    | inr hd => exact hd ▸ (hgone (h.gone he c (List.mem_of_getElem? hc))).1
  · refine h.order.append fun xs x ys he hx y hy => ?_
    cases List.mem_append.mp hy with
    | inl hy =>
      refine h.unserved ?_ y hy
      cases hclosing : s.server.closing with
      | false => rfl
      | true =>
        rw [(hgone (h.gone hclosing c (List.mem_of_getElem? hc))).2] at he
        cases xs <;> cases he
    | inr hy =>
      have hmem : y ∈ acts.map fun act => ((some i : Option Nat), act) :=
        he ▸ List.mem_append_left _ hy
      obtain ⟨_, -, rfl⟩ := List.mem_map.mp hmem
      exact fun he => by cases he
  · cases List.mem_append.mp hy with
    | inl hy => exact h.unserved he y hy
    | inr hy =>
      obtain ⟨_, -, rfl⟩ := List.mem_map.mp hy
      exact fun he => by cases he

theorem inv_conn {s : St} (h : Inv s) (i : Nat) (a : Answers) : Inv (s.connStep i a) := by
  unfold St.connStep
  cases hc : s.conns[i]? with
  | none => exact h
  | some c =>
    obtain ⟨hpc, hacts, hshared⟩ := step_frame s.shared c a
    refine h.update hc (conn_step (h.conns i c hc) a) hshared
      (fun hgone => ⟨hpc.mpr (.inr hgone), hacts hgone⟩) ?_
    by_cases hended : c.pc = .ended
    · have hgone : c.pc ≠ .gone ∧ (c.step s.shared a).2.1.pc = .gone :=
        ⟨(fun he => by rw [hended] at he; cases he), hpc.mpr (.inl hended)⟩
      rw [if_pos hgone]
      exact if_pos hended
    · have hkept : ¬(c.pc ≠ .gone ∧ (c.step s.shared a).2.1.pc = .gone) := fun ⟨hne, he⟩ =>
        (hpc.mp he).elim hended hne
      rw [if_neg hkept]
      exact if_neg hended

theorem inv_scheduler {s : St} (h : Inv s) (i : Nat) (a : Answers) : Inv (s.schedulerStep i a) := by
  unfold St.schedulerStep
  cases hc : s.conns[i]? with
  | none => exact h
  | some c =>
    have hinv := h.conns i c hc
    have hpc : (c.schedule s.shared a).1.pc = c.pc := by
      unfold Conn.schedule
      split
      · rfl
      · rfl
    refine h.update hc (conn_schedule hinv a) ⟨rfl, rfl⟩ (fun hgone => ⟨hpc.trans hgone, ?_⟩) ?_
    · -- the scheduler has ended before the thread has
      unfold Conn.schedule
      cases hs : c.scheduler with
      | none => rfl
      | some sched =>
        have hended := hinv.joined (by rw [hgone]; rfl) sched hs
        dsimp only
        unfold Scheduler.step
        rw [hended]
    · rw [hpc, if_neg fun he => he.1 he.2]

theorem inv_accept {s : St} (h : Inv s) (connected : Bool) : Inv (s.acceptStep connected) := by
  have hopen (haccept : s.accept ≠ .ended) : s.server.joined = false := by
    cases hj : s.server.joined with
    | false => rfl
    | true => exact absurd (h.joined hj) haccept
  unfold St.acceptStep
  cases haccept : s.accept with
  | check =>
    have hjoined := hopen (by rw [haccept]; exact fun he => by cases he)
    exact { h with joined := fun he => by rw [hjoined] at he; cases he }
  | accept =>
    have hjoined := hopen (by rw [haccept]; exact fun he => by cases he)
    dsimp only
    split
    · rename_i hlimit
      have hfresh (i : Nat) (hi : s.conns.length ≤ i) : actsOf (some i) s.log = [] := by
        refine List.filterMap_eq_nil_iff.mpr fun e he => ?_
        split
        · rename_i howner
          have := h.owners i e.2 (howner ▸ he)
          omega
        · rfl
      exact
        { h with
          conns := fun i c hc => by
            rcases Nat.lt_trichotomy i s.conns.length with hlt | heq | hgt
            · rw [List.getElem?_append_left hlt] at hc
              exact h.conns i c hc
            · rw [heq, List.getElem?_concat_length] at hc
              cases hc
              rw [hfresh i heq.ge]
              exact connInv_plain rfl rfl (fun _ => ⟨rfl, rfl⟩) (.inl rfl) fun y hy => by cases hy
            · have := (List.getElem?_eq_some_iff.mp hc).1
              rw [List.length_append, List.length_singleton] at this
              omega
          owners := fun i act hmem => by
            rw [List.length_append]
            exact Nat.lt_add_right _ (h.owners i act hmem)
          permits := by
            show s.permits + 1 = _
            rw [List.countP_append, ← h.permits]
            rfl
          limit := hlimit.2
          joined := fun he => by rw [hjoined] at he; cases he
          gone := fun he => by
            rw [joined_of_closing he] at hjoined
            cases hjoined }
    · exact { h with joined := fun he => by rw [hjoined] at he; cases he }
  | ended => exact h

/-- The server moves on, once it has been stopped. -/
theorem Inv.serve {s : St} (h : Inv s) {server : ServerPc} {shared : Shared}
    (hshared : shared.now = s.shared.now ∧ shared.stop = s.shared.stop)
    (hstop : s.shared.stop = true) (hjoined : server.joined = true → s.accept = .ended)
    (hgone : server.closing = true → ∀ c ∈ s.conns, c.pc = .gone)
    (hclosing : server.closing = false → s.server.closing = false)
    (hreleasing : ∀ n, server = .release n → n ≤ resetMessages.length ∧
      Released serverName n (releasesOf (actsOf none s.log)))
    (hoffering : ∀ n generation, server = .releaseOffer n generation →
      n < resetMessages.length ∧ Released serverName n (releasesOf (actsOf none s.log)))
    (hreleased : server = .clear ∨ server = .stopped →
      Released serverName resetMessages.length (releasesOf (actsOf none s.log))) :
    Inv { s with server, shared } :=
  { h with
    conns := fun i c hc => by
      rw [hshared.1, hshared.2]
      exact h.conns i c hc
    stop := fun _ => hshared.2.trans hstop
    joined := hjoined
    gone := hgone
    unserved := fun he => h.unserved (hclosing he)
    releasing := hreleasing
    offering := hoffering
    released := hreleased }

/-- The server releases one more, once nobody else does anything. -/
theorem inv_inject {s : St} (h : Inv s) {n generation : Nat}
    (hpc : s.server = .releaseOffer n generation) (a : Answers) :
    Inv ({ s with server := .release (n + 1) }.did none (inject serverName n generation a)) := by
  obtain ⟨hn, hreleased⟩ := h.offering n generation hpc
  obtain ⟨e, he, hmore⟩ := inject_spec hn generation a
  have hconn (i : Nat) : actsOf (some i) (s.log ++ [((none : Option Nat), Act.release e)]) =
      actsOf (some i) s.log := by
    have := actsOf_append (some i) s.log none [.release e]
    rwa [if_neg (fun he => by cases he), List.append_nil] at this
  have hserver : actsOf none (s.log ++ [((none : Option Nat), Act.release e)]) =
      actsOf none s.log ++ [.release e] := by
    have := actsOf_append none s.log none [.release e]
    rwa [if_pos rfl] at this
  rw [he]
  exact
    { h with
      conns := fun i c hc => (hconn i).symm ▸ h.conns i c hc
      owners := fun i act hmem => by
        refine h.owners i act ((List.mem_append.mp hmem).resolve_right fun hmem => ?_)
        cases List.mem_singleton.mp hmem
      stop := fun _ => h.stop (by rw [hpc]; exact fun he => by cases he)
      joined := fun _ => h.joined (by rw [hpc]; rfl)
      gone := fun _ => h.gone (by rw [hpc]; rfl)
      order := h.order.concat fun hne => absurd rfl hne
      unserved := fun he => by cases he
      releasing := fun m he => by
        cases he
        show n + 1 ≤ _ ∧ Released serverName (n + 1)
          (releasesOf (actsOf none (s.log ++ [((none : Option Nat), Act.release e)])))
        rw [hserver, releasesOf_append]
        exact ⟨hn, hmore _ hreleased⟩
      offering := fun m g he => by cases he
      released := fun he => he.elim (fun he => by cases he) fun he => by cases he }

theorem inv_server {s : St} (h : Inv s) (a : Answers) : Inv (s.serverStep a) := by
  have hstop (hne : s.server ≠ .running) := h.stop hne
  have hjoined (hj : s.server.joined = true) := h.joined hj
  unfold St.serverStep
  cases hpc : s.server with
  | running => exact h
  | stopped => exact h
  | joinAccept =>
    rw [hpc] at hstop
    dsimp only
    split
    · rename_i haccept
      exact h.serve ⟨rfl, rfl⟩ (hstop fun he => by cases he) (fun _ => haccept)
        (fun he => by cases he) (fun _ => by rw [hpc]; rfl) (fun n he => by cases he)
        (fun n g he => by cases he) fun he => he.elim (fun he => by cases he) fun he => by cases he
    · exact h.serve ⟨rfl, rfl⟩ (hstop fun he => by cases he) (fun he => by cases he)
        (fun he => by cases he) (fun _ => by rw [hpc]; rfl) (fun n he => by cases he)
        (fun n g he => by cases he) fun he => he.elim (fun he => by cases he) fun he => by cases he
  | joinWorkers =>
    rw [hpc] at hstop hjoined
    have hnone : releasesOf (actsOf none s.log) = [] := by
      have hacts : actsOf none s.log = [] := List.filterMap_eq_nil_iff.mpr fun e he =>
        if_neg (h.unserved (by rw [hpc]; rfl) e he)
      rw [hacts]
      rfl
    dsimp only
    split
    · rename_i hgone
      refine h.serve ⟨rfl, rfl⟩ (hstop fun he => by cases he) (fun _ => hjoined rfl)
        (fun _ c hc => ?_) (fun he => by cases he) (fun n he => ?_) (fun n g he => by cases he)
        fun he => he.elim (fun he => by cases he) fun he => by cases he
      · exact of_decide_eq_true (List.all_eq_true.mp hgone c hc)
      · cases he
        rw [hnone]
        exact ⟨Nat.zero_le _, released_nil _⟩
    · exact h.serve ⟨rfl, rfl⟩ (hstop fun he => by cases he) (fun _ => hjoined rfl)
        (fun he => by cases he) (fun _ => by rw [hpc]; rfl) (fun n he => by cases he)
        (fun n g he => by cases he) fun he => he.elim (fun he => by cases he) fun he => by cases he
  | release n =>
    rw [hpc] at hstop hjoined
    have hgone := h.gone (by rw [hpc]; rfl)
    obtain ⟨hn, hreleased⟩ := h.releasing n hpc
    dsimp only
    split
    · rename_i hlt
      refine h.serve ⟨rfl, rfl⟩ (hstop fun he => by cases he) (fun _ => hjoined rfl)
        (fun _ => hgone) (fun he => by cases he) (fun n he => by cases he) (fun m g he => ?_)
        fun he => he.elim (fun he => by cases he) fun he => by cases he
      cases he
      exact ⟨hlt, hreleased⟩
    · rename_i hge
      refine h.serve ⟨rfl, rfl⟩ (hstop fun he => by cases he) (fun _ => hjoined rfl)
        (fun _ => hgone) (fun he => by cases he) (fun n he => by cases he)
        (fun m g he => by cases he) fun _ => ?_
      obtain rfl : n = resetMessages.length := by omega
      exact hreleased
  | releaseOffer n generation => exact inv_inject h hpc a
  | clear =>
    rw [hpc] at hstop hjoined
    exact h.serve ⟨rfl, rfl⟩ (hstop fun he => by cases he) (fun _ => hjoined rfl)
      (fun _ => h.gone (by rw [hpc]; rfl)) (fun he => by cases he) (fun n he => by cases he)
      (fun n g he => by cases he) fun _ => h.released (.inl hpc)

theorem inv_started {s : St} (h : Started s) : Inv s where
  conns i c hc := by
    rw [h.conns] at hc
    cases hc
  owners i act hmem := by
    rw [h.log] at hmem
    cases hmem
  permits := by
    rw [h.permits, h.conns]
    rfl
  limit := by
    rw [h.permits]
    exact Nat.zero_le _
  stop hne := absurd h.server hne
  joined he := by
    rw [h.server] at he
    cases he
  gone he := by
    rw [h.server] at he
    cases he
  order := by
    rw [h.log]
    exact atEach_nil _
  unserved _ y hy := by
    rw [h.log] at hy
    cases hy
  releasing n he := by
    rw [h.server] at he
    cases he
  offering n g he := by
    rw [h.server] at he
    cases he
  released he := by
    rw [h.server] at he
    exact he.elim (fun he => by cases he) fun he => by cases he

theorem inv_inductive : system.Inductive Inv where
  init _ := inv_started
  step s l s' h hst := by
    obtain rfl : s' = s.step l := hst
    cases l with
    | tick us =>
      exact { h with conns := fun i c hc => (h.conns i c hc).later id (Nat.le_add_right _ _) }
    | reset | clearMetrics => exact { h with }
    | stop =>
      unfold St.step
      dsimp only
      split
      · rename_i hrunning
        exact
          { h with
            conns := fun i c hc => (h.conns i c hc).later (fun _ => rfl) (Nat.le_refl _)
            stop := fun _ => rfl
            joined := fun he => by cases he
            gone := fun he => by cases he
            unserved := fun _ => h.unserved (by rw [hrunning]; rfl)
            releasing := fun n he => by cases he
            offering := fun n g he => by cases he
            released := fun he => he.elim (fun he => by cases he) fun he => by cases he }
      · exact h
    | accept connected => exact inv_accept h connected
    | server a => exact inv_server h a
    | conn i a => exact inv_conn h i a
    | scheduler i a => exact inv_scheduler h i a

/-! ## The active session -/

/-- The session may be started, and has not been given up. -/
def ConnPc.playing : ConnPc → Bool
  | .top | .read | .cancel | .join | .clear => true
  | _ => false

structure Playing (s : St) : Prop where
  ids : ∀ (i : Nat) (c : Conn), s.conns[i]? = some c → c.pc ≠ .begin → c.id < s.shared.nextId
  distinct : ∀ (i j : Nat) (c d : Conn), s.conns[i]? = some c → s.conns[j]? = some d →
    c.pc ≠ .begin → d.pc ≠ .begin → c.id = d.id → i = j
  active : ∀ id name, s.shared.active = some (id, name) → ∃ (i : Nat) (c : Conn),
    s.conns[i]? = some c ∧ c.id = id ∧ c.started = true ∧ c.pc.playing = true ∧
      c.session.sessionId = name

/-- What a step of one of its threads does to the identity of a connection and
to the active session. -/
structure Keeps (sh sh' : Shared) (c c' : Conn) : Prop where
  identity : (c'.id = c.id ∧ sh'.nextId = sh.nextId ∧ c.pc ≠ .begin) ∨
    (c'.id = sh.nextId ∧ sh'.nextId = sh.nextId + 1 ∧ c.pc = .begin) ∨
    (c'.pc = c.pc ∧ c'.id = c.id ∧ sh'.nextId = sh.nextId)
  active : (sh'.active = sh.active ∧ ∀ name, sh.active = some (c.id, name) →
      c.started = true → c.pc.playing = true → c'.started = true ∧ c'.pc.playing = true ∧
        c'.session = c.session ∧ c'.id = c.id) ∨
    (sh'.active = some (c'.id, c'.session.sessionId) ∧ c'.started = true ∧
      c'.pc.playing = true) ∨ sh'.active = none

/-- A thread of a connection takes a step. -/
theorem Playing.update {s : St} (h : Playing s) {i : Nat} {c c' : Conn}
    (hc : s.conns[i]? = some c) {shared : Shared} {permits : Nat} {log : List (Option Nat × Act)}
    (hkeeps : Keeps s.shared shared c c') :
    Playing { s with shared, permits, conns := s.conns.set i c', log } := by
  obtain ⟨hid, hactive⟩ := hkeeps
  have hi : i < s.conns.length := (List.getElem?_eq_some_iff.mp hc).1
  have hnext : s.shared.nextId ≤ shared.nextId := by omega
  have hset (j : Nat) (d : Conn) (hd : (s.conns.set i c')[j]? = some d) :
      (j = i ∧ d = c') ∨ (j ≠ i ∧ s.conns[j]? = some d) := by
    by_cases hij : i = j
    · subst hij
      rw [List.getElem?_set_self hi] at hd
      cases hd
      exact .inl ⟨rfl, rfl⟩
    · rw [List.getElem?_set_ne hij] at hd
      exact .inr ⟨Ne.symm hij, hd⟩
  have hid' (hpc : c'.pc ≠ .begin) : (c'.id = c.id ∧ c.pc ≠ .begin) ∨
      (c'.id = s.shared.nextId ∧ shared.nextId = s.shared.nextId + 1) := by
    obtain ⟨he, -, hne⟩ | ⟨he, hn, -⟩ | ⟨hp, he, -⟩ := hid
    · exact .inl ⟨he, hne⟩
    · exact .inr ⟨he, hn⟩
    · exact .inl ⟨he, hp ▸ hpc⟩
  have hother (j : Nat) (d : Conn) (hj : j ≠ i) (hd : s.conns[j]? = some d) (hpc : d.pc ≠ .begin)
      (hpc' : c'.pc ≠ .begin) : d.id ≠ c'.id := by
    intro he
    obtain ⟨hc', hne⟩ | ⟨hc', -⟩ := hid' hpc'
    · exact hj (h.distinct j i d c hd hc hpc hne (he.trans hc'))
    · have := h.ids j d hd hpc
      omega
  refine ⟨fun j d hd hpc => ?_, fun j k d e hd he hpd hpe hde => ?_, fun id name he => ?_⟩
  · obtain ⟨rfl, rfl⟩ | ⟨-, hd⟩ := hset j d hd
    · obtain ⟨hc', hne⟩ | ⟨hc', hn⟩ := hid' hpc
      · have := h.ids j c hc hne
        show d.id < shared.nextId
        omega
      · show d.id < shared.nextId
        omega
    · exact (h.ids j d hd hpc).trans_le hnext
  · obtain ⟨rfl, rfl⟩ | ⟨hj, hdj⟩ := hset j d hd
    · obtain ⟨rfl, rfl⟩ | ⟨hk, hek⟩ := hset k e he
      · rfl
      · exact absurd hde.symm (hother k e hk hek hpe hpd)
    · obtain ⟨rfl, rfl⟩ | ⟨hk, hek⟩ := hset k e he
      · exact absurd hde (hother j d hj hdj hpd hpe)
      · exact h.distinct j k d e hdj hek hpd hpe hde
  · obtain ⟨hsame, hkept⟩ | ⟨hnew, hstarted, hplaying⟩ | hnone := hactive
    · obtain ⟨j, d, hd, hdid, hstarted, hplaying, hname⟩ := h.active id name (hsame ▸ he)
      by_cases hj : j = i
      · subst hj
        obtain rfl : c = d := Option.some.inj (hc.symm.trans hd)
        obtain ⟨hs, hp, hsession, hcid⟩ := hkept name (hsame ▸ hdid ▸ he) hstarted hplaying
        exact ⟨j, c', List.getElem?_set_self hi, hcid.trans hdid, hs, hp, hsession ▸ hname⟩
      · exact ⟨j, d, (List.getElem?_set_ne (Ne.symm hj)).trans hd, hdid, hstarted, hplaying, hname⟩
    · have he : shared.active = some (id, name) := he
      rw [hnew] at he
      cases he
      exact ⟨i, c', List.getElem?_set_self hi, rfl, hstarted, hplaying, rfl⟩
    · have he : shared.active = some (id, name) := he
      rw [hnone] at he
      cases he

/-- What a read does to the active session. -/
theorem read_active (sh : Shared) (c : Conn) (a : Answers) :
    (c.read sh a).2.1.id = c.id ∧ (c.read sh a).1.nextId = sh.nextId ∧
      (c.read sh a).2.1.pc.playing = true ∧
      (((c.read sh a).1.active = sh.active ∧ (c.read sh a).2.1.started = c.started ∧
          (c.read sh a).2.1.session = c.session) ∨
        ((c.read sh a).1.active = some (c.id, (c.read sh a).2.1.session.sessionId) ∧
          (c.read sh a).2.1.started = true)) := by
  unfold Conn.read Conn.unexpected
  split
  · split
    · rename_i hid
      exact ⟨rfl, rfl, rfl, .inr ⟨by rw [hid.1], rfl⟩⟩
    · exact ⟨rfl, rfl, rfl, .inl ⟨rfl, rfl, rfl⟩⟩
  · split
    · exact ⟨rfl, rfl, rfl, .inl ⟨rfl, rfl, rfl⟩⟩
    · exact ⟨rfl, rfl, rfl, .inl ⟨rfl, rfl, rfl⟩⟩
  · exact ⟨rfl, rfl, rfl, .inl ⟨rfl, rfl, rfl⟩⟩
  · split
    · exact ⟨rfl, rfl, rfl, .inl ⟨rfl, rfl, rfl⟩⟩
    · exact ⟨rfl, rfl, rfl, .inl ⟨rfl, rfl, rfl⟩⟩

theorem handshake_id (c : Conn) (a : Answers) : (c.handshake a).1.id = c.id := by
  unfold Conn.handshake
  split
  · split
    · rfl
    · rfl
  · rfl
  · rfl

theorem step_keeps (sh : Shared) (c : Conn) (a : Answers) :
    Keeps sh (c.step sh a).1 c (c.step sh a).2.1 := by
  have hkeep {c' : Conn} (hne : c.pc ≠ .begin) (hid : c'.id = c.id)
      (he : c'.started = c.started ∧ c'.session = c.session)
      (hplaying : c.pc.playing = true → c'.pc.playing = true) : Keeps sh sh c c' :=
    ⟨.inl ⟨hid, rfl, hne⟩, .inl ⟨rfl, fun _ _ hs hp => ⟨he.1.trans hs, hplaying hp, he.2, hid⟩⟩⟩
  unfold Conn.step
  cases hpc : c.pc with
  | begin =>
    refine ⟨.inr (.inl ⟨rfl, rfl, hpc⟩), .inl ⟨rfl, fun _ _ _ hp => ?_⟩⟩
    rw [hpc] at hp
    cases hp
  | handshake =>
    refine ⟨.inl ⟨handshake_id c a, rfl, fun he => ?_⟩, .inl ⟨rfl, fun _ _ _ hp => ?_⟩⟩
    · rw [hpc] at he
      cases he
    · rw [hpc] at hp
      cases hp
  | read =>
    obtain ⟨hid, hnext, hplaying, hactive⟩ := read_active sh c a
    refine ⟨.inl ⟨hid, hnext, fun he => ?_⟩, ?_⟩
    · rw [hpc] at he
      cases he
    · obtain ⟨hactive, he⟩ | ⟨hactive, hstarted⟩ := hactive
      · exact .inl ⟨hactive, fun _ _ hs _ => ⟨he.1.trans hs, hplaying, he.2, hid⟩⟩
      · exact .inr (.inl ⟨hactive.trans (by rw [hid]), hstarted, hplaying⟩)
  | clear =>
    refine ⟨.inl ⟨rfl, rfl, fun he => by rw [hpc] at he; cases he⟩, ?_⟩
    dsimp only
    split
    · exact .inr (.inr rfl)
    · rename_i hcond
      refine .inl ⟨rfl, fun name hactive hstarted _ => absurd ?_ hcond⟩
      rw [hstarted, hactive]
      simp
  | top =>
    refine hkeep (by rw [hpc]; exact fun he => by cases he) rfl ⟨rfl, rfl⟩ fun _ => ?_
    dsimp only
    split
    · rfl
    · rfl
  | join =>
    dsimp only
    split
    · exact hkeep (by rw [hpc]; exact fun he => by cases he) rfl ⟨rfl, rfl⟩ fun _ => rfl
    · exact hkeep (by rw [hpc]; exact fun he => by cases he) rfl ⟨rfl, rfl⟩ id
  | cancel => exact hkeep (by rw [hpc]; exact fun he => by cases he) rfl ⟨rfl, rfl⟩ fun _ => rfl
  | checkStop | release | releaseOffer | reply | ended | gone =>
    exact hkeep (by rw [hpc]; exact fun he => by cases he) rfl ⟨rfl, rfl⟩
      fun hp => by rw [hpc] at hp; cases hp

theorem playing_conn {s : St} (h : Playing s) (i : Nat) (a : Answers) :
    Playing (s.connStep i a) := by
  unfold St.connStep
  cases hc : s.conns[i]? with
  | none => exact h
  | some c =>
    have hkeeps := step_keeps s.shared c a
    exact h.update hc ⟨hkeeps.identity, hkeeps.active⟩

theorem playing_scheduler {s : St} (h : Playing s) (i : Nat) (a : Answers) :
    Playing (s.schedulerStep i a) := by
  unfold St.schedulerStep
  cases hc : s.conns[i]? with
  | none => exact h
  | some c =>
    have hsame : (c.schedule s.shared a).1.pc = c.pc ∧ (c.schedule s.shared a).1.id = c.id ∧
        (c.schedule s.shared a).1.session = c.session ∧
        (c.started = true → (c.schedule s.shared a).1.started = true) := by
      unfold Conn.schedule
      split
      · exact ⟨rfl, rfl, rfl, id⟩
      · exact ⟨rfl, rfl, rfl, id⟩
    obtain ⟨hpc, hid, hsession, hstarted⟩ := hsame
    exact h.update hc ⟨.inr (.inr ⟨hpc, hid, rfl⟩),
      .inl ⟨rfl, fun _ _ hs hp => ⟨hstarted hs, hpc ▸ hp, hsession, hid⟩⟩⟩

theorem playing_accept {s : St} (h : Playing s) (connected : Bool) :
    Playing (s.acceptStep connected) := by
  unfold St.acceptStep
  split
  · exact { h with }
  · split
    · have hold (i : Nat) (c : Conn) (hc : (s.conns ++ [Conn.accepted])[i]? = some c)
          (hpc : c.pc ≠ .begin) : s.conns[i]? = some c := by
        rcases Nat.lt_trichotomy i s.conns.length with hlt | heq | hgt
        · rwa [List.getElem?_append_left hlt] at hc
        · rw [heq, List.getElem?_concat_length] at hc
          cases hc
          exact absurd rfl hpc
        · have := (List.getElem?_eq_some_iff.mp hc).1
          rw [List.length_append, List.length_singleton] at this
          omega
      refine ⟨fun i c hc hpc => h.ids i c (hold i c hc hpc) hpc,
        fun i j c d hc hd hpc hpd hid => ?_, fun id name he => ?_⟩
      · exact h.distinct i j c d (hold i c hc hpc) (hold j d hd hpd) hpc hpd hid
      · obtain ⟨i, c, hc, hrest⟩ := h.active id name he
        have hi := (List.getElem?_eq_some_iff.mp hc).1
        exact ⟨i, c, (List.getElem?_append_left hi).trans hc, hrest⟩
    · exact { h with }
  · exact h

theorem playing_server {s : St} (h : Playing s) (a : Answers) : Playing (s.serverStep a) := by
  unfold St.serverStep
  split
  · exact h
  · exact h
  · exact { h with }
  · exact { h with }
  · exact { h with }
  · exact { h with }
  · exact { h with active := fun id name he => by cases he }

theorem playing_inductive : system.Inductive Playing where
  init s h := by
    refine ⟨fun i c hc => ?_, fun i j c d hc => ?_, fun id name he => ?_⟩
    · rw [h.conns] at hc
      cases hc
    · rw [h.conns] at hc
      cases hc
    · rw [h.active] at he
      cases he
  step s l s' h hst := by
    obtain rfl : s' = s.step l := hst
    cases l with
    | tick | reset => exact { h with }
    | stop =>
      unfold St.step
      dsimp only
      split
      · exact { h with }
      · exact h
    | clearMetrics => exact { h with active := fun id name he => by cases he }
    | accept connected => exact playing_accept h connected
    | server a => exact playing_server h a
    | conn i a => exact playing_conn h i a
    | scheduler i a => exact playing_scheduler h i a

/-! ## What the queue took -/

def accepted (e : Enqueue) : Option MidiFrame := if e.result = .enqueued then e.submitted else none

/-- The frames of a connection that were admitted. -/
def acceptedOf (acts : List Act) : List MidiFrame :=
  acts.filterMap fun act =>
    match act with
    | .tried t => accepted t.enqueue
    | .release e => accepted e
    | .reply _ => none

theorem acceptedOf_split {acts : List Act}
    (h : AtEach (fun before x => x.isTry = true → ∀ y ∈ before, y.final = false) acts) :
    acceptedOf acts = (triesOf acts).filterMap (fun t => accepted t.enqueue) ++
      (releasesOf acts).filterMap accepted := by
  induction acts using List.reverseRecOn with
  | nil => rfl
  | append_singleton acts act ih =>
    have ih := ih fun xs x ys he => h xs x (ys ++ [act]) (by rw [he]; simp)
    have hsplit : acceptedOf (acts ++ [act]) = acceptedOf acts ++ acceptedOf [act] :=
      List.filterMap_append ..
    rw [hsplit, triesOf_append, releasesOf_append, ih]
    cases act with
    | tried t =>
      have hnone : releasesOf acts = [] := releasesOf_opened (h acts (.tried t) [] rfl rfl)
      rw [hnone, List.filterMap_append]
      cases haccepted : accepted t.enqueue with
      | none => simp [acceptedOf, triesOf, releasesOf, haccepted]
      | some f => simp [acceptedOf, triesOf, releasesOf, haccepted]
    | release e =>
      rw [List.filterMap_append]
      cases haccepted : accepted e with
      | none => simp [acceptedOf, triesOf, releasesOf, haccepted]
      | some f => simp [acceptedOf, triesOf, releasesOf, haccepted]
    | reply frame => simp [acceptedOf, triesOf, releasesOf]

/-- Frames of one source do to what it holds what they do to an instrument. -/
theorem claims_foldl {name : String} {fs : List MidiFrame}
    (h : ∀ f ∈ fs, f.source = name ∧ f.data ≠ [0xFF]) : ∀ st : SourceMidiState,
    claims (fs.foldl observe st) name = (fs.map (·.data)).foldl hear (claims st name) := by
  induction fs with
  | nil => exact fun _ => rfl
  | cons f fs ih =>
    intro st
    obtain ⟨hsource, hdata⟩ := h f List.mem_cons_self
    have hobserve : claims (observe st f) name = hear (claims st name) f.data := by
      funext held
      rw [claims_observe st hdata, if_pos hsource.symm]
      rfl
    rw [List.foldl_cons, ih (fun f' hf' => h f' (List.mem_cons_of_mem f hf')), hobserve]
    rfl

theorem exists_resetMessage_off (h : Held) : ∃ m ∈ resetMessages, effect m h = some false := by
  have hmem (controller : UInt8) (hc : controller ∈ [64, 66, 69, 123]) :
      [0xB0 ||| UInt8.ofNat h.channel, controller, 0] ∈ resetMessages :=
    List.mem_flatMap.mpr ⟨h.channel, List.mem_finRange _, List.mem_map.mpr ⟨controller, hc, rfl⟩⟩
  cases h with
  | note c n =>
    obtain ⟨-, -, hs, hc⟩ := release_status c
    refine ⟨_, hmem 123 (by decide), ?_⟩
    simp [effect, Held.channel, hs, hc]
  | pedal c p =>
    have hpedal : holdPedals p ∈ [64, 66, 69, 123] := by
      fin_cases p <;> decide
    refine ⟨_, hmem (holdPedals p) hpedal, ?_⟩
    exact (effect_releaseMessage (.pedal c p) (.pedal c p)).trans (if_pos rfl)

theorem resetMessages_off (h : Held) (held : Held → Bool) :
    resetMessages.foldl hear held h = false :=
  foldl_hear_off (fun m hm => effect_of_isCritical (resetMessages_critical m hm) h)
    (exists_resetMessage_off h) held

/-- The releases, all admitted, as frames of their source. -/
theorem Released.frames {name : String} {es : List Enqueue}
    (h : Released name resetMessages.length es) (hall : ∀ e ∈ es, e.result = .enqueued) :
    (es.filterMap accepted).map (fun f => (f.source, f.data)) =
      resetMessages.map fun data => (name, data) := by
  have haccepted : es.filterMap accepted = es.filterMap (·.submitted) :=
    List.filterMap_congr fun e he => if_pos (hall e he)
  have hmessages := h.messages
  rw [List.take_length] at hmessages
  rw [haccepted, List.map_filterMap]
  have := congrArg (List.filterMap id) hmessages
  rw [List.filterMap_map, List.filterMap_map] at this
  exact this.trans (congrFun List.filterMap_eq_map resetMessages)

/-- After all the releases of a source, it holds nothing. -/
theorem Released.silent {name : String} {es : List Enqueue}
    (h : Released name resetMessages.length es) (hall : ∀ e ∈ es, e.result = .enqueued)
    (st : SourceMidiState) (held : Held) :
    claims ((es.filterMap accepted).foldl observe st) name held = false := by
  have hframes := h.frames hall
  generalize es.filterMap accepted = fs at hframes
  have hreset : ∀ m ∈ resetMessages, m ≠ [0xFF] := by decide +kernel
  have hfs : ∀ f ∈ fs, f.source = name ∧ f.data ≠ [0xFF] := by
    intro f hf
    have hmem : (f.source, f.data) ∈ fs.map fun f => (f.source, f.data) :=
      List.mem_map.mpr ⟨f, hf, rfl⟩
    rw [hframes] at hmem
    obtain ⟨data, hdata, he⟩ := List.mem_map.mp hmem
    obtain ⟨hsource, hd⟩ := Prod.mk.inj he
    exact ⟨hsource.symm, hd ▸ hreset data hdata⟩
  have hdata : fs.map (·.data) = resetMessages := by
    have := congrArg (List.map Prod.snd) hframes
    rw [List.map_map, List.map_map] at this
    exact this.trans (List.map_id _)
  rw [claims_foldl hfs, hdata]
  exact resetMessages_off held _

/-- What was prepared is never refused as no MIDI message. -/
theorem Offered.valid {session : PreparedSession} {start : Nat} {t : Try}
    (h : Offered session start t) : t.enqueue.result ≠ .invalidMessage := by
  obtain ⟨e, he, -, published, generation, first, retry, hoffer⟩ := h
  have hnormal := session.wellFormed.normal e (List.mem_of_getElem? he)
  rw [hoffer, tryEnqueueMidiFrame_some hnormal]
  split
  · exact fun he => by cases he
  · unfold enqueuePreparedMidiFrame
    split
    · exact fun he => by cases he
    · split
      · split
        · exact fun he => by cases he
        · exact fun he => by cases he
        · exact fun he => by cases he
      · exact fun he => by cases he
    · exact fun he => by cases he

/-- Of every connection, in every state reached: (1) the events of its session
have been offered in order, none twice and none passed over, each no sooner
than it is due and as a message that the queue can take; (2) none is offered
after a release or the final reply, of which there is one at most; (3) what
`Completed` reports counts every event once; (4) when `Stopped` is sent, every
release has been admitted or a reset of the whole input asked for, and with all
admitted nothing of what the queue took is left held for the source. -/
theorem reliable_playback (s : St) (h : system.Reachable s) {i : Nat} {c : Conn}
    (hc : s.conns[i]? = some c) :
    let acts := actsOf (some i) s.log
    ((triesOf acts).map (·.index) = List.range (triesOf acts).length ∧
      ∀ t ∈ triesOf acts, t.enqueue.result ≠ .invalidMessage ∧
        ∃ scheduler, c.scheduler = some scheduler ∧ Offered c.session scheduler.start t) ∧
    (AtEach (fun before x => x.isTry = true → ∀ y ∈ before, y.final = false) acts ∧
      (acts.filter Act.last).length ≤ 1) ∧
    (∀ sessionId processed maxLateUs dropped,
      .reply (.completed sessionId processed maxLateUs dropped) ∈ acts →
        sessionId = c.session.sessionId ∧
          Reported c.session processed dropped (triesOf acts)) ∧
    ∀ sessionId, .reply (.stopped sessionId) ∈ acts → sessionId = c.session.sessionId ∧
      Released (source c.session) resetMessages.length (releasesOf acts) ∧
        ((∀ e ∈ releasesOf acts, e.result = .enqueued) → ∀ st held,
          claims ((acceptedOf acts).foldl observe st) (source c.session) held = false) := by
  have hinv := (inv_inductive.reachable s h).conns i c hc
  intro acts
  refine ⟨?_, ⟨hinv.quiet, hinv.once⟩, hinv.completed, fun sessionId hmem => ?_⟩
  · cases hs : c.scheduler with
    | none =>
      have hnone : triesOf acts = [] := hinv.unscheduled hs
      rw [hnone]
      exact ⟨rfl, fun t ht => by cases ht⟩
    | some scheduler =>
      have hscheduled := hinv.scheduled scheduler hs
      refine ⟨hscheduled.indices, fun t ht => ?_⟩
      have hoffered := hscheduled.offered t ht
      exact ⟨hoffered.valid, scheduler, rfl, hoffered⟩
  · obtain ⟨hid, hreleased⟩ := hinv.stopped sessionId hmem
    refine ⟨hid, hreleased, fun hall st held => ?_⟩
    rw [acceptedOf_split hinv.quiet, List.foldl_append]
    exact hreleased.silent hall _ held

/-- In every state reached: at most eight connections are served, each with a
permit; the active session is one that is being played; the server releases
only once it accepts no more and every connection has ended, after all that
they did, and when it has stopped every release of its own has been admitted or
a reset asked for, and no session is active. -/
theorem playback_server (s : St) (h : system.Reachable s) :
    (s.permits = (s.conns.countP fun c => c.pc ≠ .gone) ∧ s.permits ≤ maxConnections) ∧
    (∀ id name, s.shared.active = some (id, name) → ∃ (i : Nat) (c : Conn),
      s.conns[i]? = some c ∧ c.id = id ∧ c.started = true ∧ c.pc.playing = true ∧
        c.session.sessionId = name) ∧
    AtEach (fun before x => x.1 ≠ none → ∀ y ∈ before, y.1 ≠ none) s.log ∧
    ((∃ x ∈ s.log, x.1 = none) → s.server.closing = true) ∧
    (s.server.closing = true → s.accept = .ended ∧ ∀ c ∈ s.conns, c.pc = .gone) ∧
    (s.server = .stopped → (∀ c ∈ s.conns, c.pc = .gone) ∧ s.shared.active = none ∧
      Released serverName resetMessages.length (releasesOf (actsOf none s.log))) := by
  have hinv := inv_inductive.reachable s h
  have hplaying := playing_inductive.reachable s h
  refine ⟨⟨hinv.permits, hinv.limit⟩, hplaying.active, hinv.order, ?_,
    fun hclosing => ⟨hinv.joined (joined_of_closing hclosing), hinv.gone hclosing⟩,
    fun hstopped => ?_⟩
  · rintro ⟨x, hx, hserver⟩
    by_contra hopen
    exact hinv.unserved (Bool.eq_false_of_not_eq_true hopen) x hx hserver
  have hgone := hinv.gone (by rw [hstopped]; rfl)
  refine ⟨hgone, ?_, hinv.released (.inr hstopped)⟩
  cases hactive : s.shared.active with
  | none => rfl
  | some session =>
    obtain ⟨i, c, hc, -, -, hp, -⟩ := hplaying.active session.1 session.2 hactive
    rw [hgone c (List.mem_of_getElem? hc)] at hp
    cases hp

/-! ### A session of one note -/

def answers (read : Read) : Answers := ⟨true, read, true, none, none, none⟩

def started : St where
  shared := ⟨0, 0, false, none, 1⟩
  accept := .check
  server := .running
  permits := 0
  conns := []
  log := []

def idle : Read := .error true ""

/-- A peer plays one note and then stops the session. -/
def oneNote : List Label :=
  [.accept true, .accept true, .conn 0 (answers idle),
    .conn 0 (answers (.frame (.prepare 1 "s" "song" 1 [⟨0, 0, [0x90, 60, 100]⟩]))),
    .conn 0 (answers idle), .conn 0 (answers (.frame (.start "s" 0)))] ++
  List.replicate 8 (.scheduler 0 (answers idle)) ++
  [.conn 0 (answers idle), .conn 0 (answers (.frame (.stop "s"))), .conn 0 (answers idle)] ++
  List.replicate 3 (.scheduler 0 (answers idle)) ++
  List.replicate 134 (.conn 0 (answers idle))

def afterNote : St := oneNote.foldl St.step started

theorem afterNote_reachable : system.Reachable afterNote :=
  ⟨started, oneNote, ⟨rfl, rfl, rfl, rfl, rfl, rfl, rfl⟩,
    LTS.run_foldl (fun _ _ => rfl) oneNote started⟩

theorem reliable_playback_oneNote : ∃ c, afterNote.conns[0]? = some c ∧
    ∀ st held, claims ((acceptedOf (actsOf (some 0) afterNote.log)).foldl observe st)
      (source c.session) held = false := by
  obtain ⟨c, hc⟩ := Option.isSome_iff_exists.mp
    (show afterNote.conns[0]?.isSome = true by decide +kernel)
  obtain ⟨-, -, -, hstopped⟩ := reliable_playback afterNote afterNote_reachable hc
  obtain ⟨-, -, hsilent⟩ := hstopped "s" (by decide +kernel)
  exact ⟨c, hc, hsilent (by decide +kernel)⟩

/-- The server is stopped after that. -/
def stopping : List Label := [.stop, .accept true] ++ List.replicate 132 (.server (answers idle))

def afterStop : St := stopping.foldl St.step afterNote

theorem afterStop_reachable : system.Reachable afterStop := by
  obtain ⟨s₀, ls, h₀, hr⟩ := afterNote_reachable
  exact ⟨s₀, ls ++ stopping, h₀, hr.append (LTS.run_foldl (fun _ _ => rfl) stopping afterNote)⟩

theorem playback_server_stopped : afterStop.shared.active = none ∧
    Released serverName resetMessages.length (releasesOf (actsOf none afterStop.log)) :=
  ((playback_server afterStop afterStop_reachable).2.2.2.2.2 (by decide +kernel)).2

end RtpOscMidi.L5.ReliablePlayback
