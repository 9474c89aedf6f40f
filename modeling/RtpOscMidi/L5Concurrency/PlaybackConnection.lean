import RtpOscMidi.L5Concurrency.PlaybackSession

/-!
# A connection of reliable playback

A peer connects, prepares a session, starts it and may stop it. The thread of
the connection reads what the peer sends and ends with the releases of what the
session may have left on; what a read of the socket gives is any frame, a
time-out or an error. A step is at most one access (`stop` and `cancel`, or
`stop` and `done`, are read together).

* `ConnInv`: nothing is offered after a release or the final reply; a completed
  session is reported as its scheduler counted it; one that was stopped has had
  its releases.
* `conn_step`, `conn_schedule`: the two threads of a connection keep it.
-/
namespace RtpOscMidi.L5.ReliablePlayback

open Core L1.MidiMessage L2.InputRouting

/-! ## A connection -/

/-- mirrors src-tauri/src/reliable_playback.rs:602-603 -/
def resetMessages : List (List UInt8) :=
  (List.finRange 16).flatMap fun c : Fin 16 =>
    [64, 66, 69, 123].map fun controller => [0xB0 ||| UInt8.ofNat c, controller, 0]

/-- One message of `inject_all_notes_off`; it is not routed.
mirrors src-tauri/src/reliable_playback.rs:600-615 -/
def inject (source : String) (n generation : Nat) (a : Answers) : List Act :=
  match resetMessages[n]? with
  | none => []
  | some data => [.release (enqueuePreparedMidiFrame ⟨generation, source, data⟩ a.first a.retry)]

/-- Where the thread of a connection is; `ended` is the end of
`handle_connection`, after which the permit is dropped.
mirrors src-tauri/src/reliable_playback.rs:261-433 -/
inductive ConnPc where
  | begin
  | handshake
  | top
  | read
  | cancel
  | join
  | clear
  | checkStop
  | release (n : Nat)
  | releaseOffer (n generation : Nat)
  | reply
  | ended
  | gone
  deriving DecidableEq, Repr

/-- `id` and `session` have no meaning before the handshake. -/
structure Conn where
  pc : ConnPc
  id : Nat
  session : PreparedSession
  started : Bool
  stopRequested : Bool
  failed : Bool
  cancel : Bool
  done : Bool
  scheduler : Option Scheduler

theorem wellFormed_nil : WellFormed [] where
  numbered k e he := by cases he
  sorted := .nil
  bounded e he := by cases he
  normal e he := by cases he

def Conn.accepted : Conn where
  pc := .begin
  id := 0
  session := ⟨"", "", [], wellFormed_nil⟩
  started := false
  stopRequested := false
  failed := false
  cancel := false
  done := false
  scheduler := none

/-- mirrors src-tauri/src/reliable_playback.rs:277-335 -/
def Conn.handshake (c : Conn) (a : Answers) : Conn × List Act :=
  match a.read with
  | .frame (.prepare version sessionId song total events) =>
    match validatePrepare version sessionId song total events with
    | .ok session =>
      ({ c with session, pc := if a.sent then .top else .ended },
        [.reply (.prepared session.sessionId session.events.length)])
    | .error (sessionId, message) =>
      ({ c with pc := .ended }, [.reply (.error sessionId message)])
  | .frame _ => ({ c with pc := .ended }, [.reply (.error none "first frame must be prepare")])
  | .error _ message =>
    ({ c with pc := .ended }, [.reply (.error none s!"read prepare failed: {message}")])

def Conn.unexpected (c : Conn) : Conn × List Act :=
  ({ c with failed := true, pc := .cancel },
    [.reply (.error (some c.session.sessionId) "unexpected reliable playback frame")])

/-- mirrors src-tauri/src/reliable_playback.rs:344-396 -/
def Conn.read (sh : Shared) (c : Conn) (a : Answers) : Shared × Conn × List Act :=
  match a.read with
  | .frame (.start sessionId startDelayMs) =>
    if sessionId = c.session.sessionId ∧ c.started = false then
      ({ sh with active := some (c.id, sessionId) },
        { c with started := true, scheduler := some (.spawned startDelayMs), pc := .top }, [])
    else (sh, c.unexpected)
  | .frame (.stop sessionId) =>
    if sessionId = c.session.sessionId then
      (sh, { c with stopRequested := true, pc := .cancel }, [])
    else (sh, c.unexpected)
  | .frame (.prepare _ _ _ _ _) => (sh, c.unexpected)
  | .error timedOut _ =>
    (sh, if timedOut then { c with pc := .top } else { c with failed := true, pc := .cancel }, [])

/-- The reply that ends the session, if any.
mirrors src-tauri/src/reliable_playback.rs:414-432 -/
def Conn.lastReply (c : Conn) : List Act :=
  if c.stopRequested then [.reply (.stopped c.session.sessionId)]
  else if c.failed then []
  else match c.scheduler.bind (·.completion) with
    | some r =>
      [.reply (.completed c.session.sessionId r.processed r.maxLateUs r.dropped)]
    | none => []

/-- mirrors src-tauri/src/reliable_playback.rs:261-433 -/
def Conn.step (sh : Shared) (c : Conn) (a : Answers) : Shared × Conn × List Act :=
  match c.pc with
  | .begin =>
    ({ sh with nextId := sh.nextId + 1 },
      { c with id := sh.nextId, pc := if a.setup then .handshake else .ended }, [])
  | .handshake => (sh, c.handshake a)
  | .top => (sh, { c with pc := if sh.stop || c.done then .cancel else .read }, [])
  | .read => c.read sh a
  | .cancel =>
    (sh, { c with cancel := c.cancel || (c.stopRequested || c.failed || sh.stop), pc := .join }, [])
  | .join => (sh, if c.scheduler.all (·.pc = .ended) then { c with pc := .clear } else c, [])
  | .clear =>
    ({ sh with
        active :=
          if (c.started || c.stopRequested) && sh.active.any (·.1 = c.id) then none
          else sh.active },
      { c with pc := .checkStop }, [])
  | .checkStop =>
    (sh, { c with
        pc :=
          if sh.stop then .ended
          else if (c.stopRequested || c.failed) && (c.started || c.stopRequested) then .release 0
          else .reply }, [])
  | .release n =>
    (sh, { c with
        pc := if n < resetMessages.length then .releaseOffer n sh.generation else .reply }, [])
  | .releaseOffer n generation =>
    (sh, { c with pc := .release (n + 1) }, inject (source c.session) n generation a)
  | .reply => (sh, { c with pc := .ended }, c.lastReply)
  | .ended => (sh, { c with pc := .gone }, [])
  | .gone => (sh, c, [])

/-- A step of the scheduler of the connection, if it has one. -/
def Conn.schedule (sh : Shared) (c : Conn) (a : Answers) : Conn × List Act :=
  match c.scheduler with
  | none => (c, [])
  | some s =>
    let r := s.step c.session (c.cancel || sh.stop) sh a
    ({ c with scheduler := some r.1, done := c.done || s.pc = .done }, r.2)

/-! ## What a connection does -/

def Act.isTry : Act → Bool
  | .tried _ => true
  | _ => false

/-- The reply that ends a session. -/
def Act.last : Act → Bool
  | .reply (.completed _ _ _ _) | .reply (.stopped _) => true
  | _ => false

def Act.final : Act → Bool
  | .release _ => true
  | act => act.last

/-- The first `n` messages of `inject_all_notes_off`, each of them admitted, or
a reset of the whole input asked for in its place. -/
structure Released (source : String) (n : Nat) (es : List Enqueue) : Prop where
  messages : (es.map fun e => e.submitted.map fun f => (f.source, f.data)) =
    (resetMessages.take n).map fun data => some (source, data)
  heard : ∀ e ∈ es, e.result = .enqueued ∨ 0 < e.resets

/-- What `Completed` reports: every event was offered, and every offer is
counted once. -/
structure Reported (session : PreparedSession) (processed dropped : Nat) (tries : List Try) :
    Prop where
  offered : tries.length = session.events.length
  enqueued : (tries.countP fun t => t.enqueue.result = .enqueued) = processed
  lost : (tries.countP fun t => isDropped t.enqueue.result) = dropped
  total : (tries.countP fun t => t.enqueue.result = .filtered) + processed + dropped =
    session.events.length

def ConnPc.early : ConnPc → Bool
  | .begin | .handshake => true
  | _ => false

/-- The scheduler has ended, if there was one. -/
def ConnPc.joined : ConnPc → Bool
  | .begin | .handshake | .top | .read | .cancel | .join => false
  | _ => true

/-- Nothing final has been done. -/
def ConnPc.opened : ConnPc → Bool
  | .release _ | .releaseOffer _ _ | .reply | .ended | .gone => false
  | _ => true

def ConnPc.over : ConnPc → Bool
  | .ended | .gone => true
  | _ => false

structure ConnInv (stop : Bool) (now : Nat) (acts : List Act) (c : Conn) : Prop where
  scheduled : ∀ s, c.scheduler = some s →
    Scheduled c.session (c.cancel || stop) now s (triesOf acts)
  unscheduled : c.scheduler = none → triesOf acts = []
  started : c.scheduler.isSome = c.started
  early : c.pc.early = true → c.scheduler = none ∧ c.stopRequested = false ∧ acts = []
  joined : c.pc.joined = true → ∀ s, c.scheduler = some s → s.pc = .ended
  quiet : AtEach (fun before x => x.isTry = true → ∀ y ∈ before, y.final = false) acts
  opened : c.pc.opened = true → ∀ y ∈ acts, y.final = false
  releasing : ∀ n, c.pc = .release n →
    n ≤ resetMessages.length ∧ Released (source c.session) n (releasesOf acts)
  offering : ∀ n generation, c.pc = .releaseOffer n generation →
    n < resetMessages.length ∧ Released (source c.session) n (releasesOf acts)
  replying : c.pc = .reply → c.stopRequested = true →
    Released (source c.session) resetMessages.length (releasesOf acts)
  unreplied : c.pc.over = false → ∀ y ∈ acts, y.last = false
  stopped : ∀ sessionId, .reply (.stopped sessionId) ∈ acts →
    sessionId = c.session.sessionId ∧
      Released (source c.session) resetMessages.length (releasesOf acts)
  completed : ∀ sessionId processed maxLateUs dropped,
    .reply (.completed sessionId processed maxLateUs dropped) ∈ acts →
      sessionId = c.session.sessionId ∧ Reported c.session processed dropped (triesOf acts)
  once : (acts.filter Act.last).length ≤ 1

theorem final_of_last {act : Act} (h : act.final = false) : act.last = false := by
  cases act with
  | release e => rfl
  | tried t => rfl
  | reply frame => exact h

section Conn

variable {stop : Bool} {now : Nat} {acts es : List Act} {c : Conn}

theorem triesOf_append : triesOf (acts ++ es) = triesOf acts ++ triesOf es :=
  List.filterMap_append ..

theorem releasesOf_append : releasesOf (acts ++ es) = releasesOf acts ++ releasesOf es :=
  List.filterMap_append ..

theorem releasesOf_opened (h : ∀ y ∈ acts, y.final = false) : releasesOf acts = [] := by
  refine List.filterMap_eq_nil_iff.mpr fun act hact => ?_
  cases act with
  | release e => exact absurd (h _ hact) Bool.noConfusion
  | tried t => rfl
  | reply frame => rfl

theorem filter_last_nil (h : ∀ y ∈ acts, y.last = false) : acts.filter Act.last = [] := by
  refine List.filter_eq_nil_iff.mpr fun act hact => ?_
  rw [h act hact]
  exact Bool.false_ne_true

/-- A reply that ends nothing. -/
def Act.plain : Act → Bool
  | .reply (.prepared _ _) | .reply (.error _ _) => true
  | _ => false

theorem plain_spec {act : Act} (h : act.plain = true) : act.isTry = false ∧ act.final = false ∧
    triesOf [act] = [] := by
  cases act with
  | tried t => cases h
  | release e => cases h
  | reply frame =>
    cases frame with
    | prepared | error => exact ⟨rfl, rfl, rfl⟩
    | completed | stopped => cases h

theorem triesOf_plain (h : ∀ y ∈ es, y.plain = true) : triesOf es = [] := by
  induction es with
  | nil => rfl
  | cons e es ih =>
    rw [← List.singleton_append, triesOf_append, (plain_spec (h e List.mem_cons_self)).2.2,
      ih fun y hy => h y (List.mem_cons_of_mem e hy)]
    rfl

theorem ConnInv.quiet_append (h : ConnInv stop now acts c) (hes : ∀ y ∈ es, y.isTry = false) :
    AtEach (fun before x => x.isTry = true → ∀ y ∈ before, y.final = false) (acts ++ es) := by
  refine h.quiet.append fun xs x ys he hx => ?_
  have := hes x (he ▸ List.mem_append_right _ List.mem_cons_self)
  rw [hx] at this
  cases this

/-- The thread moves on before anything final, with a plain reply at most. -/
theorem ConnInv.move (h : ConnInv stop now acts c) (hopened : c.pc.opened = true) {c' : Conn}
    (hpc : c'.pc.opened = true ∧ c'.pc.early = false) (hsession : c'.session = c.session)
    (hscheduler : c'.scheduler = c.scheduler) (hstarted : c'.started = c.started)
    (hcancel : c.cancel = true → c'.cancel = true)
    (hjoined : c'.pc.joined = true → ∀ s, c.scheduler = some s → s.pc = .ended)
    (hes : ∀ y ∈ es, y.plain = true) : ConnInv stop now (acts ++ es) c' := by
  have hfinal : ∀ y ∈ acts ++ es, y.final = false := by
    intro y hy
    cases List.mem_append.mp hy with
    | inl hy => exact h.opened hopened y hy
    | inr hy => exact (plain_spec (hes y hy)).2.1
  have hlast : ∀ y ∈ acts ++ es, y.last = false := fun y hy => final_of_last (hfinal y hy)
  have htries : triesOf (acts ++ es) = triesOf acts := by
    rw [triesOf_append, triesOf_plain hes, List.append_nil]
  refine
    { scheduled := fun s hs => ?_
      unscheduled := fun hs => ?_
      started := by rw [hscheduler, hstarted]; exact h.started
      early := fun he => by rw [hpc.2] at he; cases he
      joined := fun he s hs => hjoined he s (hscheduler ▸ hs)
      quiet := h.quiet_append fun y hy => (plain_spec (hes y hy)).1
      opened := fun _ => hfinal
      releasing := fun n he => by rw [he] at hpc; cases hpc.1
      offering := fun n g he => by rw [he] at hpc; cases hpc.1
      replying := fun he => by rw [he] at hpc; cases hpc.1
      unreplied := fun _ => hlast
      stopped := fun sessionId hmem => absurd (hlast _ hmem) Bool.noConfusion
      completed := fun _ _ _ _ hmem => absurd (hlast _ hmem) Bool.noConfusion
      once := by rw [filter_last_nil hlast]; exact Nat.zero_le _ }
  · rw [hsession, htries]
    refine (h.scheduled s (hscheduler ▸ hs)).later (fun he => ?_) (Nat.le_refl _)
    rw [Bool.or_eq_true] at he ⊢
    exact he.imp_left hcancel
  · rw [htries]
    exact h.unscheduled (hscheduler ▸ hs)

/-- Before a scheduler is spawned. -/
theorem connInv_plain (hscheduler : c.scheduler = none) (hstarted : c.started = false)
    (hearly : c.pc.early = true → c.stopRequested = false ∧ es = [])
    (hpc : c.pc.opened = true ∨ c.pc.over = true) (hes : ∀ y ∈ es, y.plain = true) :
    ConnInv stop now es c := by
  have hfinal : ∀ y ∈ es, y.final = false := fun y hy => (plain_spec (hes y hy)).2.1
  have hlast : ∀ y ∈ es, y.last = false := fun y hy => final_of_last (hfinal y hy)
  exact
    { scheduled := fun s hs => by rw [hscheduler] at hs; cases hs
      unscheduled := fun _ => triesOf_plain hes
      started := by rw [hscheduler, hstarted]; rfl
      early := fun he => ⟨hscheduler, hearly he⟩
      joined := fun _ s hs => by rw [hscheduler] at hs; cases hs
      quiet := fun xs x ys he hx => by
        have := (plain_spec (hes x (he ▸ List.mem_append_right _ List.mem_cons_self))).1
        rw [hx] at this
        cases this
      opened := fun _ => hfinal
      releasing := fun n he => by
        rw [he] at hpc
        exact hpc.elim (fun h => by cases h) fun h => by cases h
      offering := fun n g he => by
        rw [he] at hpc
        exact hpc.elim (fun h => by cases h) fun h => by cases h
      replying := fun he => by
        rw [he] at hpc
        exact hpc.elim (fun h => by cases h) fun h => by cases h
      unreplied := fun _ => hlast
      stopped := fun sessionId hmem => absurd (hlast _ hmem) Bool.noConfusion
      completed := fun _ _ _ _ hmem => absurd (hlast _ hmem) Bool.noConfusion
      once := by rw [filter_last_nil hlast]; exact Nat.zero_le _ }

/-- The thread moves on once the scheduler has ended. -/
theorem ConnInv.goto (h : ConnInv stop now acts c) {pc : ConnPc}
    (hended : ∀ s, c.scheduler = some s → s.pc = .ended) (hpc : pc.opened = false)
    (hreleasing : ∀ n, pc = .release n →
      n ≤ resetMessages.length ∧ Released (source c.session) n (releasesOf acts))
    (hoffering : ∀ n generation, pc = .releaseOffer n generation →
      n < resetMessages.length ∧ Released (source c.session) n (releasesOf acts))
    (hreplying : pc = .reply → c.stopRequested = true →
      Released (source c.session) resetMessages.length (releasesOf acts))
    (hover : pc.over = false → c.pc.over = false) : ConnInv stop now acts { c with pc } :=
  { h with
    early := fun he => by cases pc <;> cases hpc <;> cases he
    joined := fun _ => hended
    opened := fun he => by rw [hpc] at he; cases he
    releasing := hreleasing
    offering := hoffering
    replying := hreplying
    unreplied := fun he => h.unreplied (hover he) }

theorem released_nil (source : String) : Released source 0 [] where
  messages := rfl
  heard e he := by cases he

theorem resetMessages_critical : ∀ data ∈ resetMessages, isCriticalReleaseMessage data = true := by
  decide +kernel

/-- A release is admitted, or a reset is asked for in its place. -/
theorem enqueuePrepared_critical {frame : MidiFrame}
    (h : isCriticalReleaseMessage frame.data = true) (first retry : Option TrySendError) :
    (enqueuePreparedMidiFrame frame first retry).submitted = some frame ∧
      ((enqueuePreparedMidiFrame frame first retry).result = .enqueued ∨
        0 < (enqueuePreparedMidiFrame frame first retry).resets) := by
  unfold enqueuePreparedMidiFrame
  rw [if_pos h, if_pos h]
  cases first with
  | none => exact ⟨rfl, .inl rfl⟩
  | some e =>
    cases e with
    | disconnected => exact ⟨rfl, .inr Nat.one_pos⟩
    | full =>
      cases retry with
      | none => exact ⟨rfl, .inl rfl⟩
      | some e =>
        cases e with
        | full => exact ⟨rfl, .inr Nat.one_pos⟩
        | disconnected => exact ⟨rfl, .inr Nat.one_pos⟩

/-- One more message of `inject_all_notes_off`. -/
theorem inject_spec {name : String} {n : Nat} (hn : n < resetMessages.length) (generation : Nat)
    (a : Answers) : ∃ e, inject name n generation a = [.release e] ∧
      ∀ rs, Released name n rs → Released name (n + 1) (rs ++ [e]) := by
  have hdata : resetMessages[n]? = some resetMessages[n] := List.getElem?_eq_getElem hn
  have hcritical : isCriticalReleaseMessage
      (⟨generation, name, resetMessages[n]⟩ : MidiFrame).data = true :=
    resetMessages_critical _ (List.getElem_mem hn)
  obtain ⟨hsubmitted, hheard⟩ := enqueuePrepared_critical hcritical a.first a.retry
  refine ⟨enqueuePreparedMidiFrame ⟨generation, name, resetMessages[n]⟩ a.first a.retry, ?_, ?_⟩
  · rw [inject, hdata]
  · rintro rs ⟨hmessages, hrs⟩
    refine ⟨?_, fun e he => ?_⟩
    · rw [List.map_append, hmessages, List.take_add_one, List.map_append, hdata]
      simp [hsubmitted]
    · cases List.mem_append.mp he with
      | inl he => exact hrs e he
      | inr he =>
        rw [List.mem_singleton.mp he]
        exact hheard

/-- Every offer is filtered, admitted or lost. -/
theorem countP_results {tries : List Try} (h : ∀ t ∈ tries, t.enqueue.result ≠ .disconnected) :
    (tries.countP fun t => t.enqueue.result = .filtered) +
      (tries.countP fun t => t.enqueue.result = .enqueued) +
      (tries.countP fun t => isDropped t.enqueue.result) = tries.length := by
  induction tries with
  | nil => rfl
  | cons t tries ih =>
    have := ih fun t' ht' => h t' (List.mem_cons_of_mem t ht')
    rw [List.countP_cons, List.countP_cons, List.countP_cons, List.length_cons]
    generalize tries.countP (fun t => isDropped t.enqueue.result) = dropped at this ⊢
    cases hr : t.enqueue.result with
    | disconnected => exact absurd hr (h t List.mem_cons_self)
    | _ =>
      simp only [isDropped, decide_true, reduceCtorEq, decide_false, if_true, Bool.false_eq_true,
        if_false]
      omega

theorem Scheduled.reported {session : PreparedSession} {cancelled : Bool} {s : Scheduler}
    {tries : List Try} (h : Scheduled session cancelled now s tries) {r : PlaybackCompletion}
    (hr : s.completion = some r) : Reported session r.processed r.dropped tries := by
  obtain ⟨hindex, hprocessed, hdropped, hconnected⟩ := h.counted (.inr (by rw [hr]; rfl))
  obtain ⟨-, rfl, hend⟩ := h.completed r hr
  have hlength : tries.length ≤ session.events.length := by
    by_contra hlt
    have hk : session.events.length < tries.length := Nat.lt_of_not_le hlt
    obtain ⟨e, he, -⟩ := h.offered _ (List.getElem_mem hk)
    have hi : (tries[session.events.length]).index = session.events.length := by
      have := List.getElem_of_eq h.indices (i := session.events.length) (by rwa [List.length_map])
      rwa [List.getElem_map, List.getElem_range] at this
    rw [hi, List.getElem?_eq_none (Nat.le_refl _)] at he
    cases he
  have htotal := countP_results hconnected
  rw [hprocessed, hdropped] at htotal
  have hoffered : tries.length = session.events.length := by omega
  exact ⟨hoffered, hprocessed, hdropped, htotal.trans hoffered⟩

theorem conn_handshake (h : ConnInv stop now acts c) (hpc : c.pc = .handshake) (a : Answers) :
    ConnInv stop now (acts ++ (c.handshake a).2) (c.handshake a).1 := by
  obtain ⟨hscheduler, -, hacts⟩ := h.early (by rw [hpc]; rfl)
  have hstarted : c.started = false := by rw [← h.started, hscheduler]; rfl
  rw [hacts, List.nil_append]
  have hplain {act : Act} (hact : act.plain = true) : ∀ y ∈ [act], y.plain = true := fun y hy =>
    List.mem_singleton.mp hy ▸ hact
  unfold Conn.handshake
  split
  · split
    · cases a.sent with
      | true =>
        exact connInv_plain hscheduler hstarted (fun he => by cases he) (.inl rfl) (hplain rfl)
      | false =>
        exact connInv_plain hscheduler hstarted (fun he => by cases he) (.inr rfl) (hplain rfl)
    · exact connInv_plain hscheduler hstarted (fun he => by cases he) (.inr rfl) (hplain rfl)
  · exact connInv_plain hscheduler hstarted (fun he => by cases he) (.inr rfl) (hplain rfl)
  · exact connInv_plain hscheduler hstarted (fun he => by cases he) (.inr rfl) (hplain rfl)

theorem conn_read {sh : Shared} (h : ConnInv stop now acts c) (hpc : c.pc = .read) (a : Answers) :
    ConnInv stop now (acts ++ (c.read sh a).2.2) (c.read sh a).2.1 := by
  have hopened : c.pc.opened = true := by rw [hpc]; rfl
  have hnone : ∀ y ∈ ([] : List Act), y.plain = true := fun y hy => by cases hy
  have hunexpected : ConnInv stop now (acts ++ c.unexpected.2) c.unexpected.1 := by
    refine h.move hopened ⟨rfl, rfl⟩ rfl rfl rfl id (fun he => by cases he) fun y hy => ?_
    rw [List.mem_singleton.mp hy]
    rfl
  unfold Conn.read
  split
  · split
    · rename_i sessionId startDelayMs _ hstart
      have hscheduler : c.scheduler = none := by
        have := h.started
        rw [hstart.2] at this
        exact Option.isNone_iff_eq_none.mp (by rw [← Option.not_isSome, this]; rfl)
      have htries := h.unscheduled hscheduler
      rw [List.append_nil]
      exact
        { h with
          scheduled := fun s hs => by
            cases hs
            rw [htries]
            exact scheduled_spawned startDelayMs
          unscheduled := fun hs => by cases hs
          started := rfl
          early := fun he => by cases he
          joined := fun he => by cases he
          opened := fun _ => h.opened hopened
          releasing := fun n he => by cases he
          offering := fun n g he => by cases he
          replying := fun he => by cases he
          unreplied := fun _ => h.unreplied (by rw [hpc]; rfl) }
    · exact hunexpected
  · split
    · exact h.move hopened ⟨rfl, rfl⟩ rfl rfl rfl id (fun he => by cases he) hnone
    · exact hunexpected
  · exact hunexpected
  · split
    · exact h.move hopened ⟨rfl, rfl⟩ rfl rfl rfl id (fun he => by cases he) hnone
    · exact h.move hopened ⟨rfl, rfl⟩ rfl rfl rfl id (fun he => by cases he) hnone

/-- The three ways in which a session that was not cut short ends. -/
theorem lastReply_cases (c : Conn) : c.lastReply = [] ∨
    (c.stopRequested = true ∧ c.lastReply = [.reply (.stopped c.session.sessionId)]) ∨
    ∃ s r, c.scheduler = some s ∧ s.completion = some r ∧
      c.lastReply =
        [.reply (.completed c.session.sessionId r.processed r.maxLateUs r.dropped)] := by
  unfold Conn.lastReply
  split
  · rename_i hstop
    exact .inr (.inl ⟨hstop, rfl⟩)
  split
  · exact .inl rfl
  split
  · rename_i r hr
    obtain ⟨s, hs, hr⟩ := Option.bind_eq_some_iff.mp hr
    exact .inr (.inr ⟨s, r, hs, hr, rfl⟩)
  · exact .inl rfl

theorem conn_lastReply (h : ConnInv stop now acts c) (hpc : c.pc = .reply) :
    ConnInv stop now (acts ++ c.lastReply) { c with pc := .ended } := by
  have hlast := h.unreplied (by rw [hpc]; rfl)
  have hcases := lastReply_cases c
  generalize c.lastReply = es at hcases
  have hes : (∀ y ∈ es, y.isTry = false) ∧ triesOf es = [] ∧ releasesOf es = [] ∧
      es.length ≤ 1 := by
    obtain rfl | ⟨-, rfl⟩ | ⟨s, r, -, -, rfl⟩ := hcases
    · exact ⟨(fun y hy => by cases hy), rfl, rfl, Nat.zero_le _⟩
    · exact ⟨fun y hy => List.mem_singleton.mp hy ▸ rfl, rfl, rfl, Nat.le_refl _⟩
    · exact ⟨fun y hy => List.mem_singleton.mp hy ▸ rfl, rfl, rfl, Nat.le_refl _⟩
  obtain ⟨hquiet, htries, hreleases, hlength⟩ := hes
  have htries' : triesOf (acts ++ es) = triesOf acts := by
    rw [triesOf_append, htries, List.append_nil]
  have hreleases' : releasesOf (acts ++ es) = releasesOf acts := by
    rw [releasesOf_append, hreleases, List.append_nil]
  refine
    { scheduled := fun s hs => htries' ▸ h.scheduled s hs
      unscheduled := fun hs => htries' ▸ h.unscheduled hs
      started := h.started
      early := fun he => by cases he
      joined := fun _ => h.joined (by rw [hpc]; rfl)
      quiet := h.quiet_append hquiet
      opened := fun he => by cases he
      releasing := fun n he => by cases he
      offering := fun n g he => by cases he
      replying := fun he => by cases he
      unreplied := fun he => by cases he
      stopped := fun sessionId hmem => ?_
      completed := fun sessionId processed maxLateUs dropped hmem => ?_
      once := ?_ }
  · rw [hreleases']
    have hmem := (List.mem_append.mp hmem).resolve_left fun hmem =>
      absurd (hlast _ hmem) Bool.noConfusion
    obtain rfl | ⟨hstop, rfl⟩ | ⟨s, r, -, -, rfl⟩ := hcases
    · cases hmem
    · cases List.mem_singleton.mp hmem
      exact ⟨rfl, h.replying hpc hstop⟩
    · cases List.mem_singleton.mp hmem
  · rw [htries']
    have hmem := (List.mem_append.mp hmem).resolve_left fun hmem =>
      absurd (hlast _ hmem) Bool.noConfusion
    obtain rfl | ⟨hstop, rfl⟩ | ⟨s, r, hs, hr, rfl⟩ := hcases
    · cases hmem
    · cases List.mem_singleton.mp hmem
    · cases List.mem_singleton.mp hmem
      exact ⟨rfl, (h.scheduled s hs).reported hr⟩
  · rw [List.filter_append, filter_last_nil hlast, List.nil_append]
    exact (List.length_filter_le _ _).trans hlength

/-- One more release, while the scheduler has ended. -/
theorem conn_inject (h : ConnInv stop now acts c) {n generation : Nat}
    (hpc : c.pc = .releaseOffer n generation) (a : Answers) :
    ConnInv stop now (acts ++ inject (source c.session) n generation a)
      { c with pc := .release (n + 1) } := by
  obtain ⟨hn, hreleased⟩ := h.offering n generation hpc
  obtain ⟨e, he, hmore⟩ := inject_spec hn generation a
  have hlast := h.unreplied (by rw [hpc]; rfl)
  have htries : triesOf (acts ++ [.release e]) = triesOf acts := by
    rw [triesOf_append]
    exact List.append_nil _
  have hlast' : ∀ y ∈ acts ++ [.release e], y.last = false := by
    intro y hy
    cases List.mem_append.mp hy with
    | inl hy => exact hlast y hy
    | inr hy => exact List.mem_singleton.mp hy ▸ rfl
  rw [he]
  exact
    { scheduled := fun s hs => htries ▸ h.scheduled s hs
      unscheduled := fun hs => htries ▸ h.unscheduled hs
      started := h.started
      early := fun he => by cases he
      joined := fun _ => h.joined (by rw [hpc]; rfl)
      quiet := h.quiet_append fun y hy => List.mem_singleton.mp hy ▸ rfl
      opened := fun he => by cases he
      releasing := fun m he => by
        cases he
        rw [releasesOf_append]
        exact ⟨hn, hmore _ hreleased⟩
      offering := fun m g he => by cases he
      replying := fun he => by cases he
      unreplied := fun _ => hlast'
      stopped := fun sessionId hmem => absurd (hlast' _ hmem) Bool.noConfusion
      completed := fun _ _ _ _ hmem => absurd (hlast' _ hmem) Bool.noConfusion
      once := by rw [filter_last_nil hlast']; exact Nat.zero_le _ }

theorem conn_step {sh : Shared} (h : ConnInv sh.stop sh.now acts c) (a : Answers) :
    ConnInv sh.stop sh.now (acts ++ (c.step sh a).2.2) (c.step sh a).2.1 := by
  have hnone : ∀ y ∈ ([] : List Act), y.plain = true := fun y hy => by cases hy
  unfold Conn.step
  cases hpc : c.pc with
  | begin =>
    obtain ⟨hscheduler, hstop, hacts⟩ := h.early (by rw [hpc]; rfl)
    have hstarted : c.started = false := by rw [← h.started, hscheduler]; rfl
    dsimp only
    rw [hacts]
    cases a.setup with
    | true => exact connInv_plain hscheduler hstarted (fun _ => ⟨hstop, rfl⟩) (.inl rfl) hnone
    | false => exact connInv_plain hscheduler hstarted (fun he => by cases he) (.inr rfl) hnone
  | handshake => exact conn_handshake h hpc a
  | top =>
    dsimp only
    split
    · exact h.move (by rw [hpc]; rfl) ⟨rfl, rfl⟩ rfl rfl rfl id (fun he => by cases he) hnone
    · exact h.move (by rw [hpc]; rfl) ⟨rfl, rfl⟩ rfl rfl rfl id (fun he => by cases he) hnone
  | read => exact conn_read h hpc a
  | cancel =>
    exact h.move (by rw [hpc]; rfl) ⟨rfl, rfl⟩ rfl rfl rfl
      (fun he => Bool.or_eq_true_iff.mpr (.inl he)) (fun he => by cases he) hnone
  | join =>
    dsimp only
    split
    · rename_i hended
      refine h.move (by rw [hpc]; rfl) ⟨rfl, rfl⟩ rfl rfl rfl id (fun _ s hs => ?_) hnone
      rw [hs] at hended
      exact of_decide_eq_true hended
    · exact (List.append_nil acts).symm ▸ h
  | clear =>
    exact h.move (by rw [hpc]; rfl) ⟨rfl, rfl⟩ rfl rfl rfl id
      (fun _ => h.joined (by rw [hpc]; rfl)) hnone
  | checkStop =>
    have hended := h.joined (by rw [hpc]; rfl)
    have hreleases := releasesOf_opened (h.opened (by rw [hpc]; rfl))
    dsimp only
    rw [List.append_nil]
    split
    · exact h.goto hended rfl (fun n he => by cases he) (fun n g he => by cases he)
        (fun he => by cases he) fun he => by cases he
    split
    · refine h.goto hended rfl (fun n he => ?_) (fun n g he => by cases he)
        (fun he => by cases he) fun _ => by rw [hpc]; rfl
      cases he
      rw [hreleases]
      exact ⟨Nat.zero_le _, released_nil _⟩
    · rename_i hskip
      refine h.goto hended rfl (fun n he => by cases he) (fun n g he => by cases he)
        (fun _ hstop => ?_) fun _ => by rw [hpc]; rfl
      rw [hstop] at hskip
      simp at hskip
  | release n =>
    have hended := h.joined (by rw [hpc]; rfl)
    obtain ⟨hn, hreleased⟩ := h.releasing n hpc
    dsimp only
    rw [List.append_nil]
    split
    · rename_i hlt
      refine h.goto hended rfl (fun n he => by cases he) (fun n' g he => ?_)
        (fun he => by cases he) fun _ => by rw [hpc]; rfl
      cases he
      exact ⟨hlt, hreleased⟩
    · rename_i hge
      refine h.goto hended rfl (fun n he => by cases he) (fun n g he => by cases he)
        (fun _ _ => ?_) fun _ => by rw [hpc]; rfl
      obtain rfl : n = resetMessages.length := by omega
      exact hreleased
  | releaseOffer n generation => exact conn_inject h hpc a
  | reply => exact conn_lastReply h hpc
  | ended =>
    rw [List.append_nil]
    exact h.goto (h.joined (by rw [hpc]; rfl)) rfl (fun n he => by cases he)
      (fun n g he => by cases he) (fun he => by cases he) fun he => by cases he
  | gone => exact (List.append_nil acts).symm ▸ h

/-- A step of the scheduler. -/
theorem conn_schedule {sh : Shared} (h : ConnInv sh.stop sh.now acts c) (a : Answers) :
    ConnInv sh.stop sh.now (acts ++ (c.schedule sh a).2) (c.schedule sh a).1 := by
  unfold Conn.schedule
  cases hs : c.scheduler with
  | none => exact (List.append_nil acts).symm ▸ h
  | some s =>
    dsimp only
    by_cases hended : s.pc = .ended
    · -- an ended scheduler does nothing
      have hstep : s.step c.session (c.cancel || sh.stop) sh a = (s, []) := by
        unfold Scheduler.step
        rw [hended]
      rw [hstep, List.append_nil, hended]
      have hdone : (c.done || decide (SchedulerPc.ended = .done)) = c.done := Bool.or_false _
      rw [hdone, ← hs]
      exact h
    · have hjoined : c.pc.joined = false := by
        cases hj : c.pc.joined with
        | false => rfl
        | true => exact absurd (h.joined hj s hs) hended
      have hearly : c.pc.early = false := by
        cases he : c.pc.early with
        | false => rfl
        | true =>
          have := (h.early he).1
          rw [hs] at this
          cases this
      have hopened : c.pc.opened = true := by
        cases hpc : c.pc <;> rw [hpc] at hjoined <;> cases hjoined <;> rfl
      have hfinal := h.opened hopened
      have hscheduled := scheduled_step (h.scheduled s hs) a
      have hacts := step_acts s c.session (c.cancel || sh.stop) sh a
      generalize s.step c.session (c.cancel || sh.stop) sh a = r at hscheduled hacts
      have hes : (∀ y ∈ r.2, y.final = false) ∧ AtEach
          (fun before x => x.isTry = true → ∀ y ∈ before, y.final = false) (acts ++ r.2) := by
        obtain he | ⟨t, he⟩ := hacts
        · rw [he, List.append_nil]
          exact ⟨(fun y hy => by cases hy), h.quiet⟩
        · rw [he]
          exact ⟨fun y hy => List.mem_singleton.mp hy ▸ rfl, h.quiet.concat fun _ => hfinal⟩
      obtain ⟨hes, hquiet⟩ := hes
      have hfinal' : ∀ y ∈ acts ++ r.2, y.final = false := fun y hy =>
        (List.mem_append.mp hy).elim (hfinal y) (hes y)
      have hlast : ∀ y ∈ acts ++ r.2, y.last = false := fun y hy => final_of_last (hfinal' y hy)
      exact
        { scheduled := fun s' hs' => by
            cases hs'
            rw [triesOf_append]
            exact hscheduled
          unscheduled := fun hs' => by cases hs'
          started := by rw [← h.started, hs]; rfl
          early := fun he => by rw [hearly] at he; cases he
          joined := fun he => by rw [hjoined] at he; cases he
          quiet := hquiet
          opened := fun _ => hfinal'
          releasing := fun n he => by
            have he : c.pc = .release n := he
            rw [he] at hopened
            cases hopened
          offering := fun n g he => by
            have he : c.pc = .releaseOffer n g := he
            rw [he] at hopened
            cases hopened
          replying := fun he => by
            have he : c.pc = .reply := he
            rw [he] at hopened
            cases hopened
          unreplied := fun _ => hlast
          stopped := fun sessionId hmem => absurd (hlast _ hmem) Bool.noConfusion
          completed := fun _ _ _ _ hmem => absurd (hlast _ hmem) Bool.noConfusion
          once := by rw [filter_last_nil hlast]; exact Nat.zero_le _ }

theorem ConnInv.later {stop' : Bool} {now' : Nat} (h : ConnInv stop now acts c)
    (hstop : stop = true → stop' = true) (hnow : now ≤ now') : ConnInv stop' now' acts c :=
  { h with
    scheduled := fun s hs => (h.scheduled s hs).later
      (fun he => by rw [Bool.or_eq_true] at he ⊢; exact he.imp_right hstop) hnow }

theorem handshake_pc (c : Conn) (a : Answers) : (c.handshake a).1.pc ≠ .gone := by
  intro he
  unfold Conn.handshake at he
  split at he
  · split at he
    · dsimp only at he
      split at he
      · cases he
      · cases he
    · cases he
  · cases he
  · cases he

theorem read_frame (sh : Shared) (c : Conn) (a : Answers) : (c.read sh a).2.1.pc ≠ .gone ∧
    (c.read sh a).1.now = sh.now ∧ (c.read sh a).1.stop = sh.stop := by
  unfold Conn.read Conn.unexpected
  split
  · split
    · exact ⟨(fun he => by cases he), rfl, rfl⟩
    · exact ⟨(fun he => by cases he), rfl, rfl⟩
  · split
    · exact ⟨(fun he => by cases he), rfl, rfl⟩
    · exact ⟨(fun he => by cases he), rfl, rfl⟩
  · exact ⟨(fun he => by cases he), rfl, rfl⟩
  · split
    · exact ⟨(fun he => by cases he), rfl, rfl⟩
    · exact ⟨(fun he => by cases he), rfl, rfl⟩

/-- What a step of the thread does to the threads' end, and leaves alone. -/
theorem step_frame (sh : Shared) (c : Conn) (a : Answers) :
    ((c.step sh a).2.1.pc = .gone ↔ c.pc = .ended ∨ c.pc = .gone) ∧
      (c.pc = .gone → (c.step sh a).2.2 = []) ∧
      (c.step sh a).1.now = sh.now ∧ (c.step sh a).1.stop = sh.stop := by
  unfold Conn.step
  cases hpc : c.pc with
  | begin =>
    refine ⟨⟨fun he => ?_, fun he => ?_⟩, (fun he => by cases he), rfl, rfl⟩
    · dsimp only at he
      split at he
      · cases he
      · cases he
    · exact he.elim (fun he => by cases he) fun he => by cases he
  | handshake =>
    refine ⟨⟨fun he => absurd he (handshake_pc c a), fun he => ?_⟩, (fun he => by cases he),
      rfl, rfl⟩
    exact he.elim (fun he => by cases he) fun he => by cases he
  | read =>
    obtain ⟨hne, hshared⟩ := read_frame sh c a
    refine ⟨⟨fun he => absurd he hne, fun he => ?_⟩, (fun he => by cases he), hshared⟩
    exact he.elim (fun he => by cases he) fun he => by cases he
  | join =>
    refine ⟨⟨fun he => ?_, fun he => ?_⟩, (fun he => by cases he), rfl, rfl⟩
    · dsimp only at he
      split at he
      · cases he
      · rw [hpc] at he
        cases he
    · exact he.elim (fun he => by cases he) fun he => by cases he
  | top | release n =>
    refine ⟨⟨fun he => ?_, fun he => ?_⟩, (fun he => by cases he), rfl, rfl⟩
    · dsimp only at he
      split at he
      · cases he
      · cases he
    · exact he.elim (fun he => by cases he) fun he => by cases he
  | checkStop =>
    refine ⟨⟨fun he => ?_, fun he => ?_⟩, (fun he => by cases he), rfl, rfl⟩
    · dsimp only at he
      split at he
      · cases he
      split at he
      · cases he
      · cases he
    · exact he.elim (fun he => by cases he) fun he => by cases he
  | cancel | clear | releaseOffer n g | reply =>
    refine ⟨⟨(fun he => by cases he), fun he => ?_⟩, (fun he => by cases he), rfl, rfl⟩
    exact he.elim (fun he => by cases he) fun he => by cases he
  | ended => exact ⟨⟨fun _ => .inl rfl, fun _ => rfl⟩, (fun he => by cases he), rfl, rfl⟩
  | gone => exact ⟨⟨fun _ => .inr rfl, fun _ => hpc⟩, fun _ => rfl, rfl, rfl⟩

end Conn

end RtpOscMidi.L5.ReliablePlayback
