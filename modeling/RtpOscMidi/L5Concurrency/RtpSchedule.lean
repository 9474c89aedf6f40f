import RtpOscMidi.L5Concurrency.RtpRecovery

/-!
# The order of the RTP scheduler

* `rtp_schedule`: deadlines, order, and where every frame received is.
-/
namespace RtpOscMidi.L5.RtpScheduler

open Core Core.Agenda L1.MidiMessage L2.MidiQueue

/-! ## The order of the frames -/

def takenOf (log : List Event) : List (Taken Nat TimedRtpFrame) :=
  log.filterMap fun e =>
    match e with
    | .frame t _ _ => some t
    | _ => none

def refusedOf (log : List Event) : List TimedRtpFrame :=
  log.filterMap fun e =>
    match e with
    | .refused e => some e
    | _ => none

structure InOrder (s : St) : Prop where
  history : History (takenOf s.log) s.pending
  due : ∀ t now g, Event.frame t now g ∈ s.log →
    t.entry.key = t.entry.item.deadline ∧ t.entry.key ≤ now ∧ t.entry.item.generation = g
  capacity : s.pending.entries.length ≤ rtpPendingCapacity

theorem limit_le (critical : Bool) : limit critical ≤ rtpPendingCapacity := by
  cases critical <;> decide

theorem due_step {s s' : St} (hst : Step s s') (hstamps : Stamps s) (h : InOrder s)
    (t : Taken Nat TimedRtpFrame) (now g : Nat) (hmem : Event.frame t now g ∈ s'.log) :
    t.entry.key = t.entry.item.deadline ∧ t.entry.key ≤ now ∧ t.entry.item.generation = g := by
  obtain hlog | ⟨e, hlog, hframe⟩ := hst.log
  · exact h.due t now g (hlog ▸ hmem)
  · rw [hlog] at hmem
    cases List.mem_append.mp hmem with
    | inl hmem => exact h.due t now g hmem
    | inr hmem =>
      obtain ⟨-, -, hpending, hdue, hgeneration⟩ :=
        hframe t now g (List.mem_singleton.mp hmem).symm
      exact ⟨(hstamps.pending _ hpending).key, hdue, hgeneration⟩

theorem length_tail_le {α : Type} (l : List α) : l.tail.length ≤ l.length := by
  rw [List.length_tail]
  exact Nat.sub_le _ _

theorem inOrder_step {s s' : St} (hst : Step s s') (hstamps : Stamps s) (h : InOrder s) :
    InOrder s' := by
  have hdue := due_step hst hstamps h
  have hcapacity := h.capacity
  cases hst with
  | tick | midiReset | request | begin | stamp | sent | lost | start | moves | take | discard
  | pass | receive | stop => exact ⟨h.history, hdue, hcapacity⟩
  | renew => exact ⟨h.history.clear, hdue, Nat.zero_le _⟩
  | newer => exact ⟨h.history.clear, hdue, Nat.zero_le _⟩
  | outdated =>
    exact ⟨h.history.tail, hdue, (length_tail_le _).trans hcapacity⟩
  | recover source cutoff left hpc =>
    refine ⟨?_, hdue, (List.length_filter_le ..).trans hcapacity⟩
    simp only [takenOf, St.recoverScheduledSource, List.filterMap_append]
    exact (List.append_nil _).symm ▸ h.history.keep _
  | refused e n hpc =>
    refine ⟨?_, hdue, hcapacity⟩
    simp only [takenOf, List.filterMap_append]
    exact (List.append_nil _).symm ▸ h.history
  | flush source cutoff left hpc =>
    refine ⟨?_, hdue, hcapacity⟩
    simp only [takenOf, List.filterMap_append]
    exact (List.append_nil _).symm ▸ h.history
  | dispatch n now e rest hpc he =>
    refine ⟨?_, hdue, (length_tail_le _).trans hcapacity⟩
    simp only [takenOf, List.filterMap_append]
    exact h.history.pop he
  | pushed e n hpc hroom =>
    refine ⟨h.history.push e.deadline e, hdue, ?_⟩
    show (Schedule.insert _ s.pending.entries).length ≤ _
    rw [(Schedule.perm_insert _ _).length_eq, List.length_cons]
    exact Nat.succ_le_of_lt (hroom.trans_le (limit_le e.critical))

/-! ## Where the frames are -/

/-- Every place where a frame that was received may be. -/
def placed (s : St) : List TimedRtpFrame :=
  s.pc.handed ++ ((takenOf s.log).map (·.entry.item) ++
    (s.pending.entries.map (·.item) ++ refusedOf s.log))

/-- Neither a newer generation nor a newer epoch of its source has been begun. -/
structure Live (s : St) (e : TimedRtpFrame) : Prop where
  generation : s.generation ≤ e.generation
  epoch : s.epochs e.frame.source ≤ e.sourceEpoch

/-- No frame is lost or doubled. -/
def Conserved (s : St) : Prop := ∀ e, Live s e → s.received.count e = (placed s).count e

theorem count_placed (s : St) (e : TimedRtpFrame) : (placed s).count e =
    s.pc.handed.count e + (((takenOf s.log).map (·.entry.item)).count e +
      ((s.pending.entries.map (·.item)).count e + (refusedOf s.log).count e)) := by
  unfold placed
  rw [List.count_append, List.count_append, List.count_append]

theorem Live.of_step {s s' : St} (hst : Step s s') {e : TimedRtpFrame} (h : Live s' e) :
    Live s e :=
  ⟨hst.mono.1.trans h.generation, (hst.mono.2 _).trans h.epoch⟩

/-- What is scheduled of an older generation is not live. -/
theorem count_pending_of_newer {s : St} (hstamps : Stamps s) {e : TimedRtpFrame} (h : Live s e)
    (hnewer : s.seen < s.generation) : (s.pending.entries.map (·.item)).count e = 0 := by
  refine List.count_eq_zero.mpr fun hmem => ?_
  obtain ⟨x, hx, rfl⟩ := List.mem_map.mp hmem
  have hseen := (hstamps.pending x hx).generation
  have hlive := h.generation
  omega

theorem count_singleton_of_ne {e e' : TimedRtpFrame} (h : e' ≠ e) : [e'].count e = 0 := by
  rw [List.count_singleton, if_neg (by simpa using h)]

theorem conserved_recover {s : St} (hstamps : Stamps s) (h : Conserved s) {source : String}
    {cutoff : Nat} {left : List Request} (hpc : s.pc = .recover ((source, cutoff) :: left)) :
    Conserved { s.recoverScheduledSource source cutoff with pc := .recover left } := by
  intro e hlive
  have hlive : Live s e := ⟨hlive.generation, hlive.epoch⟩
  have hleft := hstamps.left
  rw [hpc] at hleft
  have hcut := (hleft _ List.mem_cons_self).2
  have hkept : e.frame.source ≠ source ∨ cutoff ≤ e.sourceEpoch := by
    refine or_iff_not_imp_left.mpr fun heq => ?_
    rw [not_not] at heq
    exact (heq ▸ hcut).trans hlive.epoch
  -- the filter commutes with the projection, and keeps `e`
  have hcount : ((s.pending.entries.filter fun x : Entry Nat TimedRtpFrame =>
      decide (x.item.frame.source ≠ source ∨ cutoff ≤ x.item.sourceEpoch)).map (·.item)).count e =
        (s.pending.entries.map (·.item)).count e := by
    have hmap := @List.filter_map _ _ (fun x : Entry Nat TimedRtpFrame => x.item)
      (fun e => decide (e.frame.source ≠ source ∨ cutoff ≤ e.sourceEpoch)) s.pending.entries
    exact (congrArg (List.count e) hmap).symm.trans (List.count_filter (decide_eq_true hkept))
  have hbefore := h e hlive
  rw [count_placed, hpc] at hbefore
  rw [count_placed]
  simp only [St.recoverScheduledSource, Schedule.keep, takenOf, refusedOf, List.filterMap_append]
  simp only [List.filterMap_cons, List.filterMap_nil, List.append_nil]
  rw [hcount]
  exact hbefore

theorem conserved_step {s s' : St} (hst : Step s s') (hstamps : Stamps s) (h : Conserved s) :
    Conserved s' := by
  intro e hlive
  have hlive' := hlive.of_step hst
  have hbefore := h e hlive'
  rw [count_placed] at hbefore ⊢
  cases hst with
  | tick | midiReset | request | begin | stamp | sent | lost => exact hbefore
  | recover source cutoff left hpc =>
    rw [← count_placed]
    exact conserved_recover hstamps h hpc e hlive
  | start hpc | take faults hpc =>
    rw [hpc] at hbefore
    exact hbefore
  | moves pc hm =>
    rw [hm.handed] at hbefore
    dsimp only
    rw [hm.handed']
    exact hbefore
  | stop faults hhanded =>
    rw [hhanded] at hbefore
    exact hbefore
  | renew hpc hseen =>
    have hnewer := Nat.lt_of_le_of_ne hstamps.seen fun heq => hseen heq.symm
    rw [hpc, count_pending_of_newer hstamps hlive' hnewer] at hbefore
    exact hbefore
  | newer e' n hpc hgeneration hepoch hseen =>
    have hnewer : s.seen < s.generation := by
      refine Nat.lt_of_le_of_ne hstamps.seen fun heq => hseen ?_
      rw [hgeneration, heq]
    rw [hpc, count_pending_of_newer hstamps hlive' hnewer] at hbefore
    exact hbefore
  | outdated n now x rest hpc hx hold =>
    have hne : x.item ≠ e := by
      intro heq
      have hle := (hstamps.pending x (hx ▸ List.mem_cons_self)).generation
      have hseen := hstamps.seen
      have hge := hlive'.generation
      rw [heq] at hle hold
      omega
    rw [hpc, hx, List.map_cons, List.count_cons_of_ne hne] at hbefore
    simp only [Schedule.tail, hx, List.tail_cons]
    exact hbefore
  | dispatch n now x rest hpc hx hdue hgeneration =>
    rw [hpc, hx, List.map_cons, List.count_cons] at hbefore
    simp only [Schedule.tail, hx, List.tail_cons, takenOf, refusedOf, List.filterMap_append,
      List.filterMap_cons, List.filterMap_nil, List.append_nil, List.map_append, List.map_cons,
      List.map_nil, List.count_append, List.count_singleton]
    rw [hbefore]
    simp only [takenOf, refusedOf, Pc.handed]
    omega
  | discard e' n hpc hold =>
    have hne : e' ≠ e := by
      intro heq
      have hhanded := hstamps.handed
      rw [hpc] at hhanded
      have hle := (hhanded e' List.mem_cons_self).generation
      have hcutoff := hstamps.cutoffs e'.frame.source
      have hge := hlive'.generation
      have hge' := hlive'.epoch
      rw [← heq] at hge hge'
      omega
    rw [hpc] at hbefore
    dsimp only
    rw [(resting_skipFrame n).empty.handed]
    have hone : (Pc.received e' n).handed.count e = 0 := count_singleton_of_ne hne
    rw [hone] at hbefore
    exact hbefore
  | pass e' n hpc =>
    rw [hpc] at hbefore
    exact hbefore
  | refused e' n hpc =>
    rw [hpc] at hbefore
    simp only [(resting_skipFrame n).empty.handed, takenOf, refusedOf, List.filterMap_append,
      List.filterMap_cons, List.filterMap_nil, List.append_nil, List.count_append]
    rw [hbefore]
    simp only [Pc.handed, takenOf, refusedOf, List.count_nil]
    omega
  | pushed e' n hpc hroom =>
    rw [hpc] at hbefore
    have hperm := (Schedule.perm_insert ⟨e'.deadline, s.pending.next, e'⟩ s.pending.entries).map
      fun x => x.item
    simp only [(resting_afterFrame n).empty.handed, Schedule.push]
    rw [hbefore, hperm.count_eq, List.map_cons, List.count_cons]
    simp only [Pc.handed, List.count_singleton, List.count_nil]
    omega
  | receive e' queue n hqueue hhanded =>
    rw [hhanded] at hbefore
    simp only [List.count_append]
    rw [hbefore]
    simp only [Pc.handed, List.count_nil]
    omega
  | flush source cutoff left hpc =>
    rw [hpc] at hbefore
    simp only [takenOf, refusedOf, List.filterMap_append, List.filterMap_cons, List.filterMap_nil,
      List.append_nil]
    exact hbefore

/-- A release that is refused ends the generation it belongs to. -/
def Reported (s : St) : Prop :=
  ∀ e, Event.refused e ∈ s.log → e.critical = true → e.generation < s.generation

theorem reported_step {s s' : St} (hst : Step s s') (hstamps : Stamps s) (h : Reported s) :
    Reported s' := by
  intro e hmem hcritical
  have hmono := hst.mono.1
  have hold (hmem : Event.refused e ∈ s.log) : e.generation < s'.generation :=
    (h e hmem hcritical).trans_le hmono
  cases hst with
  | refused e' n hpc =>
    cases List.mem_append.mp hmem with
    | inl hmem => exact hold hmem
    | inr hmem =>
      cases List.mem_singleton.mp hmem
      have hseen := (hstamps.admitting e n hpc).1
      dsimp only
      rw [if_pos hcritical, hseen]
      exact Nat.lt_succ_of_le hstamps.seen
  | recover | dispatch | flush =>
    cases List.mem_append.mp hmem with
    | inl hmem => exact hold hmem
    | inr hmem => cases List.mem_singleton.mp hmem
  | _ => exact hold hmem

/-! ## Every run -/

theorem inOrder_inductive : system.InductiveUnder Stamps InOrder where
  init := by
    rintro s ⟨generation, rfl⟩
    exact ⟨.empty, (fun t now g ht => by cases ht), Nat.zero_le _⟩
  step s l s' hstamps h hst := inOrder_step (step_cases hst) hstamps h

theorem conserved_inductive : system.InductiveUnder Stamps Conserved where
  init := by
    rintro s ⟨generation, rfl⟩ e _
    rfl
  step s l s' hstamps h hst := conserved_step (step_cases hst) hstamps h

theorem reported_inductive : system.InductiveUnder Stamps Reported where
  init := by
    rintro s ⟨generation, rfl⟩ e hmem
    cases hmem
  step s l s' hstamps h hst := reported_step (step_cases hst) hstamps h

/-- In every run: (1) a frame is dispatched before those with a later deadline
that were waiting with it, and those with the same deadline in the order in
which they came; (2) none is dispatched before its deadline or in another
generation than its own; (3) every frame received, as often as it was received,
is in hand, dispatched, waiting or refused, unless its generation is over or
its source has a newer epoch; (4) a release is refused only at the price of its
generation; (5) the schedule keeps to its capacity. -/
theorem rtp_schedule (s : St) (h : system.Reachable s) :
    ((takenOf s.log).Pairwise (fun t t' => After t t'.entry) ∧
      (takenOf s.log).Pairwise fun t t' =>
        t.entry.key = t'.entry.key → t.entry.seq < t'.entry.seq) ∧
    (∀ t now g, Event.frame t now g ∈ s.log → t.entry.key = t.entry.item.deadline ∧
      t.entry.key ≤ now ∧ t.entry.item.generation = g) ∧
    (∀ e, s.generation ≤ e.generation → s.epochs e.frame.source ≤ e.sourceEpoch →
      s.received.count e = (placed s).count e) ∧
    (∀ e, Event.refused e ∈ s.log → e.critical = true → e.generation < s.generation) ∧
    s.pending.entries.length ≤ rtpPendingCapacity := by
  have horder := inOrder_inductive.reachable stamps_inductive s h
  exact ⟨⟨horder.history.inTurn, horder.history.ties⟩, horder.due,
    fun e hg he => conserved_inductive.reachable stamps_inductive s h e ⟨hg, he⟩,
    reported_inductive.reachable stamps_inductive s h, horder.capacity⟩

theorem rtp_schedule_lostPeer : ∃ s : St, s.received.count lostNote = (placed s).count lostNote ∧
    (placed s).count lostNote ≠ 0 := by
  obtain ⟨s, hr, htest⟩ := lostPeer_run
  obtain ⟨hlog, hgeneration, hepoch⟩ := of_decide_eq_true htest
  refine ⟨s, (rtp_schedule s hr).2.2.1 lostNote hgeneration.le hepoch.le, ?_⟩
  rw [count_placed, hlog]
  show _ + (List.count lostNote [lostNote] + _) ≠ 0
  rw [List.count_singleton_self]
  omega

end RtpOscMidi.L5.RtpScheduler
