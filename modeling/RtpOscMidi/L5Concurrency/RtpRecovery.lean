import RtpOscMidi.L5Concurrency.RtpScheduler

/-!
# Recovery in the RTP scheduler

The stamps of the frames, wherever they are (`Stamps`); the requests for a
reset, of which none is lost (`Requests`); and the resets, after which nothing
older is dispatched (`Cut`).

* `rtp_recovery`: resets and epochs in every run.
-/
namespace RtpOscMidi.L5.RtpScheduler

open Core Core.Agenda L1.MidiMessage L2.MidiQueue

/-! ## Generations and epochs -/

structure Stamped (generation : Nat) (epochs : String → Nat) (e : TimedRtpFrame) : Prop where
  generation : e.generation ≤ generation
  epoch : e.sourceEpoch ≤ epochs e.frame.source

theorem Stamped.mono {g g' : Nat} {epochs epochs' : String → Nat} {e : TimedRtpFrame}
    (h : Stamped g epochs e) (hg : g ≤ g') (hepochs : ∀ source, epochs source ≤ epochs' source) :
    Stamped g' epochs' e :=
  ⟨h.generation.trans hg, h.epoch.trans (hepochs _)⟩

structure Scheduled (seen : Nat) (cutoffs epochs : String → Nat) (x : Entry Nat TimedRtpFrame) :
    Prop where
  key : x.key = x.item.deadline
  generation : x.item.generation = seen
  fresh : cutoffs x.item.frame.source ≤ x.item.sourceEpoch
  epoch : x.item.sourceEpoch ≤ epochs x.item.frame.source

structure Stamps (s : St) : Prop where
  start : s.pc = .start → s.pending.entries = []
  seen : s.seen ≤ s.generation
  queue : ∀ e ∈ s.queue, Stamped s.generation s.epochs e
  listeners : ∀ l ∈ s.listeners, Stamped s.generation s.epochs l.frame
  handed : ∀ e ∈ s.pc.handed, Stamped s.generation s.epochs e
  admitting : ∀ e n, s.pc = .admitting e n →
    e.generation = s.seen ∧ s.cutoffs e.frame.source ≤ e.sourceEpoch
  pending : ∀ x ∈ s.pending.entries, Scheduled s.seen s.cutoffs s.epochs x
  cutoffs : ∀ source, s.cutoffs source ≤ s.epochs source
  faults : ∀ source c, s.faults.lookup source = some c → c = s.epochs source
  nodup : (s.pc.inHand.map Prod.fst).Nodup
  left : ∀ r ∈ s.pc.inHand, s.cutoffs r.1 ≤ r.2 ∧ r.2 ≤ s.epochs r.1

/-- Both only ever rise. -/
theorem Step.mono {s s' : St} (h : Step s s') :
    s.generation ≤ s'.generation ∧ ∀ source, s.epochs source ≤ s'.epochs source := by
  cases h with
  | midiReset => exact ⟨Nat.le_succ _, fun _ => Nat.le_refl _⟩
  | request source =>
    refine ⟨Nat.le_refl _, fun source' => ?_⟩
    simp only [St.request, Function.update_apply]
    split
    · rename_i heq
      rw [heq]
      exact Nat.le_succ _
    · exact Nat.le_refl _
  | lost i critical =>
    refine ⟨?_, fun _ => Nat.le_refl _⟩
    dsimp only
    split
    · exact Nat.le_succ _
    · exact Nat.le_refl _
  | refused e n hpc =>
    refine ⟨?_, fun _ => Nat.le_refl _⟩
    dsimp only
    split
    · exact Nat.le_succ _
    · exact Nat.le_refl _
  | _ => exact ⟨Nat.le_refl _, fun _ => Nat.le_refl _⟩

theorem lookup_of_mem_requests {faults : AList fun _ : String => Nat} {r : Request}
    (h : r ∈ requests faults) : faults.lookup r.1 = some r.2 := by
  obtain ⟨e, he, rfl⟩ := List.mem_map.mp h
  exact AList.mem_lookup_iff.mpr he

theorem mem_requests_of_lookup {faults : AList fun _ : String => Nat} {source : String} {c : Nat}
    (h : faults.lookup source = some c) : (source, c) ∈ requests faults :=
  List.mem_map.mpr ⟨⟨source, c⟩, AList.mem_lookup_iff.mp h, rfl⟩

theorem nodup_requests (faults : AList fun _ : String => Nat) :
    ((requests faults).map Prod.fst).Nodup := by
  have h : (requests faults).map Prod.fst = faults.keys := by
    simp [requests, AList.keys, List.keys]
  rw [h]
  exact faults.keys_nodup

/-- The requests that are taken are those of the map. -/
theorem taken_left {s : St} (h : Stamps s) {faults : List Request}
    (hperm : faults.Perm (requests s.faults)) :
    (faults.map Prod.fst).Nodup ∧
      ∀ r ∈ faults, s.cutoffs r.1 ≤ r.2 ∧ r.2 ≤ s.epochs r.1 := by
  refine ⟨(hperm.map _).nodup_iff.mpr (nodup_requests s.faults), fun r hr => ?_⟩
  have hr := h.faults r.1 r.2 (lookup_of_mem_requests (hperm.mem_iff.mp hr))
  rw [hr]
  exact ⟨h.cutoffs r.1, Nat.le_refl _⟩

theorem skipFrame_cases (n : Nat) : skipFrame n = .top ∨ ∃ k, skipFrame n = .drain k := by
  unfold skipFrame afterFrame
  split
  · exact .inl rfl
  · split
    · exact .inr ⟨_, rfl⟩
    · exact .inl rfl

theorem afterFrame_cases (n : Nat) : afterFrame n = .top ∨ ∃ k, afterFrame n = .drain k := by
  unfold afterFrame
  split
  · exact .inr ⟨_, rfl⟩
  · exact .inl rfl

/-- The next frame of the turn, or the next turn. -/
def Pc.resting : Pc → Prop
  | .top | .drain _ => True
  | _ => False

theorem resting_skipFrame (n : Nat) : (skipFrame n).resting := by
  obtain h | ⟨k, h⟩ := skipFrame_cases n
  · rw [h]; trivial
  · rw [h]; trivial

theorem resting_afterFrame (n : Nat) : (afterFrame n).resting := by
  obtain h | ⟨k, h⟩ := afterFrame_cases n
  · rw [h]; trivial
  · rw [h]; trivial

structure Pc.Empty (pc : Pc) : Prop where
  start : pc ≠ .start
  handed : pc.handed = []
  inHand : pc.inHand = []
  settling : pc.settling = false
  ended : pc.ended = false

theorem Pc.resting.empty {pc : Pc} (h : pc.resting) : pc.Empty := by
  cases pc with
  | top | drain n => exact ⟨(fun he => by cases he), rfl, rfl, rfl, rfl⟩
  | _ => cases h

theorem ne_admitting {pc : Pc} (h : pc.handed = []) (e : TimedRtpFrame) (n : Nat) :
    pc ≠ .admitting e n := by
  intro he
  rw [he] at h
  cases h

theorem Stamps.goto {s : St} (h : Stamps s) (pc : Pc) (hstart : pc ≠ .start)
    (hhanded : pc.handed = []) (hinHand : pc.inHand = []) : Stamps { s with pc } :=
  { h with
    start := fun he => absurd he hstart
    handed := by rw [hhanded]; exact List.forall_mem_nil _
    admitting := fun e n he => absurd he (ne_admitting hhanded e n)
    nodup := by rw [hinHand]; exact .nil
    left := by rw [hinHand]; exact List.forall_mem_nil _ }

theorem stamps_request {s : St} (h : Stamps s) (source : String) : Stamps (s.request source) := by
  have hmono := (Step.request (s := s) source).mono
  refine
    { h with
      queue := fun e he => (h.queue e he).mono hmono.1 hmono.2
      listeners := fun l hl => (h.listeners l hl).mono hmono.1 hmono.2
      handed := fun e he => (h.handed e he).mono hmono.1 hmono.2
      pending := fun x hx =>
        have hs := h.pending x hx
        ⟨hs.key, hs.generation, hs.fresh, hs.epoch.trans (hmono.2 _)⟩
      cutoffs := fun source' => (h.cutoffs source').trans (hmono.2 _)
      left := fun r hr => ⟨(h.left r hr).1, (h.left r hr).2.trans (hmono.2 _)⟩
      faults := fun source' c hc => ?_ }
  simp only [St.request, Function.update_apply] at hc ⊢
  split
  · rename_i heq
    rw [heq, AList.lookup_insert] at hc
    exact (Option.some.inj hc).symm
  · rename_i hne
    rw [AList.lookup_insert_ne hne] at hc
    exact h.faults source' c hc

/-- The generation rises. -/
theorem Stamps.rise {s : St} (h : Stamps s) {generation : Nat} (hg : s.generation ≤ generation) :
    Stamps { s with generation } :=
  { h with
    seen := h.seen.trans hg
    queue := fun e he => (h.queue e he).mono hg fun _ => Nat.le_refl _
    listeners := fun l hl => (h.listeners l hl).mono hg fun _ => Nat.le_refl _
    handed := fun e he => (h.handed e he).mono hg fun _ => Nat.le_refl _ }

theorem Stamps.listen {s : St} (h : Stamps s) (listeners : List Listener)
    (hl : ∀ l ∈ listeners, l ∈ s.listeners ∨ Stamped s.generation s.epochs l.frame) :
    Stamps { s with listeners } :=
  { h with listeners := fun l hmem => (hl l hmem).elim (h.listeners l) id }

theorem Stamps.drop {s : St} (h : Stamps s) (pending : Schedule Nat TimedRtpFrame)
    (hsub : ∀ x ∈ pending.entries, x ∈ s.pending.entries) : Stamps { s with pending } :=
  { h with
    start := fun he => List.eq_nil_iff_forall_not_mem.mpr fun x hx => by
      have hx := hsub x hx
      rw [h.start he] at hx
      cases hx
    pending := fun x hx => h.pending x (hsub x hx) }

/-- Nothing is scheduled, so what the task had seen may change. -/
theorem Stamps.clear {s : St} (h : Stamps s) (seen : Nat) (cutoffs : String → Nat)
    (hseen : seen ≤ s.generation) (hcutoffs : ∀ source, cutoffs source ≤ s.epochs source)
    (hinHand : s.pc.inHand = []) (hadmitting : ∀ e n, s.pc ≠ .admitting e n) :
    Stamps { s with pending := s.pending.clear, seen, cutoffs } :=
  { h with
    start := fun _ => rfl
    seen := hseen
    cutoffs := hcutoffs
    pending := List.forall_mem_nil _
    admitting := fun e n he => absurd he (hadmitting e n)
    left := by rw [hinHand]; exact List.forall_mem_nil _ }

theorem stamps_recover {s : St} (h : Stamps s) {source : String} {cutoff : Nat}
    {left : List Request} (hpc : s.pc = .recover ((source, cutoff) :: left)) :
    Stamps { s.recoverScheduledSource source cutoff with pc := .recover left } := by
  have hnodup := h.nodup
  have hleft := h.left
  rw [hpc] at hnodup hleft
  obtain ⟨hnew, hnodup⟩ := List.nodup_cons.mp hnodup
  have hcut := hleft _ List.mem_cons_self
  refine
    { h with
      start := fun he => by cases he
      handed := List.forall_mem_nil _
      admitting := fun e n he => by cases he
      nodup := hnodup
      pending := fun x hx => ?_
      cutoffs := fun source' => ?_
      left := fun r hr => ?_ }
  · obtain ⟨hx, hkeep⟩ := List.mem_filter.mp hx
    have hs := h.pending x hx
    refine ⟨hs.key, hs.generation, ?_, hs.epoch⟩
    simp only [St.recoverScheduledSource, Function.update_apply]
    split
    · rename_i heq
      exact (of_decide_eq_true hkeep).resolve_left (not_not.mpr heq)
    · exact hs.fresh
  · simp only [St.recoverScheduledSource, Function.update_apply]
    split
    · rename_i heq
      exact heq ▸ hcut.2
    · exact h.cutoffs source'
  · have hr : r ∈ left := hr
    have hne : r.1 ≠ source := fun heq => hnew (List.mem_map.mpr ⟨r, hr, heq⟩)
    have hr := hleft r (List.mem_cons_of_mem _ hr)
    simp only [St.recoverScheduledSource, Function.update_of_ne hne]
    exact hr

theorem stamps_step {s s' : St} (hst : Step s s') (h : Stamps s) : Stamps s' := by
  cases hst with
  | tick ms => exact { h with }
  | midiReset => exact h.rise (Nat.le_succ _)
  | request source => exact stamps_request h source
  | begin source data deadline critical =>
    refine h.listen _ fun l hl => ?_
    cases List.mem_append.mp hl with
    | inl hl => exact .inl hl
    | inr hl =>
      rw [List.mem_singleton.mp hl]
      exact .inr ⟨Nat.le_refl _, Nat.zero_le _⟩
  | stamp i frame hi =>
    refine h.listen _ fun l hl => ?_
    cases mem_of_set hl with
    | inl hl => exact .inl hl
    | inr hl =>
      rw [hl]
      exact .inr ⟨(h.listeners _ (List.mem_of_getElem? hi)).generation, Nat.le_refl _⟩
  | sent i frame hi =>
    have hframe := h.listeners _ (List.mem_of_getElem? hi)
    have hl := h.listen (s.listeners.eraseIdx i) fun l hl =>
      .inl (List.mem_of_mem_eraseIdx hl)
    refine { hl with queue := fun e he => ?_ }
    cases List.mem_append.mp he with
    | inl he => exact h.queue e he
    | inr he =>
      rw [List.mem_singleton.mp he]
      exact hframe
  | lost i critical =>
    have hl := h.listen (s.listeners.eraseIdx i) fun l hl =>
      .inl (List.mem_of_mem_eraseIdx hl)
    refine hl.rise ?_
    split
    · exact Nat.le_succ _
    · exact Nat.le_refl _
  | start hpc =>
    have hnone := h.start hpc
    exact
      { h.goto .top (fun he => by cases he) rfl rfl with
        start := fun he => by cases he
        seen := Nat.le_refl _
        admitting := fun e n he => by cases he
        pending := by rw [hnone]; exact List.forall_mem_nil _ }
  | renew hpc hseen =>
    have hc := h.clear s.generation (fun _ => 0) (Nat.le_refl _) (fun _ => Nat.zero_le _)
      (by rw [hpc]; rfl) fun e n he => by rw [hpc] at he; cases he
    exact hc.goto .faults (fun he => by cases he) rfl rfl
  | moves pc hm => exact h.goto pc hm.start hm.handed' hm.inHand'
  | take faults hpc hperm =>
    obtain ⟨hnodup, hleft⟩ := taken_left h hperm
    exact
      { h with
        start := fun he => by cases he
        handed := List.forall_mem_nil _
        admitting := fun e n he => by cases he
        faults := fun source c hc => by cases hc
        nodup := hnodup
        left := hleft }
  | recover source cutoff left hpc => exact stamps_recover h hpc
  | outdated n now e rest hpc he hold =>
    have hd := h.drop s.pending.tail fun x => List.mem_of_mem_tail
    exact hd.goto (.pop n now) (fun he => by cases he) rfl rfl
  | dispatch n now e rest hpc he hdue hgeneration =>
    have hd := h.drop s.pending.tail fun x => List.mem_of_mem_tail
    exact { hd.goto (.pop n now) (fun he => by cases he) rfl rfl with }
  | discard e n hpc hold =>
    have hr := (resting_skipFrame n).empty
    exact h.goto _ hr.start hr.handed hr.inHand
  | newer e n hpc hgeneration hepoch hseen =>
    have hhanded := h.handed
    rw [hpc] at hhanded
    have hc := h.clear e.generation s.cutoffs (hhanded e List.mem_cons_self).generation h.cutoffs
      (by rw [hpc]; rfl) fun e n he => by rw [hpc] at he; cases he
    exact
      { hc with
        start := fun he => by cases he
        handed := hhanded
        nodup := .nil
        left := List.forall_mem_nil _
        admitting := fun e' n' he => by cases he; exact ⟨rfl, hepoch⟩ }
  | pass e n hpc hgeneration hepoch hseen =>
    have hhanded := h.handed
    rw [hpc] at hhanded
    exact
      { h with
        start := fun he => by cases he
        handed := hhanded
        nodup := .nil
        left := List.forall_mem_nil _
        admitting := fun e' n' he => by cases he; exact ⟨hseen, hepoch⟩ }
  | refused e n hpc =>
    have hr := (resting_skipFrame n).empty
    have hg : s.generation ≤ if e.critical then s.generation + 1 else s.generation := by
      split
      · exact Nat.le_succ _
      · exact Nat.le_refl _
    exact { (h.rise hg).goto (skipFrame n) hr.start hr.handed hr.inHand with }
  | pushed e n hpc hroom =>
    have hr := (resting_afterFrame n).empty
    have hhanded := h.handed
    rw [hpc] at hhanded
    obtain ⟨hseen, hepoch⟩ := h.admitting e n hpc
    refine
      { h.goto (afterFrame n) hr.start hr.handed hr.inHand with
        start := fun he => absurd he hr.start
        pending := fun x hx => ?_ }
    cases Schedule.mem_insert.mp hx with
    | inl hx =>
      rw [hx]
      exact ⟨rfl, hseen, hepoch, (hhanded e List.mem_cons_self).epoch⟩
    | inr hx => exact h.pending x hx
  | receive e queue n hqueue hhanded hinHand hended =>
    have hq := h.queue
    rw [hqueue] at hq
    exact
      { h with
        start := fun he => by cases he
        queue := fun x hx => hq x (List.mem_cons_of_mem e hx)
        handed := fun x hx => List.mem_singleton.mp hx ▸ hq e List.mem_cons_self
        admitting := fun e' n' he => by cases he
        nodup := .nil
        left := List.forall_mem_nil _ }
  | flush source cutoff left hpc =>
    have hnodup := h.nodup
    have hleft := h.left
    rw [hpc] at hnodup hleft
    exact
      { h with
        start := fun he => by cases he
        handed := List.forall_mem_nil _
        admitting := fun e n he => by cases he
        nodup := (List.nodup_cons.mp hnodup).2
        left := fun r hr => hleft r (List.mem_cons_of_mem _ hr) }
  | stop faults hhanded hinHand hended hperm =>
    obtain ⟨hnodup, hleft⟩ := taken_left h hperm
    exact
      { h with
        start := fun he => by cases he
        handed := List.forall_mem_nil _
        admitting := fun e n he => by cases he
        faults := fun source c hc => by cases hc
        nodup := hnodup
        left := hleft }

/-! ## Requests -/

/-- The request is in hand, or its reset has been dispatched. -/
def Answered (pc : Pc) (log : List Event) (r : Request) : Prop :=
  r ∈ pc.inHand ∨ ∃ seen, Event.reset r.1 r.2 seen ∈ log

theorem Answered.logged {pc : Pc} {log : List Event} {r : Request} (h : Answered pc log r)
    (hinHand : pc.inHand = []) : ∃ seen, Event.reset r.1 r.2 seen ∈ log := by
  cases h with
  | inl hr =>
    rw [hinHand] at hr
    cases hr
  | inr hlog => exact hlog

theorem Answered.goto {pc pc' : Pc} {log : List Event} {r : Request} (h : Answered pc log r)
    (hinHand : pc.inHand = []) : Answered pc' log r := .inr (h.logged hinHand)

theorem Answered.append {pc pc' : Pc} {log : List Event} {r : Request} (h : Answered pc log r)
    (hinHand : pc.inHand = []) (e : Event) : Answered pc' (log ++ [e]) r :=
  .inr ((h.logged hinHand).imp fun _ => List.mem_append_left _)

/-- The next request in hand is answered. -/
theorem Answered.next {pc pc' : Pc} {log : List Event} {r : Request} {source : String}
    {cutoff seen : Nat} {left : List Request} (h : Answered pc log r)
    (hpc : pc.inHand = (source, cutoff) :: left) (hpc' : pc'.inHand = left) :
    Answered pc' (log ++ [.reset source cutoff seen]) r := by
  cases h with
  | inl hr =>
    rw [hpc] at hr
    cases List.mem_cons.mp hr with
    | inl hr =>
      rw [hr]
      exact .inr ⟨seen, List.mem_append_right _ List.mem_cons_self⟩
    | inr hr => exact .inl (hpc'.symm ▸ hr)
  | inr hlog => exact .inr (hlog.imp fun _ => List.mem_append_left _)

theorem Step.answered {s s' : St} (hst : Step s s') {r : Request} (h : Answered s.pc s.log r) :
    Answered s'.pc s'.log r := by
  cases hst with
  | tick | midiReset | request | begin | stamp | sent | lost => exact h
  | start hpc | renew hpc | take faults hpc | outdated n now e rest hpc | discard e n hpc
  | newer e n hpc | pass e n hpc | pushed e n hpc => exact h.goto (by rw [hpc]; rfl)
  | moves pc hm => exact h.goto hm.inHand
  | recover source cutoff left hpc => exact h.next (by rw [hpc]; rfl) rfl
  | dispatch n now e rest hpc | refused e n hpc => exact h.append (by rw [hpc]; rfl) _
  | receive e queue n hqueue hhanded hinHand => exact h.goto hinHand
  | flush source cutoff left hpc => exact h.next (by rw [hpc]; rfl) rfl
  | stop faults hhanded hinHand => exact h.goto hinHand

/-- What a step does to the requests. -/
theorem Step.asked {s s' : St} (hst : Step s s') :
    (∃ source, s' = s.request source) ∨ s'.epochs = s.epochs ∧
      (s'.faults = s.faults ∨ s'.pc.inHand.Perm (requests s.faults)) := by
  cases hst with
  | request source => exact .inl ⟨source, rfl⟩
  | take faults hpc hperm => exact .inr ⟨rfl, .inr hperm⟩
  | stop faults hhanded hinHand hended hperm => exact .inr ⟨rfl, .inr hperm⟩
  | _ => exact .inr ⟨rfl, .inl rfl⟩

/-- What a step that leads to the frames that are due does to them. -/
theorem Step.settling {s s' : St} (hst : Step s s') (h : s'.pc.settling = true) :
    (∀ x ∈ s'.pending.entries, x ∈ s.pending.entries) ∧
      (s.pc.settling = true ∨ s'.pc.inHand.Perm (requests s.faults)) := by
  cases hst with
  | tick | midiReset | request | begin | stamp | sent | lost => exact ⟨fun _ => id, .inl h⟩
  | moves pc hm => exact ⟨fun _ => id, .inl (hm.settling h)⟩
  | take faults hpc hperm => exact ⟨fun _ => id, .inr hperm⟩
  | recover source cutoff left hpc =>
    exact ⟨fun _ => List.mem_of_mem_filter, .inl (by rw [hpc]; rfl)⟩
  | outdated n now e rest hpc => exact ⟨fun _ => List.mem_of_mem_tail, .inl (by rw [hpc]; rfl)⟩
  | dispatch n now e rest hpc => exact ⟨fun _ => List.mem_of_mem_tail, .inl (by rw [hpc]; rfl)⟩
  | discard e n | refused e n =>
    rw [(resting_skipFrame n).empty.settling] at h
    cases h
  | pushed e n =>
    rw [(resting_afterFrame n).empty.settling] at h
    cases h
  | start | renew | newer | pass | receive | flush | stop => cases h

/-- `covered`: no request is lost. `prompt`: when frames are dispatched, the
requests made before they were stamped have been taken. -/
structure Requests (s : St) : Prop where
  covered : ∀ source, 0 < s.epochs source →
    s.faults.lookup source = some (s.epochs source) ∨
      Answered s.pc s.log (source, s.epochs source)
  prompt : s.pc.settling = true → ∀ x ∈ s.pending.entries, 0 < x.item.sourceEpoch →
    ∃ c, x.item.sourceEpoch ≤ c ∧ Answered s.pc s.log (x.item.frame.source, c)
  fresh : AtEach (fun before e => ∀ t now g, e = .frame t now g →
    0 < t.entry.item.sourceEpoch → ∃ c seen, t.entry.item.sourceEpoch ≤ c ∧
      Event.reset t.entry.item.frame.source c seen ∈ before) s.log
  final : ∀ epochs, s.final = some epochs → s.pc.ended = true ∧
    ∀ source, 0 < epochs source → Answered s.pc s.log (source, epochs source)
  ended : s.pc.ended = true → s.final.isSome

theorem covered_step {s s' : St} (hst : Step s s') (h : Requests s) (source : String)
    (hpos : 0 < s'.epochs source) : s'.faults.lookup source = some (s'.epochs source) ∨
      Answered s'.pc s'.log (source, s'.epochs source) := by
  obtain ⟨source', rfl⟩ | ⟨hepochs, hfaults⟩ := hst.asked
  · simp only [St.request, Function.update_apply] at hpos ⊢
    split
    · rename_i heq
      rw [heq, AList.lookup_insert]
      exact .inl rfl
    · rename_i hne
      rw [if_neg hne] at hpos
      rw [AList.lookup_insert_ne hne]
      exact h.covered source hpos
  · rw [hepochs] at hpos ⊢
    cases h.covered source hpos with
    | inr hanswered => exact .inr (hst.answered hanswered)
    | inl hlookup =>
      cases hfaults with
      | inl hsame => exact .inl (hsame ▸ hlookup)
      | inr hperm => exact .inr (.inl (hperm.mem_iff.mpr (mem_requests_of_lookup hlookup)))

theorem prompt_step {s s' : St} (hst : Step s s') (hstamps : Stamps s) (h : Requests s)
    (hsettling : s'.pc.settling = true) {x : Entry Nat TimedRtpFrame}
    (hx : x ∈ s'.pending.entries) (hpos : 0 < x.item.sourceEpoch) :
    ∃ c, x.item.sourceEpoch ≤ c ∧ Answered s'.pc s'.log (x.item.frame.source, c) := by
  obtain ⟨hsub, hbefore⟩ := hst.settling hsettling
  have hx := hsub x hx
  cases hbefore with
  | inl hbefore =>
    obtain ⟨c, hc, hanswered⟩ := h.prompt hbefore x hx hpos
    exact ⟨c, hc, hst.answered hanswered⟩
  | inr hperm =>
    -- the frame was stamped before the requests were taken
    have hepoch := (hstamps.pending x hx).epoch
    refine ⟨_, hepoch, ?_⟩
    cases h.covered _ (hpos.trans_le hepoch) with
    | inl hlookup => exact .inl (hperm.mem_iff.mpr (mem_requests_of_lookup hlookup))
    | inr hanswered => exact hst.answered hanswered

/-- How a step adds to the log. -/
theorem Step.log {s s' : St} (hst : Step s s') : s'.log = s.log ∨ ∃ e, s'.log = s.log ++ [e] ∧
    ∀ t now g, e = .frame t now g → s.pc.settling = true ∧ s.pc.inHand = [] ∧
      t.entry ∈ s.pending.entries ∧ t.entry.key ≤ now ∧ t.entry.item.generation = g := by
  cases hst with
  | recover source cutoff left hpc => exact .inr ⟨_, rfl, fun t now g he => by cases he⟩
  | dispatch n now e rest hpc he hdue hgeneration =>
    refine .inr ⟨_, rfl, fun t now' g heq => ?_⟩
    cases heq
    exact ⟨by rw [hpc]; rfl, by rw [hpc]; rfl, he ▸ List.mem_cons_self, hdue, hgeneration⟩
  | refused e n hpc => exact .inr ⟨_, rfl, fun t now g he => by cases he⟩
  | flush source cutoff left hpc => exact .inr ⟨_, rfl, fun t now g he => by cases he⟩
  | _ => exact .inl rfl

theorem fresh_step {s s' : St} (hst : Step s s') (h : Requests s) :
    AtEach (fun before e => ∀ t now g, e = .frame t now g →
      0 < t.entry.item.sourceEpoch → ∃ c seen, t.entry.item.sourceEpoch ≤ c ∧
        Event.reset t.entry.item.frame.source c seen ∈ before) s'.log := by
  obtain hlog | ⟨e, hlog, hframe⟩ := hst.log
  · rw [hlog]
    exact h.fresh
  · rw [hlog]
    refine h.fresh.concat fun t now g he hpos => ?_
    obtain ⟨hsettling, hinHand, hmem, -⟩ := hframe t now g he
    obtain ⟨c, hc, hanswered⟩ := h.prompt hsettling _ hmem hpos
    obtain ⟨seen, hseen⟩ := hanswered.logged hinHand
    exact ⟨c, seen, hc, hseen⟩

theorem final_step {s s' : St} (hst : Step s s') (h : Requests s) (epochs : String → Nat)
    (hfinal : s'.final = some epochs) : s'.pc.ended = true ∧
      ∀ source, 0 < epochs source → Answered s'.pc s'.log (source, epochs source) := by
  have hcovered := covered_step hst h
  have hkept (hsame : s'.final = s.final) (hended : s.pc.ended = true → s'.pc.ended = true) :
      s'.pc.ended = true ∧
        ∀ source, 0 < epochs source → Answered s'.pc s'.log (source, epochs source) := by
    obtain ⟨hpc, hanswered⟩ := h.final epochs (hsame ▸ hfinal)
    exact ⟨hended hpc, fun source hpos => hst.answered (hanswered source hpos)⟩
  cases hst with
  | stop faults hhanded hinHand hended hperm =>
    obtain rfl := Option.some.inj hfinal
    refine ⟨rfl, fun source hpos => (hcovered source hpos).resolve_left fun hlookup => ?_⟩
    cases hlookup
  | tick | midiReset | request | begin | stamp | sent | lost => exact hkept rfl id
  | moves pc hm => exact hkept rfl fun he => hm.ended.trans he
  | flush source cutoff left hpc => exact hkept rfl fun _ => rfl
  | receive e queue n hqueue hhanded hinHand hended =>
    exact hkept rfl fun he => by rw [hended] at he; cases he
  | start hpc | renew hpc | take faults hpc | recover source cutoff left hpc
  | outdated n now e rest hpc | dispatch n now e rest hpc | discard e n hpc | newer e n hpc
  | pass e n hpc | refused e n hpc | pushed e n hpc =>
    exact hkept rfl fun he => by rw [hpc] at he; cases he

theorem ended_step {s s' : St} (hst : Step s s') (h : Requests s) (hended : s'.pc.ended = true) :
    s'.final.isSome := by
  have hresting {pc : Pc} (hr : pc.resting) (he : pc.ended = true) : False := by
    rw [hr.empty.ended] at he
    cases he
  cases hst with
  | stop => rfl
  | tick | midiReset | request | begin | stamp | sent | lost => exact h.ended hended
  | moves pc hm => exact h.ended (hm.ended ▸ hended)
  | flush source cutoff left hpc => exact h.ended (by rw [hpc]; rfl)
  | discard e n | refused e n => exact (hresting (resting_skipFrame n) hended).elim
  | pushed e n => exact (hresting (resting_afterFrame n) hended).elim
  | start | renew | take | recover | outdated | dispatch | newer | pass | receive => cases hended

theorem requests_step {s s' : St} (hst : Step s s') (hstamps : Stamps s) (h : Requests s) :
    Requests s' where
  covered := covered_step hst h
  prompt hsettling _ hx hpos := prompt_step hst hstamps h hsettling hx hpos
  fresh := fresh_step hst h
  final := final_step hst h
  ended := ended_step hst h

/-! ## Resets -/

/-- `resets`: what the task remembers of the resets that it has dispatched.
`stale`: a frame older than the reset of its source belongs to a generation that
the task had not seen at the reset. -/
structure Cut (s : St) : Prop where
  seen : ∀ source c g, Event.reset source c g ∈ s.log → g ≤ s.seen
  resets : s.pc.ended = false → ∀ source c g, Event.reset source c g ∈ s.log → g = s.seen →
    c ≤ s.cutoffs source
  stale : AtEach (fun before e => ∀ t now g, e = .frame t now g → ∀ c seen,
    Event.reset t.entry.item.frame.source c seen ∈ before → t.entry.item.generation ≤ seen →
      c ≤ t.entry.item.sourceEpoch) s.log

theorem stale_step {s s' : St} (hst : Step s s') (hstamps : Stamps s) (h : Cut s) :
    AtEach (fun before e => ∀ t now g, e = .frame t now g → ∀ c seen,
      Event.reset t.entry.item.frame.source c seen ∈ before → t.entry.item.generation ≤ seen →
        c ≤ t.entry.item.sourceEpoch) s'.log := by
  obtain hlog | ⟨e, hlog, hframe⟩ := hst.log
  · rw [hlog]
    exact h.stale
  · rw [hlog]
    refine h.stale.concat fun t now g he c seen hreset hold => ?_
    obtain ⟨hsettling, -, hmem, -⟩ := hframe t now g he
    have hended : s.pc.ended = false := by
      cases hpc : s.pc with
      | recover | pop => rfl
      | _ => rw [hpc] at hsettling; cases hsettling
    have hx := hstamps.pending _ hmem
    have hseen : seen = s.seen := Nat.le_antisymm (h.seen _ _ _ hreset) (hx.generation ▸ hold)
    exact (h.resets hended _ _ _ hreset hseen).trans hx.fresh

/-- Nothing is dispatched, and what the task remembers stays. -/
theorem Cut.keep {s s' : St} (h : Cut s)
    (hstale : AtEach (fun before e => ∀ t now g, e = .frame t now g → ∀ c seen,
      Event.reset t.entry.item.frame.source c seen ∈ before → t.entry.item.generation ≤ seen →
        c ≤ t.entry.item.sourceEpoch) s'.log)
    (hlog : ∀ source c g, Event.reset source c g ∈ s'.log → Event.reset source c g ∈ s.log)
    (hseen : s'.seen = s.seen) (hcutoffs : s'.cutoffs = s.cutoffs)
    (hended : s'.pc.ended = false → s.pc.ended = false) : Cut s' where
  seen source c g hr := hseen ▸ h.seen source c g (hlog source c g hr)
  resets he source c g hr hg := hcutoffs ▸ h.resets (hended he) source c g (hlog source c g hr)
    (hg.trans hseen)
  stale := hstale

/-- The task sees a newer generation. -/
theorem Cut.newer {s s' : St} (h : Cut s) (hlog : s'.log = s.log) (hseen : s.seen < s'.seen) :
    Cut s' where
  seen source c g hr := (h.seen source c g (hlog ▸ hr)).trans hseen.le
  resets _ source c g hr hg := by
    have hle := h.seen source c g (hlog ▸ hr)
    exact absurd (hg ▸ hle) (Nat.not_le.mpr hseen)
  stale := hlog ▸ h.stale

theorem reset_mem_concat {log : List Event} {e : Event} {source : String} {c g : Nat}
    (h : Event.reset source c g ∈ log ++ [e]) (he : e ≠ .reset source c g) :
    Event.reset source c g ∈ log := by
  cases List.mem_append.mp h with
  | inl h => exact h
  | inr h => exact absurd (List.mem_singleton.mp h).symm he

theorem cut_recover {s : St} (hstamps : Stamps s) (h : Cut s) {source : String} {cutoff : Nat}
    {left : List Request} (hpc : s.pc = .recover ((source, cutoff) :: left))
    (hst : Step s { s.recoverScheduledSource source cutoff with pc := .recover left }) :
    Cut { s.recoverScheduledSource source cutoff with pc := .recover left } where
  seen source' c g hr := by
    cases List.mem_append.mp hr with
    | inl hr => exact h.seen source' c g hr
    | inr hr =>
      cases List.mem_singleton.mp hr
      exact Nat.le_refl _
  resets _ source' c g hr hg := by
    have hleft := hstamps.left
    rw [hpc] at hleft
    have hcut := (hleft _ List.mem_cons_self).1
    simp only [St.recoverScheduledSource, Function.update_apply]
    cases List.mem_append.mp hr with
    | inl hr =>
      have hc := h.resets (by rw [hpc]; rfl) source' c g hr hg
      split
      · rename_i heq
        exact (heq ▸ hc).trans hcut
      · exact hc
    | inr hr =>
      cases List.mem_singleton.mp hr
      rw [if_pos rfl]
  stale := stale_step hst hstamps h

theorem cut_step {s s' : St} (hst : Step s s') (hstamps : Stamps s) (h : Cut s) : Cut s' := by
  have hstale := stale_step hst hstamps h
  cases hst with
  | tick | midiReset | request | begin | stamp | sent | lost =>
    exact h.keep hstale (fun _ _ _ => id) rfl rfl id
  | start hpc =>
    cases Nat.eq_or_lt_of_le hstamps.seen with
    | inl hseen => exact h.keep hstale (fun _ _ _ => id) hseen.symm rfl fun _ => by rw [hpc]; rfl
    | inr hseen => exact h.newer rfl hseen
  | renew hpc hseen =>
    exact h.newer rfl (Nat.lt_of_le_of_ne hstamps.seen fun heq => hseen heq.symm)
  | newer e n hpc hgeneration hepoch hseen =>
    refine h.newer rfl (Nat.lt_of_le_of_ne ?_ fun heq => hseen heq.symm)
    exact hgeneration ▸ hstamps.seen
  | recover source cutoff left hpc =>
    exact cut_recover hstamps h hpc (.recover source cutoff left hpc)
  | moves pc hm =>
    exact h.keep hstale (fun _ _ _ => id) rfl rfl fun he => hm.ended ▸ he
  | dispatch n now e rest hpc =>
    exact h.keep hstale (fun _ _ _ hr => reset_mem_concat hr fun he => by cases he) rfl rfl
      fun _ => by rw [hpc]; rfl
  | refused e n hpc =>
    exact h.keep hstale (fun _ _ _ hr => reset_mem_concat hr fun he => by cases he) rfl rfl
      fun _ => by rw [hpc]; rfl
  | take faults hpc | outdated n now e rest hpc | discard e n hpc | pass e n hpc
  | pushed e n hpc => exact h.keep hstale (fun _ _ _ => id) rfl rfl fun _ => by rw [hpc]; rfl
  | receive e queue n hqueue hhanded hinHand hended =>
    exact h.keep hstale (fun _ _ _ => id) rfl rfl fun _ => hended
  | stop faults => exact h.keep hstale (fun _ _ _ => id) rfl rfl fun he => by cases he
  | flush source cutoff left hpc =>
    refine ⟨fun source' c g hr => ?_, (fun he => by cases he), hstale⟩
    cases List.mem_append.mp hr with
    | inl hr => exact h.seen source' c g hr
    | inr hr =>
      cases List.mem_singleton.mp hr
      exact Nat.le_refl _

/-! ## Every run -/

theorem stamps_inductive : system.Inductive Stamps where
  init := by
    rintro s ⟨generation, rfl⟩
    exact ⟨fun _ => rfl, Nat.zero_le _, List.forall_mem_nil _, List.forall_mem_nil _,
      List.forall_mem_nil _, (fun e n he => by cases he), List.forall_mem_nil _,
      fun _ => Nat.le_refl _, (fun source c hc => by cases hc), .nil, List.forall_mem_nil _⟩
  step s l s' h hst := stamps_step (step_cases hst) h

theorem requests_inductive : system.InductiveUnder Stamps Requests where
  init := by
    rintro s ⟨generation, rfl⟩
    exact ⟨(fun source hpos => absurd hpos (Nat.lt_irrefl 0)), (fun he => by cases he),
      atEach_nil _, (fun epochs he => by cases he), fun he => by cases he⟩
  step s l s' hstamps h hst := requests_step (step_cases hst) hstamps h

theorem cut_inductive : system.InductiveUnder Stamps Cut where
  init := by
    rintro s ⟨generation, rfl⟩
    exact ⟨(fun source c g hr => by cases hr), (fun _ source c g hr => by cases hr), atEach_nil _⟩
  step s l s' hstamps h hst := cut_step (step_cases hst) hstamps h

/-- In every run: (1) after the reset of a source for an epoch, no frame of it
with an older epoch is dispatched, unless its generation began after the one
that the task had seen at the reset; (2) a frame of a later epoch than the
first is dispatched only after the reset for that epoch or a newer one; (3) no
request is lost; (4) once the task has ended, every request made until it began
to end has had its reset. -/
theorem rtp_recovery (s : St) (h : system.Reachable s) :
    AtEach (fun before e => ∀ t now g, e = .frame t now g → ∀ c seen,
      Event.reset t.entry.item.frame.source c seen ∈ before → t.entry.item.generation ≤ seen →
        c ≤ t.entry.item.sourceEpoch) s.log ∧
    AtEach (fun before e => ∀ t now g, e = .frame t now g → 0 < t.entry.item.sourceEpoch →
      ∃ c seen, t.entry.item.sourceEpoch ≤ c ∧
        Event.reset t.entry.item.frame.source c seen ∈ before) s.log ∧
    (∀ source, 0 < s.epochs source → s.faults.lookup source = some (s.epochs source) ∨
      Answered s.pc s.log (source, s.epochs source)) ∧
    (s.pc = .stopped → ∃ epochs, s.final = some epochs ∧ ∀ source, 0 < epochs source →
      ∃ seen, Event.reset source (epochs source) seen ∈ s.log) := by
  have hrequests := requests_inductive.reachable stamps_inductive s h
  refine ⟨(cut_inductive.reachable stamps_inductive s h).stale, hrequests.fresh,
    hrequests.covered, fun hpc => ?_⟩
  obtain ⟨epochs, hfinal⟩ := Option.isSome_iff_exists.mp (hrequests.ended (by rw [hpc]; rfl))
  refine ⟨epochs, hfinal, fun source hpos => ?_⟩
  exact ((hrequests.final epochs hfinal).2 source hpos).logged (by rw [hpc]; rfl)

/-- A peer is lost before its next note is stamped. -/
def lostPeer : List Label :=
  [.turn, .turn, .take [], .turn, .turn, .begin "RTP:a" [0x90, 60, 100] 5 false,
    .request "RTP:a", .stamp 0, .send 0 true, .receive, .turn, .turn, .turn, .tick 5, .turn,
    .take [("RTP:a", 1)], .turn, .turn, .turn]

def lostNote : TimedRtpFrame := ⟨1, false, ⟨0, "RTP:a", [0x90, 60, 100]⟩, 5, 0⟩

theorem lostPeer_run : ∃ s, system.Reachable s ∧
    decide (s.log = [.reset "RTP:a" 1 0, .frame ⟨⟨5, 0, lostNote⟩, 1⟩ 5 0] ∧
      s.generation = 0 ∧ s.epochs "RTP:a" = 1) = true :=
  LTS.reachable_of_any lostPeer ⟨0, rfl⟩ (by decide +kernel)

theorem rtp_recovery_lostPeer : ∃ s : St, s.log.length = 2 ∧
    ∃ c seen, 1 ≤ c ∧ Event.reset "RTP:a" c seen ∈ s.log.take 1 := by
  obtain ⟨s, hr, htest⟩ := lostPeer_run
  have hlog := (of_decide_eq_true htest).1
  obtain ⟨c, seen, hc, hmem⟩ := (rtp_recovery s hr).2.1
    [.reset "RTP:a" 1 0] (.frame ⟨⟨5, 0, lostNote⟩, 1⟩ 5 0) [] hlog _ _ _ rfl Nat.one_pos
  exact ⟨s, by rw [hlog]; rfl, c, seen, hc, by rw [hlog]; exact hmem⟩

end RtpOscMidi.L5.RtpScheduler
