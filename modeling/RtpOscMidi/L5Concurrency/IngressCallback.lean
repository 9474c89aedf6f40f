import RtpOscMidi.L5Concurrency.AudioIngress

/-!
# The callback's side of the ingress

What a step of the callback does to the packets that the calls have pushed
(`Drains`), and that every step keeps the invariant.
-/
namespace RtpOscMidi.L5.AudioIngress

open Core L1.MidiMessage L2.MidiQueue L2.PendingMidi

variable {s s' : St} {i : Nat} {x x' : Send}

/-! ## The callback -/

/-- The callback asks for a reset before it takes a packet of a call from `c` on. -/
def Safe (s : St) (c : Nat) : Prop :=
  s.audio.generation ≠ s.audio.midiGeneration ∨ s.audio.callback = .advance ∨
    (s.audio.emergency = true ∧ Still s.audio.callback ∧
      ∀ (msg : MidiPacket) (b : Nat), s.audio.callback = .popped msg b →
        ∃ q rest, s.flight = q :: rest ∧ q.1 < c)

/-- What a step of the callback leaves alone. -/
structure Frame (s s' : St) : Prop where
  sends : s'.sends = s.sends
  pushed : s'.pushed = s.pushed
  route : s'.route = s.route
  producer : s'.producer = s.producer

/-- What a step of the callback does to what the ingress sees of it. -/
inductive Drains (s s' : St) : Prop
  /-- no reset is asked for, and no packet is done with -/
  | passed : s'.reached = s.reached → s'.seen = s.seen → s'.lastRaise = s.lastRaise →
      s'.audio.generation = s.audio.generation →
      s'.audio.midiGeneration = s.audio.midiGeneration →
      inHand s'.audio.callback ++ s'.audio.ring = inHand s.audio.callback ++ s.audio.ring →
      s'.audio.ring.length ≤ s.audio.ring.length →
      (∀ c, Safe s c → Safe s' c) → Drains s s'
  | raised : s'.reached = s.reached → s'.seen = s.seen → s'.lastRaise = s.sends.length →
      s.audio.generation ≤ s'.audio.generation →
      s.audio.midiGeneration ≤ s'.audio.midiGeneration →
      s'.audio.midiGeneration ≤ s'.audio.generation →
      inHand s'.audio.callback ++ s'.audio.ring = inHand s.audio.callback ++ s.audio.ring →
      s'.audio.ring.length ≤ s.audio.ring.length → Drains s s'
  /-- the packet in hand goes to the backlog or is dropped for its stamp -/
  | dealt (q : Nat × MidiPacket) (rest : List (Nat × MidiPacket)) : s.flight = q :: rest →
      inHand s.audio.callback = [q.2] → s'.seen = s.seen + 1 →
      s'.audio.generation = s.audio.generation →
      s'.audio.midiGeneration = s.audio.generation →
      inHand s'.audio.callback = [] → s'.audio.ring = s.audio.ring →
      s'.lastRaise = (if s.audio.generation = s.audio.midiGeneration then s.lastRaise
        else s.sends.length) →
      s'.reached = (if q.2.generation = s.audio.generation then
          s.reached ++ [⟨q.1, q.2, s.audio.generation, s'.lastRaise⟩]
        else s.reached) →
      (s.audio.generation = s.audio.midiGeneration → ∀ c, Safe s c → q.1 < c ∧ Safe s' c) →
      Drains s s'

theorem observe_generation (a : L2.PendingMidi.St) :
    (observeMidiGeneration a).generation = a.generation ∧
      (observeMidiGeneration a).midiGeneration = a.generation ∧
      (observeMidiGeneration a).ring = a.ring := by
  unfold observeMidiGeneration
  split
  · exact ⟨rfl, rfl, rfl⟩
  · rename_i h
    exact ⟨rfl, (Decidable.not_not.mp h).symm, rfl⟩

theorem drains (I : Inv s) (h : drainStep s = some s') : Frame s s' ∧ Drains s s' := by
  obtain ⟨a, ha, h⟩ := Option.map_eq_some_iff.mp h
  obtain ⟨hg, hm, hring⟩ := observe_generation s.audio
  have hal := I.aligned
  cases hc : s.audio.callback with
  | start =>
    simp only [drainMidi, hc, Option.some.injEq] at ha
    simp only [hc, raises, Bool.false_eq_true, if_false] at h
    subst h ha
    refine ⟨⟨rfl, rfl, rfl, rfl⟩, .passed rfl rfl rfl ?_ ?_ ?_ ?_ fun c hsafe => ?_⟩
    · split <;> rfl
    · split <;> rfl
    · rw [hc]
      split <;> rfl
    · split <;> exact Nat.le_refl _
    · rcases hsafe with hne | hadv | ⟨hem, -, -⟩
      · split <;> exact .inl hne
      · rw [hc] at hadv
        cases hadv
      · rw [if_pos hem]
        exact .inr (.inl rfl)
  | advance =>
    simp only [drainMidi, hc, Option.some.injEq] at ha
    simp only [hc, raises, if_true] at h
    subst h ha
    refine ⟨⟨rfl, rfl, rfl, rfl⟩, .raised rfl rfl rfl (Nat.le_succ _) (Nat.le_refl _)
      (Nat.le_succ_of_le I.observed_le) ?_ (Nat.le_refl _)⟩
    rw [hc]
    rfl
  | observe =>
    simp only [drainMidi, hc, Option.some.injEq] at ha
    simp only [hc, raises] at h
    subst h ha
    refine ⟨⟨rfl, rfl, rfl, rfl⟩, ?_⟩
    by_cases he : s.audio.generation = s.audio.midiGeneration
    · refine .passed rfl rfl ?_ hg (hm.trans he) ?_ (Nat.le_of_eq (congrArg _ hring))
        fun c hsafe => ?_
      · simp [he]
      · rw [hc]
        exact hring
      · rcases hsafe with hne | hadv | ⟨-, hstill, -⟩
        · exact absurd he hne
        · rw [hc] at hadv
          cases hadv
        · rw [hc] at hstill
          exact hstill.elim
    · refine .raised rfl rfl ?_ (Nat.le_of_eq hg.symm) (Nat.le_trans I.observed_le (Nat.le_of_eq hm.symm))
        (Nat.le_of_eq (hm.trans hg.symm)) ?_ (Nat.le_of_eq (congrArg _ hring))
      · simp [he]
      · rw [hc]
        exact hring
  | pop budget =>
    simp only [hc, raises, Bool.false_eq_true, if_false] at h
    subst h
    simp only [drainMidi, hc] at ha
    split at ha
    · rename_i budget' msg ring hr
      cases ha
      refine ⟨⟨rfl, rfl, rfl, rfl⟩, .passed rfl rfl rfl rfl rfl ?_ ?_ fun c hsafe => ?_⟩
      · rw [hc, hr]
        rfl
      · rw [hr]
        exact Nat.le_succ _
      · rcases hsafe with hne | hadv | ⟨-, hstill, -⟩
        · exact .inl hne
        · rw [hc] at hadv
          cases hadv
        · rw [hc] at hstill
          exact hstill.elim
    · cases ha
      refine ⟨⟨rfl, rfl, rfl, rfl⟩, .passed rfl rfl rfl rfl rfl ?_ (Nat.le_refl _) fun c hsafe => ?_⟩
      · rw [hc]
        rfl
      · rcases hsafe with hne | hadv | ⟨hem, -, -⟩
        · exact .inl hne
        · rw [hc] at hadv
          cases hadv
        · exact .inr (.inr ⟨hem, trivial, fun _ _ e => by cases e⟩)
  | popped msg budget =>
    rw [hc] at hal
    obtain ⟨q, rest, hfl, hq⟩ : ∃ q rest, s.flight = q :: rest ∧ q.2 = msg := by
      obtain ⟨q, rest, hfl, hq, -⟩ := List.map_eq_cons_iff.mp hal
      exact ⟨q, rest, hfl, hq⟩
    have hget : s.pushed[s.seen]? = some q := by
      rw [← List.head?_drop]
      exact congrArg List.head? hfl
    simp only [drainMidi, hc, Option.some.injEq] at ha
    simp only [hc, raises, hget] at h
    subst hq h ha
    refine ⟨⟨rfl, rfl, rfl, rfl⟩, .dealt q rest hfl ?_ rfl ?_ ?_ ?_ ?_ ?_ ?_ fun he c hsafe => ?_⟩
    · rw [hc]
      rfl
    · split <;> exact hg
    · split <;> exact hm
    · split <;> rfl
    · split <;> exact hring
    · by_cases he : s.audio.generation = s.audio.midiGeneration
      · simp [he]
      · simp [he]
    · by_cases he : q.2.generation = s.audio.generation
      · simp [he, hm]
      · simp [he, hm]
    · have ho : observeMidiGeneration s.audio = s.audio := if_neg (not_not_intro he)
      rcases hsafe with hne | hadv | ⟨hem, hstill, hhand⟩
      · exact absurd he hne
      · rw [hc] at hadv
        cases hadv
      · obtain ⟨q', rest', hfl', hlt⟩ := hhand q.2 budget hc
        rw [hfl] at hfl'
        obtain ⟨rfl, -⟩ := List.cons.inj hfl'
        rw [hc] at hstill
        cases budget with
        | zero =>
          refine ⟨hlt, .inr (.inr ⟨?_, ?_, ?_⟩)⟩
          · split <;> exact (congrArg _ ho).trans hem
          · split <;> trivial
          · intro msg b e
            split at e <;> cases e
        | succ b => exact hstill.elim
  | drained => simp [drainMidi, hc] at ha

theorem dealt_flight {q : Nat × MidiPacket} {rest : List (Nat × MidiPacket)}
    (h : s.flight = q :: rest) : q ∈ s.pushed ∧ s.seen + 1 ≤ s.pushed.length ∧
      s.pushed.take (s.seen + 1) = s.pushed.take s.seen ++ [q] ∧
      s.pushed.drop (s.seen + 1) = rest := by
  have hq : s.pushed[s.seen]? = some q := by
    rw [← List.head?_drop]
    exact congrArg List.head? h
  refine ⟨List.mem_of_getElem? hq, lt_of_getElem?_eq_some hq, ?_, ?_⟩
  · rw [List.take_add_one, hq]
    rfl
  · rw [← List.tail_drop]
    exact congrArg List.tail h

theorem reached_dealt {P : Prop} [Decidable P] {l l' : List Reached} {r₀ : Reached}
    (h : l' = if P then l ++ [r₀] else l) :
    (∀ r ∈ l, r ∈ l') ∧ ∀ r ∈ l', r ∈ l ∨ (P ∧ r = r₀) := by
  subst h
  split
  · rename_i hp
    refine ⟨fun r hr => List.mem_append_left _ hr, fun r hr => ?_⟩
    rcases List.mem_append.mp hr with hr | hr
    · exact .inl hr
    · exact .inr ⟨hp, List.mem_singleton.mp hr⟩
  · exact ⟨fun _ hr => hr, fun _ hr => .inl hr⟩

theorem inv_drain (I : Inv s) (h : drainStep s = some s') : Inv s' := by
  obtain ⟨hf, hd⟩ := drains I h
  have hslots : s'.audio.ring.length ≤ s.audio.ring.length → s.slots ≤ s'.slots := by
    intro hle
    unfold St.slots
    omega
  -- what the sends and the log of pushes say does not depend on the callback
  have hkeep : s'.audio.ring.length ≤ s.audio.ring.length →
      (∀ (i : Nat) (x : Send), s'.sends[i]? = some x → x.pc.holdsLock = true →
        s'.producer = some i) ∧
      (∀ (i : Nat) (x : Send), s'.sends[i]? = some x → x.pc = .room →
        x.packet.isCriticalRelease = false → midiReserve < s'.slots) ∧
      (∀ q ∈ s'.pushed, ∃ x, s'.sends[q.1]? = some x ∧ x.packet = q.2 ∧
        x.pc.hasPushed = true) ∧
      (∀ (i : Nat) (x : Send), s'.sends[i]? = some x → x.pc.hasPushed = true →
        ∃ q ∈ s'.pushed, q.1 = i) ∧ (s'.pushed.map Prod.fst).Nodup := by
    intro hle
    rw [hf.sends, hf.pushed, hf.producer]
    exact ⟨I.owner, fun i x hx hr hc => Nat.lt_of_lt_of_le (I.room i x hx hr hc) (hslots hle),
      I.pushed_send, I.send_pushed, I.once⟩
  cases hd with
  | passed hr hs hl hg hm hring hle hsafe =>
    obtain ⟨ho, hro, hps, hsp, hon⟩ := hkeep hle
    refine ⟨?_, ?_, ?_, ho, hro, hps, hsp, hon, ?_, ?_, ?_, ?_⟩
    · rw [hs, hf.pushed]
      exact I.seen_le
    · rw [hring, ← I.aligned]
      unfold St.flight
      rw [hs, hf.pushed]
    · rw [hm, hg]
      exact I.observed_le
    · rw [hf.sends, hm, hg, hl]
      exact I.stamp
    · rw [hr, hs, hf.pushed]
      exact I.reached_sub
    · rw [hr, hm]
      exact I.reached_stamp
    · unfold St.hasReached
      rw [hr, hs, hl, hf.pushed]
      exact I.dealt
  | raised hr hs hl hg hm hmg hring hle =>
    obtain ⟨ho, hro, hps, hsp, hon⟩ := hkeep hle
    refine ⟨?_, ?_, hmg, ho, hro, hps, hsp, hon, ?_, ?_, ?_, ?_⟩
    · rw [hs, hf.pushed]
      exact I.seen_le
    · rw [hring, ← I.aligned]
      unfold St.flight
      rw [hs, hf.pushed]
    · rw [hf.sends, hl]
      intro i x hx hst
      exact ⟨Nat.le_trans (I.stamp i x hx hst).1 hg, fun _ => lt_of_getElem?_eq_some hx⟩
    · rw [hr, hs, hf.pushed]
      exact I.reached_sub
    · rw [hr]
      intro r hr'
      exact ⟨(I.reached_stamp r hr').1, Nat.le_trans (I.reached_stamp r hr').2 hm⟩
    · rw [hs, hl, hf.pushed]
      intro q hq
      exact .inr (I.pushed_lt q (List.mem_of_mem_take hq))
  | dealt q rest hfl hin hs hg hm hhand hring hl hr hsafe =>
    obtain ⟨ho, hro, hps, hsp, hon⟩ := hkeep (Nat.le_of_eq (congrArg _ hring))
    obtain ⟨hq, hlt, htake, hdrop⟩ := dealt_flight hfl
    -- the observation of this step counts as a reset when it sees a newer generation
    have hraise : ∀ i < s.sends.length, (s.audio.generation = s.audio.midiGeneration →
        i < s.lastRaise) → i < s'.lastRaise := by
      intro i hi himp
      rw [hl]
      split
      · rename_i he
        exact himp he
      · exact hi
    obtain ⟨hold, hnew⟩ := reached_dealt hr
    refine ⟨?_, ?_, Nat.le_of_eq (hm.trans hg.symm), ho, hro, hps, hsp, hon, ?_, ?_, ?_, ?_⟩
    · rw [hs, hf.pushed]
      exact hlt
    · unfold St.flight
      rw [hs, hf.pushed, hdrop, hhand, hring, List.nil_append]
      have hal := I.aligned
      rw [hfl, hin] at hal
      exact (List.cons.inj hal).2
    · rw [hf.sends, hm, hg]
      intro i x hx hst
      obtain ⟨hle, hlow⟩ := I.stamp i x hx hst
      exact ⟨hle, fun hgen => hraise i (lt_of_getElem?_eq_some hx) fun he => hlow (he ▸ hgen)⟩
    · rw [hr, hs, hf.pushed, htake]
      split
      · rw [List.map_append]
        exact I.reached_sub.append (List.Sublist.refl _)
      · exact I.reached_sub.trans (List.sublist_append_left _ _)
    · intro r hr'
      rw [hm]
      rcases hnew r hr' with hr' | ⟨he, rfl⟩
      · exact ⟨(I.reached_stamp r hr').1, Nat.le_trans (I.reached_stamp r hr').2 I.observed_le⟩
      · exact ⟨he, Nat.le_refl _⟩
    · rw [hs, hf.pushed, htake]
      intro p hp
      rcases List.mem_append.mp hp with hp | hp
      · rcases I.dealt p hp with ⟨r, hr', hp'⟩ | hp'
        · exact .inl ⟨r, hold r hr', hp'⟩
        · exact .inr (hraise p.1 (I.pushed_lt p (List.mem_of_mem_take hp)) fun _ => hp')
      · rw [List.mem_singleton.mp hp]
        by_cases he : q.2.generation = s.audio.generation
        · refine .inl ⟨⟨q.1, q.2, s.audio.generation, s'.lastRaise⟩, ?_, rfl⟩
          rw [hr, if_pos he]
          exact List.mem_append_right _ List.mem_cons_self
        · obtain ⟨hle, hlow⟩ := I.pushed_stamp hq
          exact .inr (hraise q.1 (I.pushed_lt q hq) fun he' => hlow (by omega))

theorem Inv.routed (I : Inv s) (r : Route) (a f : Nat) (e : Bool) :
    Inv { s with route := r, advances := a, flags := f, audio := { s.audio with emergency := e } } :=
  ⟨I.seen_le, I.aligned, I.observed_le, I.owner, I.room, I.pushed_send, I.send_pushed, I.once,
    I.stamp, I.reached_sub, I.reached_stamp, I.dealt⟩

/-- The callback ends. -/
theorem Inv.ended (I : Inv s) (hc : s.audio.callback = .drained) (q : Queue)
    (r d : List MidiPacket) (p : Held → Bool) :
    Inv { s with audio := { s.audio with
      callback := .start, queue := q, received := r, delivered := d, held := p } } := by
  have hal := I.aligned
  rw [hc] at hal
  exact ⟨I.seen_le, hal, I.observed_le, I.owner, I.room, I.pushed_send, I.send_pushed, I.once,
    I.stamp, I.reached_sub, I.reached_stamp, I.dealt⟩

theorem inv_step {l : Lbl} (I : Inv s) (h : step s l = some s') : Inv s' := by
  have hle1 := Nat.le_succ s.audio.generation
  cases l with
  | submit packet =>
    cases h
    have hnew : ∀ (i : Nat) (x : Send), (s.sends ++ [⟨packet,
        if s.route = .stored then .loaded else .returned .audioStopped (s.sends.length + 1)⟩])[i]?
          = some x → s.sends[i]? = some x ∨ (x.pc.holdsLock = false ∧ x.pc ≠ .room ∧
            x.pc.hasPushed = false ∧ x.pc.hasStamp = false) := by
      intro i x hx
      rcases getElem?_concat_cases hx with ⟨-, rfl⟩ | hx
      · refine .inr ?_
        by_cases hr : s.route = .stored <;> simp [hr, Pc.holdsLock, Pc.hasPushed, Pc.hasStamp]
      · exact .inl hx
    refine ⟨I.seen_le, I.aligned, I.observed_le, ?_, ?_, ?_, ?_, I.once, ?_, I.reached_sub,
      I.reached_stamp, I.dealt⟩
    · intro i x hx hl
      rcases hnew i x hx with hx | ⟨hl', -, -, -⟩
      · exact I.owner i x hx hl
      · rw [hl'] at hl
        cases hl
    · intro i x hx hr hc
      rcases hnew i x hx with hx | ⟨-, hr', -, -⟩
      · exact I.room i x hx hr hc
      · exact absurd hr hr'
    · intro q hq
      obtain ⟨x, hx, hp, hpc⟩ := I.pushed_send q hq
      exact ⟨x, by rw [List.getElem?_append_left (lt_of_getElem?_eq_some hx)]; exact hx, hp, hpc⟩
    · intro i x hx hp
      rcases hnew i x hx with hx | ⟨-, -, hp', -⟩
      · exact I.send_pushed i x hx hp
      · rw [hp'] at hp
        cases hp
    · intro i x hx hs
      rcases hnew i x hx with hx | ⟨-, -, -, hs'⟩
      · exact I.stamp i x hx hs
      · rw [hs'] at hs
        cases hs
  | send i =>
    obtain ⟨x, hx, h⟩ := Option.bind_eq_some_iff.mp h
    exact inv_sendStep I hx h
  | request =>
    simp only [step, Option.some.injEq] at h
    subst h
    split <;> exact I.routed _ _ _ _
  | requestAdvance =>
    simp only [step] at h
    split at h
    · cases h
    · cases h
      exact ⟨I.seen_le, I.aligned, Nat.le_trans I.observed_le hle1, I.owner, I.room, I.pushed_send,
        I.send_pushed, I.once,
        fun i x hx hs => ⟨Nat.le_trans (I.stamp i x hx hs).1 hle1, (I.stamp i x hx hs).2⟩,
        I.reached_sub, I.reached_stamp, I.dealt⟩
  | requestFlag =>
    simp only [step] at h
    split at h
    · cases h
    · cases h
      exact I.routed _ _ _ _
  | drain =>
    simp only [step] at h
    split at h
    · cases h
    · exact inv_drain I h
  | miss =>
    simp only [step] at h
    split at h
    · rename_i hc
      cases h
      exact I.ended hc _ _ _ _
    · cases h
  | playing k done =>
    simp only [step] at h
    split at h
    · rename_i hc
      cases h
      exact I.ended hc _ _ _ _
    · cases h
  | withdraw =>
    simp only [step] at h
    split at h
    · cases h
      exact I.routed _ _ _ _
    · cases h
  | restore =>
    simp only [step] at h
    split at h
    · cases h
      exact I.routed _ _ _ _
    · cases h
  | teardown =>
    simp only [step] at h
    split at h
    · cases h
      exact I.routed _ _ _ _
    · cases h

theorem inv_inductive : system.Inductive Inv where
  init s h := by
    have h0 : s = init := h
    rw [h0]
    exact inv_init
  step _ _ _ I h := inv_step I h

end RtpOscMidi.L5.AudioIngress
