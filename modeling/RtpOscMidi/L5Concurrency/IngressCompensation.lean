import RtpOscMidi.L5Concurrency.IngressCallback

/-!
# Lost releases on the way to the callback

A release that came back has reached the backlog, has been followed by a
reset, or will be before a packet of a later call is taken (`Covered`).

* `ingress_compensated`: where the route is put back only after a reset for
  what was refused (`Compensated`).
* `release_lost`: a run in which it is put back too early.
-/
namespace RtpOscMidi.L5.AudioIngress

open Core L1.MidiMessage L2.MidiQueue L2.PendingMidi

variable {s s' : St} {i : Nat} {x x' : Send}

/-! ## A release that does not reach the backlog -/

/-- The packet of call `i` is on its way, and nothing from `c` on before it. -/
def Ahead (i c : Nat) (l : List (Nat × MidiPacket)) : Prop :=
  ∃ xs p ys, l = xs ++ (i, p) :: ys ∧ ∀ q ∈ xs, q.1 < c

/-- The route is gone and no packet from `c` on is on its way. -/
structure Quiet (s : St) (c : Nat) : Prop where
  route : s.route ≠ .stored
  pushed : ∀ q ∈ s.pushed, q.1 < c
  sends : ∀ (j : Nat) (y : Send), c ≤ j → s.sends[j]? = some y → ∃ n, y.pc = .returned .audioStopped n

/-- The release of call `i`, back when `c` calls had been submitted, reached
the backlog, has been followed by a reset, or will be before any packet of a
call from `c` on is taken. -/
inductive Covered (s : St) (i : Nat) (o : MidiSendOutcome) (c : Nat) : Prop
  | reached : s.hasReached i → Covered s i o c
  | reset : i < s.lastRaise → Covered s i o c
  | safe : (∀ r ∈ s.reached, r.call < c) → Safe s c → Covered s i o c
  | ahead : (∀ r ∈ s.reached, r.call < c) → Ahead i c s.flight → Covered s i o c
  | quiet : (∀ r ∈ s.reached, r.call < c) → Quiet s c → o = .audioStopped → Covered s i o c

/-- Every release that is back is covered, and was when a later packet reached
the backlog. -/
structure Inv2 (s : St) : Prop where
  covered : s.route ≠ .dropped → ∀ (i : Nat) (x : Send) (o : MidiSendOutcome) (c : Nat),
    s.sends[i]? = some x → x.pc = .returned o c → x.packet.isCriticalRelease = true →
    Covered s i o c
  logged : ∀ (i : Nat) (x : Send) (o : MidiSendOutcome) (c : Nat),
    s.sends[i]? = some x → x.pc = .returned o c → x.packet.isCriticalRelease = true →
    ∀ r ∈ s.reached, c ≤ r.call → s.hasReached i ∨ i < r.lastRaise

theorem inv2_init : Inv2 init where
  covered _ i x o c h := by simp [init] at h
  logged i x o c h := by simp [init] at h

variable {o : MidiSendOutcome} {c : Nat}

theorem Covered.move (hr : s'.reached = s.reached) (hl : i < s.lastRaise → i < s'.lastRaise)
    (hf : ∃ l, s'.flight = s.flight ++ l) (hsafe : Safe s c → Safe s' c)
    (hquiet : Quiet s c → Quiet s' c) (h : Covered s i o c) : Covered s' i o c := by
  have hfresh : (∀ r ∈ s.reached, r.call < c) → ∀ r ∈ s'.reached, r.call < c := by
    rw [hr]
    exact id
  cases h with
  | reached hi =>
    refine .reached ?_
    unfold St.hasReached
    rw [hr]
    exact hi
  | reset hi => exact .reset (hl hi)
  | safe hn hs => exact .safe (hfresh hn) (hsafe hs)
  | ahead hn ha =>
    obtain ⟨xs, p, ys, he, hxs⟩ := ha
    obtain ⟨l, hl⟩ := hf
    refine .ahead (hfresh hn) ⟨xs, p, ys ++ l, ?_, hxs⟩
    rw [hl, he, List.append_assoc, List.cons_append]
  | quiet hn hq ho => exact .quiet (hfresh hn) (hquiet hq) ho

/-- `Safe` stands when the generation grows and the flag goes up. -/
theorem Safe.mono (I : Inv s) (hg : s.audio.generation ≤ s'.audio.generation)
    (hm : s'.audio.midiGeneration = s.audio.midiGeneration)
    (hc : s'.audio.callback = s.audio.callback)
    (he : s.audio.emergency = true → s'.audio.emergency = true)
    (hf : ∃ l, s'.flight = s.flight ++ l) (h : Safe s c) : Safe s' c := by
  have hle := I.observed_le
  unfold Safe
  rw [hm, hc]
  rcases h with hne | hadv | ⟨hem, hstill, hhand⟩
  · exact .inl (by omega)
  · exact .inr (.inl hadv)
  · refine .inr (.inr ⟨he hem, hstill, fun msg b hcb => ?_⟩)
    obtain ⟨q, rest, hfl, hlt⟩ := hhand msg b hcb
    obtain ⟨l, hl⟩ := hf
    exact ⟨q, rest ++ l, by rw [hl, hfl, List.cons_append], hlt⟩

/-- What a step of a call does. -/
structure Sends (s s' : St) (i : Nat) (x x' : Send) : Prop where
  sends : s'.sends = s.sends.set i x'
  reached : s'.reached = s.reached
  lastRaise : s'.lastRaise = s.lastRaise
  seen : s'.seen = s.seen
  route : s'.route = s.route
  callback : s'.audio.callback = s.audio.callback
  midiGeneration : s'.audio.midiGeneration = s.audio.midiGeneration
  emergency : s'.audio.emergency = s.audio.emergency
  generation : s.audio.generation ≤ s'.audio.generation
  pushed : s'.pushed = s.pushed ∨ (x.pc = .room ∧ s'.pushed = s.pushed ++ [(i, x.packet)])
  out : ∀ o c, x.pc ≠ .returned o c
  /-- a release comes back in one of three ways -/
  back : ∀ o c, x'.pc = .returned o c → x'.packet.isCriticalRelease = true →
    c = s.sends.length ∧
      ((x.pc.hasStamp = true ∧ x.packet.generation ≠ s.audio.generation) ∨
        s'.audio.generation = s.audio.generation + 1 ∨ x.pc.hasPushed = true)

theorem sends_same {p : Option Nat} {q : Queue} (hout : ∀ o c, x.pc ≠ .returned o c)
    (hback : ∀ o c, x'.pc = .returned o c → x'.packet.isCriticalRelease = true →
      c = s.sends.length ∧
        ((x.pc.hasStamp = true ∧ x.packet.generation ≠ s.audio.generation) ∨
          x.pc.hasPushed = true)) :
    Sends s { s with
      sends := s.sends.set i x', producer := p, audio := { s.audio with queue := q } } i x x' :=
  ⟨rfl, rfl, rfl, rfl, rfl, rfl, rfl, rfl, Nat.le_refl _, .inl rfl, hout,
    fun o c hr hc => ⟨(hback o c hr hc).1, (hback o c hr hc).2.imp_right .inr⟩⟩

theorem sendStep_pending (h : sendStep s i x = some s') (o : MidiSendOutcome) (c : Nat) :
    x.pc ≠ .returned o c := by
  intro hpc
  simp [sendStep, hpc] at h

theorem sends (h : sendStep s i x = some s') : ∃ x', Sends s s' i x x' := by
  have hout := sendStep_pending h
  cases hpc : x.pc with
  | loaded =>
    simp only [sendStep, hpc, Option.some.injEq] at h
    subst h
    exact ⟨_, sends_same (q := s.audio.queue) hout fun _ _ hr => by cases hr⟩
  | stamped =>
    simp only [sendStep, hpc] at h
    split at h
    · rename_i hne
      cases h
      refine ⟨_, sends_same (q := s.audio.queue) hout fun o c hr _ => ?_⟩
      cases hr
      exact ⟨rfl, .inl ⟨by rw [hpc]; rfl, hne⟩⟩
    · cases h
      exact ⟨_, sends_same (q := s.audio.queue) hout fun _ _ hr => by cases hr⟩
  | checked =>
    simp only [sendStep, hpc] at h
    split at h
    · cases h
      exact ⟨_, sends_same (q := s.audio.queue) hout fun _ _ hr => by cases hr⟩
    · cases h
      exact ⟨_, sends_same (q := s.audio.queue) hout fun _ _ hr => by cases hr⟩
  | locked =>
    simp only [sendStep, hpc] at h
    split at h
    · cases h
      exact ⟨_, sends_same (q := s.audio.queue) hout fun _ _ hr => by cases hr⟩
    · cases h
      exact ⟨_, sends_same (q := s.audio.queue) hout fun _ _ hr => by cases hr⟩
  | room =>
    simp only [sendStep, hpc] at h
    split at h
    · cases h
      exact ⟨_, rfl, rfl, rfl, rfl, rfl, rfl, rfl, rfl, Nat.le_refl _, .inr ⟨hpc, rfl⟩,
        hout, fun _ _ hr => by cases hr⟩
    · cases h
      exact ⟨_, sends_same (q := s.audio.queue) hout fun _ _ hr => by cases hr⟩
  | unlocking sent =>
    cases sent with
    | true =>
      simp only [sendStep, hpc, Option.some.injEq] at h
      subst h
      refine ⟨_, sends_same (q := s.audio.queue) hout fun o c hr _ => ?_⟩
      cases hr
      exact ⟨rfl, .inr (by rw [hpc]; rfl)⟩
    | false =>
      simp only [sendStep, hpc, Option.some.injEq] at h
      subst h
      exact ⟨_, sends_same (q := s.audio.queue) hout fun _ _ hr => by cases hr⟩
  | failed =>
    simp only [sendStep, hpc, Option.some.injEq] at h
    subst h
    refine ⟨_, sends_same hout fun o c hr hc => ?_⟩
    simp only at hr hc
    rw [if_pos hc] at hr
    cases hr
  | fallback =>
    simp only [sendStep, hpc, Option.some.injEq] at h
    subst h
    refine ⟨_, rfl, rfl, rfl, rfl, rfl, rfl, rfl, rfl, Nat.le_succ _,
      .inl rfl, hout, fun o c hr _ => ?_⟩
    cases hr
    exact ⟨rfl, .inr (.inl rfl)⟩
  | returned outcome calls => simp [sendStep, hpc] at h

theorem Sends.flight (I : Inv s) (h : Sends s s' i x x') :
    ∃ l, s'.flight = s.flight ++ l := by
  unfold St.flight
  rw [h.seen]
  rcases h.pushed with hp | ⟨-, hp⟩
  · exact ⟨[], by rw [hp, List.append_nil]⟩
  · exact ⟨[(i, x.packet)], by rw [hp]; exact List.drop_append_of_le_length I.seen_le⟩

/-- A call that is under way came before every call from `c` on. -/
theorem Sends.quiet (hx : s.sends[i]? = some x) (h : Sends s s' i x x') (hq : Quiet s c) :
    Quiet s' c := by
  have hi : i < c := by
    by_contra hle
    obtain ⟨n, hn⟩ := hq.sends i x (Nat.not_lt.mp hle) hx
    exact h.out _ _ hn
  refine ⟨h.route ▸ hq.route, fun q hq' => ?_, fun j y hj hy => ?_⟩
  · rcases h.pushed with hp | ⟨-, hp⟩
    · exact hq.pushed q (hp ▸ hq')
    · rw [hp] at hq'
      rcases List.mem_append.mp hq' with hq' | hq'
      · exact hq.pushed q hq'
      · rw [List.mem_singleton.mp hq']
        exact hi
  · rw [h.sends] at hy
    rcases getElem?_set_cases hy with ⟨rfl, rfl⟩ | ⟨-, hy⟩
    · omega
    · exact hq.sends j y hj hy

/-- A release is covered when it comes back. -/
theorem Sends.covered (I : Inv s) (hx : s.sends[i]? = some x) (h : Sends s s' i x x')
    (hback : c = s.sends.length ∧
      ((x.pc.hasStamp = true ∧ x.packet.generation ≠ s.audio.generation) ∨
        s'.audio.generation = s.audio.generation + 1 ∨ x.pc.hasPushed = true)) :
    Covered s i o c ∨ Covered s' i o c := by
  have hfresh : ∀ r ∈ s.reached, r.call < c := fun r hr => hback.1 ▸ I.reached_lt hr
  rcases hback.2 with ⟨hs, hne⟩ | hg | hp
  · -- the generation has moved since the stamp
    obtain ⟨hle, hlow⟩ := I.stamp i x hx hs
    refine .inl ?_
    by_cases he : s.audio.generation = s.audio.midiGeneration
    · exact .reset (hlow (by omega))
    · exact .safe hfresh (.inl he)
  · have hle := I.observed_le
    refine .inr (.safe (h.reached ▸ hfresh) (.inl ?_))
    rw [h.midiGeneration]
    omega
  · obtain ⟨q, hq, rfl⟩ := I.send_pushed i x hx hp
    refine .inl ?_
    rw [← List.take_append_drop s.seen s.pushed] at hq
    rcases List.mem_append.mp hq with hq | hq
    · rcases I.dealt q hq with hd | hd
      · exact .reached hd
      · exact .reset hd
    · obtain ⟨xs, ys, he⟩ := List.append_of_mem hq
      refine .ahead hfresh ⟨xs, q.2, ys, he, fun p hp => ?_⟩
      have hmem : p ∈ s.pushed :=
        List.mem_of_mem_drop (i := s.seen) (by rw [he]; exact List.mem_append_left _ hp)
      exact hback.1 ▸ I.pushed_lt p hmem

theorem inv2_sendStep (I : Inv s) (I2 : Inv2 s) (hx : s.sends[i]? = some x)
    (h : sendStep s i x = some s') : Inv2 s' := by
  obtain ⟨x', hs⟩ := sends h
  have hmove : ∀ (j : Nat) (o : MidiSendOutcome) (c : Nat), Covered s j o c → Covered s' j o c := by
    intro j o c
    refine Covered.move hs.reached (fun hj => hs.lastRaise ▸ hj) (hs.flight I) ?_ (hs.quiet hx)
    exact Safe.mono I hs.generation hs.midiGeneration hs.callback (fun e => hs.emergency.trans e)
      (hs.flight I)
  refine ⟨fun hroute j y o c hy hpc hcr => ?_, fun j y o c hy hpc hcr => ?_⟩
  · rw [hs.sends] at hy
    rcases getElem?_set_cases hy with ⟨rfl, rfl⟩ | ⟨-, hy⟩
    · rcases hs.covered I hx (hs.back o c hpc hcr) with hc | hc
      · exact hmove j o c hc
      · exact hc
    · exact hmove j o c (I2.covered (hs.route ▸ hroute) j y o c hy hpc hcr)
  · unfold St.hasReached
    rw [hs.reached]
    rw [hs.sends] at hy
    rcases getElem?_set_cases hy with ⟨rfl, rfl⟩ | ⟨-, hy⟩
    · intro r hr hle
      have hlt := I.reached_lt hr
      have hc := (hs.back o c hpc hcr).1
      omega
    · exact I2.logged j y o c hy hpc hcr

/-- What a step of the callback leaves of a release that is covered, and what
it makes of a later packet that reaches the backlog in it. -/
theorem Covered.drain (I' : Inv s') (hf : Frame s s') (hd : Drains s s')
    (hi : i < s.sends.length) (h : Covered s i o c) :
    Covered s' i o c ∧ ∀ r ∈ s'.reached, r ∈ s.reached ∨ (c ≤ r.call →
      s'.hasReached i ∨ i < r.lastRaise) := by
  have hquiet : Quiet s c → Quiet s' c := fun hq =>
    ⟨hf.route ▸ hq.route, hf.pushed ▸ hq.pushed, hf.sends ▸ hq.sends⟩
  cases hd with
  | passed hr hs hl hg hm hring hle hsafe =>
    refine ⟨h.move hr (fun hj => hl ▸ hj) ⟨[], ?_⟩ (hsafe c) hquiet, fun r hr' => .inl (hr ▸ hr')⟩
    unfold St.flight
    rw [hs, hf.pushed, List.append_nil]
  | raised hr hs hl hg hm hmg hring hle =>
    exact ⟨.reset (hl ▸ hi), fun r hr' => .inl (hr ▸ hr')⟩
  | dealt q rest hfl hin hs hg hm hhand hring hl hr hsafe =>
    obtain ⟨hq, -, htake, hdrop⟩ := dealt_flight hfl
    obtain ⟨hold, hnew⟩ := reached_dealt hr
    have hflight : s'.flight = rest := by
      unfold St.flight
      rw [hs, hf.pushed]
      exact hdrop
    have hfresh : (∀ r ∈ s.reached, r.call < c) → q.1 < c → ∀ r ∈ s'.reached, r.call < c := by
      intro h hlt r hr'
      rcases hnew r hr' with hr' | ⟨-, rfl⟩
      · exact h r hr'
      · exact hlt
    -- once a packet from before `c` is dealt with there is nothing more to show
    have hbefore : ∀ r ∈ s'.reached, q.1 < c → r ∈ s.reached ∨ (c ≤ r.call →
        s'.hasReached i ∨ i < r.lastRaise) := by
      intro r hr' hlt
      rcases hnew r hr' with hr' | ⟨-, rfl⟩
      · exact .inl hr'
      · exact .inr fun hle => absurd hle (Nat.not_le.mpr hlt)
    have hraised : i < s'.lastRaise → ∀ r ∈ s'.reached, r ∈ s.reached ∨ (c ≤ r.call →
        s'.hasReached i ∨ i < r.lastRaise) := by
      intro hlt r hr'
      rcases hnew r hr' with hr' | ⟨-, rfl⟩
      · exact .inl hr'
      · exact .inr fun _ => .inr hlt
    cases h with
    | reached hi' =>
      obtain ⟨r₀, hr₀, hcall⟩ := hi'
      have hi'' : s'.hasReached i := ⟨r₀, hold r₀ hr₀, hcall⟩
      exact ⟨.reached hi'', fun r hr' => .inr fun _ => .inl hi''⟩
    | reset hlt =>
      have hlt' : i < s'.lastRaise := by
        rw [hl]
        split
        · exact hlt
        · exact hi
      exact ⟨.reset hlt', hraised hlt'⟩
    | safe hn hsf =>
      by_cases he : s.audio.generation = s.audio.midiGeneration
      · obtain ⟨hlt, hsf'⟩ := hsafe he c hsf
        exact ⟨.safe (hfresh hn hlt) hsf', fun r hr' => hbefore r hr' hlt⟩
      · have hlt' : i < s'.lastRaise := by
          rw [hl, if_neg he]
          exact hi
        exact ⟨.reset hlt', hraised hlt'⟩
    | ahead hn ha =>
      obtain ⟨xs, p, ys, he, hxs⟩ := ha
      cases xs with
      | nil =>
        -- the release itself: it reaches the backlog, or its stamp is old
        rw [hfl] at he
        obtain ⟨rfl, -⟩ := List.cons.inj he
        have hmem : (i, p) ∈ s'.pushed.take s'.seen := by
          rw [hs, hf.pushed, htake]
          exact List.mem_append_right _ List.mem_cons_self
        rcases I'.dealt (i, p) hmem with hd | hd
        · exact ⟨.reached hd, fun r _ => .inr fun _ => .inl hd⟩
        · exact ⟨.reset hd, hraised hd⟩
      | cons a xs =>
        rw [hfl] at he
        obtain ⟨rfl, he'⟩ := List.cons.inj he
        have hlt := hxs q List.mem_cons_self
        refine ⟨.ahead (hfresh hn hlt) ⟨xs, p, ys, hflight.trans he', fun b hb => ?_⟩,
          fun r hr' => hbefore r hr' hlt⟩
        exact hxs b (List.mem_cons_of_mem _ hb)
    | quiet hn hqt ho =>
      have hlt := hqt.pushed q hq
      exact ⟨.quiet (hfresh hn hlt) (hquiet hqt) ho, fun r hr' => hbefore r hr' hlt⟩

theorem Drains.mem_reached (hd : Drains s s') : ∀ r ∈ s.reached, r ∈ s'.reached := by
  cases hd with
  | passed hr => exact fun r hr' => hr ▸ hr'
  | raised hr => exact fun r hr' => hr ▸ hr'
  | dealt q rest hfl hin hs hg hm hhand hring hl hr hsafe => exact (reached_dealt hr).1

theorem inv2_drain (I : Inv s) (I2 : Inv2 s) (hroute : s.route ≠ .dropped)
    (h : drainStep s = some s') : Inv2 s' := by
  have I' := inv_drain I h
  obtain ⟨hf, hd⟩ := drains I h
  refine ⟨fun _ i x o c hx hpc hcr => ?_, fun i x o c hx hpc hcr r hr hle => ?_⟩
  · rw [hf.sends] at hx
    exact ((I2.covered hroute i x o c hx hpc hcr).drain I' hf hd (lt_of_getElem?_eq_some hx)).1
  · rw [hf.sends] at hx
    have hcov := I2.covered hroute i x o c hx hpc hcr
    rcases (hcov.drain I' hf hd (lt_of_getElem?_eq_some hx)).2 r hr with hr' | hnew
    · rcases I2.logged i x o c hx hpc hcr r hr' hle with ⟨r₀, hr₀, hcall⟩ | hlt
      · exact .inl ⟨r₀, hd.mem_reached r₀ hr₀, hcall⟩
      · exact .inr hlt
    · exact hnew hle

/-- A step that leaves the calls and the backlog alone. -/
theorem Inv2.same (I2 : Inv2 s) (hsends : s'.sends = s.sends) (hreached : s'.reached = s.reached)
    (hmove : s'.route ≠ .dropped → s.route ≠ .dropped ∧
      ∀ (i : Nat) (x : Send) (o : MidiSendOutcome) (c : Nat), s.sends[i]? = some x →
        x.pc = .returned o c → x.packet.isCriticalRelease = true →
        Covered s i o c → Covered s' i o c) : Inv2 s' := by
  refine ⟨fun hroute i x o c hx hpc hcr => ?_, ?_⟩
  · obtain ⟨hr, hm⟩ := hmove hroute
    rw [hsends] at hx
    exact hm i x o c hx hpc hcr (I2.covered hr i x o c hx hpc hcr)
  · unfold St.hasReached
    rw [hsends, hreached]
    exact I2.logged

/-- The generation grows or the flag goes up, and the route does not come
back. -/
theorem Covered.later (I : Inv s) (hsends : s'.sends = s.sends) (hreached : s'.reached = s.reached)
    (hraise : s'.lastRaise = s.lastRaise) (hpushed : s'.pushed = s.pushed) (hseen : s'.seen = s.seen)
    (hroute : s.route ≠ .stored → s'.route ≠ .stored)
    (hg : s.audio.generation ≤ s'.audio.generation)
    (hm : s'.audio.midiGeneration = s.audio.midiGeneration)
    (hc : s'.audio.callback = s.audio.callback)
    (he : s.audio.emergency = true → s'.audio.emergency = true) (h : Covered s i o c) :
    Covered s' i o c := by
  have hf : ∃ l, s'.flight = s.flight ++ l := by
    refine ⟨[], ?_⟩
    unfold St.flight
    rw [hseen, hpushed, List.append_nil]
  exact h.move hreached (fun hj => hraise ▸ hj) hf (Safe.mono I hg hm hc he hf)
    fun hq => ⟨hroute hq.route, hpushed ▸ hq.pushed, hsends ▸ hq.sends⟩

/-- The end of a callback. -/
theorem Covered.ended {a : L2.PendingMidi.St} (hc : s.audio.callback = .drained)
    (hg : a.generation = s.audio.generation) (hm : a.midiGeneration = s.audio.midiGeneration)
    (he : a.emergency = s.audio.emergency) (hc' : a.callback = .start) (h : Covered s i o c) :
    Covered { s with audio := a } i o c := by
  refine Covered.move (s := s) rfl id ⟨[], (List.append_nil _).symm⟩ (fun hs => ?_)
    (fun hq => ⟨hq.route, hq.pushed, hq.sends⟩) h
  unfold Safe
  simp only
  rw [hg, hm, he, hc']
  rcases hs with hne | hadv | ⟨hem, -, -⟩
  · exact .inl hne
  · rw [hc] at hadv
    cases hadv
  · exact .inr (.inr ⟨hem, trivial, nofun⟩)

/-- The route comes back: what was quiet has been compensated. -/
theorem Covered.restore (I : Inv s) (hx : s.sends[i]? = some x) (hpc : x.pc = .returned o c)
    (hcr : x.packet.isCriticalRelease = true) (hok : Compensated s .restore)
    (h : Covered s i o c) : Covered { s with route := .stored } i o c := by
  have hmove : Safe s c → Safe { s with route := .stored } c := fun hs => hs
  cases h with
  | reached hi => exact .reached hi
  | reset hi => exact .reset hi
  | safe hn hs => exact .safe hn (hmove hs)
  | ahead hn ha => exact .ahead hn ha
  | quiet hn hq ho =>
    have href : s.sends[i]?.any Send.refused = true := by
      rw [hx]
      simp [Send.refused, hpc, ho, hcr]
    rcases hok i (lt_of_getElem?_eq_some hx) href with hlt | hw
    · exact .reset hlt
    · refine .safe hn (hmove ?_)
      rcases hw with hne | hadv | ⟨hem, hstill⟩
      · exact .inl hne
      · exact .inr (.inl hadv)
      · refine .inr (.inr ⟨hem, hstill, fun msg b hcb => ?_⟩)
        have hal := I.aligned
        rw [hcb] at hal
        obtain ⟨q, rest, hfl, -, -⟩ := List.map_eq_cons_iff.mp hal
        exact ⟨q, rest, hfl, hq.pushed q (dealt_flight hfl).1⟩

theorem inv2_submit (I : Inv s) (I2 : Inv2 s) (packet : MidiPacket)
    (h : step s (.submit packet) = some s') : Inv2 s' := by
  cases h
  have hmove : ∀ (i : Nat) (o : MidiSendOutcome) (c : Nat), Covered s i o c →
      Covered { s with sends := s.sends ++ [⟨packet,
        if s.route = .stored then .loaded else .returned .audioStopped (s.sends.length + 1)⟩] }
        i o c := by
    intro i o c hc
    refine Covered.move (s := s) rfl id ⟨[], (List.append_nil _).symm⟩ (fun hs => hs) (fun hq =>
      ⟨hq.route, hq.pushed, fun j y hj hy => ?_⟩) hc
    rcases getElem?_concat_cases hy with ⟨-, rfl⟩ | hy
    · exact ⟨_, if_neg hq.route⟩
    · exact hq.sends j y hj hy
  refine ⟨fun hroute i x o c hx hpc hcr => ?_, fun i x o c hx hpc hcr r hr hle => ?_⟩
  · rcases getElem?_concat_cases hx with ⟨rfl, rfl⟩ | hx
    · -- refused: nothing from here on is on its way
      simp only at hpc
      split at hpc
      · cases hpc
      · rename_i hst
        cases hpc
        refine .quiet (fun r hr => Nat.lt_succ_of_lt (I.reached_lt hr)) ⟨hst, fun q hq => ?_, ?_⟩ rfl
        · exact Nat.lt_succ_of_lt (I.pushed_lt q hq)
        · intro j y hj hy
          have hlt := lt_of_getElem?_eq_some hy
          rw [List.length_append, List.length_singleton] at hlt
          omega
    · exact hmove i o c (I2.covered hroute i x o c hx hpc hcr)
  · rcases getElem?_concat_cases hx with ⟨rfl, rfl⟩ | hx
    · have hlt := I.reached_lt hr
      simp only at hpc
      split at hpc
      · cases hpc
      · cases hpc
        omega
    · exact I2.logged i x o c hx hpc hcr r hr hle

theorem inv2_step {l : Lbl} (I : Inv s) (I2 : Inv2 s) (hok : Compensated s l)
    (h : step s l = some s') : Inv2 s' := by
  cases l with
  | submit packet => exact inv2_submit I I2 packet h
  | send i =>
    obtain ⟨x, hx, h⟩ := Option.bind_eq_some_iff.mp h
    exact inv2_sendStep I I2 hx h
  | request =>
    simp only [step, Option.some.injEq] at h
    subst h
    split
    · exact I2.same rfl rfl fun hr => ⟨hr, fun _ _ _ _ _ _ _ hc =>
        hc.later I rfl rfl rfl rfl rfl id (Nat.le_refl _) rfl rfl id⟩
    · exact I2.same rfl rfl fun hr => ⟨hr, fun _ _ _ _ _ _ _ hc =>
        hc.later I rfl rfl rfl rfl rfl id (Nat.le_refl _) rfl rfl id⟩
  | requestAdvance =>
    simp only [step] at h
    split at h
    · cases h
    · cases h
      exact I2.same rfl rfl fun hr => ⟨hr, fun _ _ _ _ _ _ _ hc =>
        hc.later I rfl rfl rfl rfl rfl id (Nat.le_succ _) rfl rfl id⟩
  | requestFlag =>
    simp only [step] at h
    split at h
    · cases h
    · cases h
      exact I2.same rfl rfl fun hr => ⟨hr, fun _ _ _ _ _ _ _ hc =>
        hc.later I rfl rfl rfl rfl rfl id (Nat.le_refl _) rfl rfl fun _ => rfl⟩
  | drain =>
    simp only [step] at h
    split at h
    · cases h
    · rename_i hroute
      exact inv2_drain I I2 hroute h
  | miss =>
    simp only [step] at h
    split at h
    · rename_i hcb
      cases h
      exact I2.same rfl rfl fun hr => ⟨hr, fun _ _ _ _ _ _ _ hc => hc.ended hcb rfl rfl rfl rfl⟩
    · cases h
  | playing k done =>
    simp only [step] at h
    split at h
    · rename_i hcb
      cases h
      exact I2.same rfl rfl fun hr => ⟨hr, fun _ _ _ _ _ _ _ hc => hc.ended hcb rfl rfl rfl rfl⟩
    · cases h
  | withdraw =>
    simp only [step] at h
    split at h
    · rename_i hst
      cases h
      refine I2.same rfl rfl fun hr => ⟨?_, fun _ _ _ _ _ _ _ hc =>
        hc.later I rfl rfl rfl rfl rfl (fun _ hr => by cases hr) (Nat.le_refl _) rfl rfl id⟩
      rw [hst]
      intro hr
      cases hr
    · cases h
  | restore =>
    simp only [step] at h
    split at h
    · rename_i hst
      cases h
      refine I2.same rfl rfl fun hr => ⟨?_, fun i x o c hx hpc hcr hc =>
        hc.restore I hx hpc hcr hok⟩
      rw [hst]
      intro hr
      cases hr
    · cases h
  | teardown =>
    simp only [step] at h
    split at h
    · cases h
      exact I2.same rfl rfl fun hr => absurd rfl hr
    · cases h

theorem inv2_inductive : (system.restrict Compensated).InductiveUnder Inv Inv2 where
  init s h := by
    have h0 : s = init := h
    rw [h0]
    exact inv2_init
  step _ _ _ I I2 h := inv2_step I I2 h.1 h.2

/-! ## What a step does -/

theorem needs_of_raises {a a' : L2.PendingMidi.St} (h : drainMidi a = some a')
    (hr : raises a = true) : a'.queue.needsEmergencyReset = true := by
  have hobs : a.generation ≠ a.midiGeneration →
      (observeMidiGeneration a).queue.pending = [] ∧
        (observeMidiGeneration a).queue.needsEmergencyReset = true := by
    intro hne
    unfold observeMidiGeneration
    rw [if_pos hne]
    exact ⟨rfl, rfl⟩
  cases hc : a.callback with
  | advance =>
    simp only [drainMidi, hc, Option.some.injEq] at h
    subst h
    rfl
  | observe =>
    simp only [raises, hc, bne_iff_ne] at hr
    simp only [drainMidi, hc, Option.some.injEq] at h
    subst h
    exact (hobs hr).2
  | popped msg budget =>
    simp only [raises, hc, bne_iff_ne] at hr
    simp only [drainMidi, hc, Option.some.injEq] at h
    subst h
    obtain ⟨hp, hn⟩ := hobs hr
    split
    · show (enqueueMidi (observeMidiGeneration a).queue msg).needsEmergencyReset = true
      rw [enqueueMidi_nil hp]
      exact hn
    · exact hn
  | start => simp [raises, hc] at hr
  | pop budget => simp [raises, hc] at hr
  | drained => simp [raises, hc] at hr

/-- What a step may do to the history and to the callback. -/
structure Stepped (s s' : St) : Prop where
  observed : s.audio.midiGeneration ≤ s'.audio.midiGeneration
  raised : s'.lastRaise = s.lastRaise ∨
    (s'.lastRaise = s.sends.length ∧ s'.audio.queue.needsEmergencyReset = true)
  reached : s'.reached = s.reached ∨ ∃ call msg, msg.generation = s'.audio.midiGeneration ∧
    s'.reached = s.reached ++ [⟨call, msg, s'.audio.midiGeneration, s'.lastRaise⟩] ∧
    s'.audio.queue = enqueueMidi (observeMidiGeneration s.audio).queue msg
  pushed : s'.pushed = s.pushed ∨ ∃ i x, s.sends[i]? = some x ∧
    s'.pushed = s.pushed ++ [(i, x.packet)] ∧
    (x.packet.isCriticalRelease = false → midiReserve < s.slots)

theorem stepped_drain (I : Inv s) (h : drainStep s = some s') : Stepped s s' := by
  obtain ⟨hf, hd⟩ := drains I h
  have hmono : s.audio.midiGeneration ≤ s'.audio.midiGeneration := by
    cases hd with
    | passed hr hs hl hg hm hring hle hsafe => exact Nat.le_of_eq hm.symm
    | raised hr hs hl hg hm hmg hring hle => exact hm
    | dealt q rest hfl hin hs hg hm hhand hring hl hr hsafe =>
      exact Nat.le_trans I.observed_le (Nat.le_of_eq hm.symm)
  obtain ⟨a, ha, h⟩ := Option.map_eq_some_iff.mp h
  have hraise : (if raises s.audio then s.sends.length else s.lastRaise) = s.lastRaise ∨
      ((if raises s.audio then s.sends.length else s.lastRaise) = s.sends.length ∧
        a.queue.needsEmergencyReset = true) := by
    split
    · rename_i hr
      exact .inr ⟨rfl, needs_of_raises ha hr⟩
    · exact .inl rfl
  simp only at h
  split at h
  · rename_i msg budget call _ hc _
    subst h
    refine ⟨hmono, hraise, ?_, .inl rfl⟩
    split
    · rename_i hg
      refine .inr ⟨call, msg, hg, rfl, ?_⟩
      simp only [drainMidi, hc, Option.some.injEq] at ha
      subst ha
      split
      · rfl
      · rename_i hne
        rw [if_neg hne] at hg
        exact absurd hg hne
    · exact .inl rfl
  · subst h
    exact ⟨hmono, hraise, .inl rfl, .inl rfl⟩

theorem stepped_send (I : Inv s) (hx : s.sends[i]? = some x) (h : sendStep s i x = some s') :
    Stepped s s' := by
  obtain ⟨x', hs⟩ := sends h
  refine ⟨Nat.le_of_eq hs.midiGeneration.symm, .inl hs.lastRaise, .inl hs.reached, ?_⟩
  exact hs.pushed.imp_right fun ⟨hpc, hp⟩ => ⟨i, x, hx, hp, I.room i x hx hpc⟩

theorem stepped {l : Lbl} (I : Inv s) (h : step s l = some s') : Stepped s s' := by
  have hle := Nat.le_refl s.audio.midiGeneration
  cases l with
  | send i =>
    obtain ⟨x, hx, h⟩ := Option.bind_eq_some_iff.mp h
    exact stepped_send I hx h
  | drain =>
    simp only [step] at h
    split at h
    · cases h
    · exact stepped_drain I h
  | submit packet =>
    cases h
    exact ⟨hle, .inl rfl, .inl rfl, .inl rfl⟩
  | request =>
    simp only [step, Option.some.injEq] at h
    subst h
    split
    · exact ⟨hle, .inl rfl, .inl rfl, .inl rfl⟩
    · exact ⟨hle, .inl rfl, .inl rfl, .inl rfl⟩
  | requestAdvance | requestFlag =>
    simp only [step] at h
    split at h
    · cases h
    · cases h
      exact ⟨hle, .inl rfl, .inl rfl, .inl rfl⟩
  | miss | playing _ _ | withdraw | restore | teardown =>
    simp only [step] at h
    split at h
    · cases h
      exact ⟨hle, .inl rfl, .inl rfl, .inl rfl⟩
    · cases h

/-! ## The ingress -/

/-- Packets reach the backlog at most once, in the order they were pushed, and
under the stamp the callback has observed; a push of what is no release leaves
the reserve; `Sent` means pushed; and when a packet that was submitted after a
release came back reaches the backlog, the release got there too, or a reset
has been asked for since it was submitted. -/
theorem ingress_compensated {s : St} (hr : (system.restrict Compensated).Reachable s) :
    ((s.pushed.map Prod.fst).Nodup ∧
      (s.reached.map fun r => (r.call, r.packet)).Sublist s.pushed) ∧
    (∀ r ∈ s.reached, r.packet.generation = r.observed) ∧
    (∀ l s', step s l = some s' → Stepped s s') ∧
    (∀ (i : Nat) (x : Send) (c : Nat), s.sends[i]? = some x → x.pc = .returned .sent c →
      (i, x.packet) ∈ s.pushed) ∧
    ∀ (i : Nat) (x : Send) (o : MidiSendOutcome) (c : Nat), s.sends[i]? = some x →
      x.pc = .returned o c → x.packet.isCriticalRelease = true →
      ∀ r ∈ s.reached, c ≤ r.call → s.hasReached i ∨ i < r.lastRaise := by
  have I := inv_inductive.reachable s (LTS.reachable_of_restrict hr)
  have I2 := inv2_inductive.reachable (inv_inductive.restrict Compensated) s hr
  refine ⟨⟨I.once, I.reached_sub.trans (List.take_sublist _ _)⟩,
    fun r hr' => (I.reached_stamp r hr').1, fun _ _ h => stepped I h, fun i x c hx hpc => ?_,
    I2.logged⟩
  obtain ⟨q, hq, rfl⟩ := I.send_pushed i x hx (by rw [hpc]; rfl)
  obtain ⟨y, hy, hp, -⟩ := I.pushed_send q hq
  rw [hx] at hy
  cases hy
  rw [hp]
  exact hq

def noteOn (note : UInt8) : MidiPacket := ⟨0, (0x90, note, 100), 3⟩
def noteOff (note : UInt8) : MidiPacket := ⟨0, (0x80, note, 0), 3⟩

/-- A note-on is played; then its release comes while the route is gone. -/
def releaseRefused : List Lbl :=
  .submit (noteOn 60) :: List.replicate 6 (.send 0) ++ List.replicate 5 .drain ++
    [.playing 1 true, .withdraw, .submit (noteOff 60)]

def nextNote (drains : Nat) : List Lbl :=
  .submit (noteOn 61) :: List.replicate 6 (.send 2) ++ List.replicate drains .drain ++
    [.playing 1 true]

/-- A reset asked for while the route was gone comes before the next note-on. -/
theorem reset_requested : ∃ s, (system.restrict Compensated).Reachable s ∧
    ∃ r ∈ s.reached, 2 ≤ r.call ∧ (s.hasReached 1 ∨ 1 < r.lastRaise) := by
  have hrun : ∃ s, (system.restrict Compensated).Reachable s ∧
      decide (s.sends[1]? = some ⟨noteOff 60, .returned .audioStopped 2⟩ ∧
        (s.reached[1]?.any fun r => 2 ≤ r.call) = true) = true :=
    LTS.reachable_of_anyOk
      (releaseRefused ++ [.request, .requestFlag, .restore, .drain, .drain] ++ nextNote 4) rfl
      (by decide +kernel)
  obtain ⟨s, hr, hs⟩ := hrun
  obtain ⟨hx, hany⟩ := of_decide_eq_true hs
  obtain ⟨r, hget, hle⟩ := (Option.any_eq_true _ _).mp hany
  have hmem : r ∈ s.reached := List.mem_of_getElem? hget
  have hle' : 2 ≤ r.call := of_decide_eq_true hle
  obtain ⟨-, -, -, -, hcov⟩ := ingress_compensated hr
  exact ⟨s, hr, r, hmem, hle', hcov 1 _ _ 2 hx rfl (by decide) r hmem hle'⟩

/-- The release is refused, the route is put back, and the next note-on is
played with no reset: the first note goes on. -/
theorem release_lost : ∃ s, system.Reachable s ∧
    s.sends[1]? = some ⟨noteOff 60, .returned .audioStopped 2⟩ ∧
    (noteOff 60).isCriticalRelease = true ∧ ¬s.hasReached 1 ∧
    (∃ r ∈ s.reached, 2 ≤ r.call ∧ ¬1 < r.lastRaise) ∧ s.audio.held (.note 0 60) = true := by
  have hrun : ∃ s, system.Reachable s ∧
      decide (s.sends[1]? = some ⟨noteOff 60, .returned .audioStopped 2⟩ ∧
        (∀ r ∈ s.reached, r.call ≠ 1) ∧
        (s.reached[1]?.any fun r => 2 ≤ r.call ∧ ¬1 < r.lastRaise) = true ∧
        s.audio.held (.note 0 60) = true) = true :=
    LTS.reachable_of_any (releaseRefused ++ .restore :: nextNote 5) rfl (by decide +kernel)
  obtain ⟨s, hr, hs⟩ := hrun
  obtain ⟨hx, hno, hany, hheld⟩ := of_decide_eq_true hs
  obtain ⟨r, hget, hr'⟩ := (Option.any_eq_true _ _).mp hany
  refine ⟨s, hr, hx, by decide, ?_, ⟨r, List.mem_of_getElem? hget, of_decide_eq_true hr'⟩, hheld⟩
  intro hreached
  obtain ⟨r', hr'', hcall⟩ := hreached
  exact hno r' hr'' hcall

end RtpOscMidi.L5.AudioIngress
