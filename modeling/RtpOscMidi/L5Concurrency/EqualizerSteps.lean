import RtpOscMidi.L5Concurrency.EqualizerSeqlock

/-!
# The steps of publications and blocks

What one access of a publication or of a load changes for the others, what a
block does to its equalizer, and that each keeps the invariant.
-/
namespace RtpOscMidi.L5.EqualizerSeqlock

open Core

/-! ## What a step of a publication does to a load -/

/-- No publication was forgotten; as long as there is no new one, the values
behind an even number stay. -/
def Moves (h : List EqTarget) (p : PublishedEq) (h' : List EqTarget) (p' : PublishedEq) : Prop :=
  (∃ es, h' = h ++ es) ∧ (h'.length = h.length → p'.sequence.toNat % 2 = 0 →
    p'.sequence = p.sequence ∧ p'.values = p.values)

section Moves

variable {h h' : List EqTarget} {p p' : PublishedEq} {x : Loading}

theorem Moves.getElem? (m : Moves h p h' p') {n : Nat} {t : EqTarget} (ht : h[n]? = some t) :
    h'[n]? = some t := by
  obtain ⟨⟨es, rfl⟩, -⟩ := m
  have hlt := (List.getElem?_eq_some_iff.mp ht).1
  rw [List.getElem?_append_left hlt]
  exact ht

theorem Moves.length_le (m : Moves h p h' p') : h.length ≤ h'.length := by
  obtain ⟨⟨es, rfl⟩, -⟩ := m
  simp

theorem Began.moves {b : UInt32} {n : Nat} (hb : Began h b n) (m : Moves h p h' p') :
    Began h' b n := ⟨Nat.lt_of_lt_of_le hb.1 m.length_le, hb.2⟩

theorem Reads.moves {b : UInt32} {n k : Nat} {values : Values} (hr : Reads h p b n k values)
    (hb : Began h b n) (m : Moves h p h' p') : Reads h' p' b n k values := by
  intro hs hn i hi
  have hlen : h'.length = h.length := by
    have := m.length_le
    have := hb.1
    omega
  obtain ⟨hseq, hvalues⟩ := m.2 hlen (hs ▸ hb.2.even)
  rw [hvalues]
  exact hr (hseq.symm.trans hs) (hn.trans hlen) i hi

theorem LoadHolds.moves (hx : LoadHolds h p x) (m : Moves h p h' p') : LoadHolds h' p' x := by
  unfold LoadHolds at hx ⊢
  split at hx
  · trivial
  · trivial
  · exact ⟨hx.1.moves m, hx.2.moves hx.1 m⟩
  · exact ⟨hx.1.moves m, hx.2.moves hx.1 m⟩
  · exact ⟨m.getElem? hx.1, hx.2⟩

theorem ListenerHolds.moves {x : Listener} (hx : ListenerHolds h p x) (m : Moves h p h' p') :
    ListenerHolds h' p' x where
  adopted := by
    obtain ⟨a, ha, hp⟩ := hx.adopted
    exact ⟨a, ha, m.getElem? hp.1, hp.2⟩
  increasing := hx.increasing
  block y hy := (hx.block y hy).moves m
  since := hx.since
  past a ha := Nat.lt_of_lt_of_le (hx.past a ha) m.length_le
  running := hx.running
  ramp := hx.ramp
  smoothing := hx.smoothing

theorem moves_writer {w : Option Nat} : Moves h p h { p with writer := w } :=
  ⟨⟨[], (List.append_nil h).symm⟩, fun _ _ => ⟨rfl, rfl⟩⟩

theorem moves_odd (ho : p'.sequence.toNat % 2 = 1) : Moves h p h p' :=
  ⟨⟨[], (List.append_nil h).symm⟩, fun _ he => by omega⟩

theorem moves_append {t : EqTarget} : Moves h p (h ++ [t]) p' :=
  ⟨⟨[t], rfl⟩, fun hl => by simp at hl⟩

end Moves

section PublishStep

variable {h : List EqTarget} {p p' : PublishedEq} {c c' : Publish} {i : Nat}

theorem Storing.odd {t : EqTarget} {odd : UInt32} {n : Nat} (hs : Storing h p t odd n) :
    p.sequence.toNat % 2 = 1 := by
  rw [hs.1, hs.2.1]
  omega

theorem Quiet.finish {t : EqTarget} {odd : UInt32} (hh : h ≠ [])
    (hs : Storing h p t odd snapshotValues) : Quiet (h ++ [t]) { p with sequence := odd + 1 } := by
  have hpos := List.length_pos_iff.mpr hh
  have hlen : (h ++ [t]).length - 1 = h.length - 1 + 1 := by
    rw [List.length_append, List.length_singleton]
    omega
  refine ⟨?_, t, by simp, funext fun j => hs.2.2 j j.isLt⟩
  show IsRevision (odd + 1) _
  rw [hlen]
  exact isRevision_finish hs.2.1

theorem Storing.store {t : EqTarget} {odd : UInt32} {slot : Fin snapshotValues}
    (hs : Storing h p t odd slot.val) :
    Storing h { p with values := Function.update p.values slot (t.encode slot) } t odd
      (slot.val + 1) := by
  refine ⟨hs.1, hs.2.1, fun j hj => ?_⟩
  show Function.update p.values slot (t.encode slot) j = t.encode j
  by_cases hjs : j = slot
  · rw [hjs, Function.update_self]
  · rw [Function.update_of_ne hjs]
    have hne : j.val ≠ slot.val := fun e => hjs (Fin.ext e)
    exact hs.2.2 j (by omega)

/-- What one access of the mutex holder does. -/
structure Published (h : List EqTarget) (p p' : PublishedEq) (c c' : Publish) : Prop where
  moves : Moves h p (h ++ c.completes) p'
  phase : c'.holds = true → p'.writer = p.writer ∧ Phase (h ++ c.completes) p' c'
  free : c'.holds = false → p'.writer = none ∧ Quiet (h ++ c.completes) p'

theorem published_same (hc : c.completes = []) (hm : Moves h p h p')
    (hphase : c'.holds = true → p'.writer = p.writer ∧ Phase h p' c')
    (hfree : c'.holds = false → p'.writer = none ∧ Quiet h p') : Published h p p' c c' := by
  have hh : h ++ c.completes = h := by rw [hc, List.append_nil]
  exact ⟨hh.symm ▸ hm, hh.symm ▸ hphase, hh.symm ▸ hfree⟩

theorem published_step (hh : h ≠ []) (hp : Phase h p c) (hst : publishStep i p c = some (p', c')) :
    Published h p p' c c' := by
  cases c with
  | lock t => exact hp.elim
  | done => exact hp.elim
  | load t =>
    have hq : Quiet h p := hp
    simp only [publishStep, Option.some.injEq, Prod.mk.injEq] at hst
    obtain ⟨rfl, rfl⟩ := hst
    exact published_same rfl (moves_writer (w := p.writer)) (fun _ => ⟨rfl, hq, hq.1.mark⟩)
      fun hc => by cases hc
  | mark t odd =>
    simp only [publishStep, Option.some.injEq, Prod.mk.injEq] at hst
    obtain ⟨rfl, rfl⟩ := hst
    have hs : Storing h { p with sequence := odd } t odd 0 :=
      ⟨rfl, hp.2, fun j hj => absurd hj (Nat.not_lt_zero _)⟩
    exact published_same rfl (moves_odd hs.odd) (fun _ => ⟨rfl, hs⟩) fun hc => by cases hc
  | store t odd slot =>
    have hs : Storing h p t odd slot.val := hp
    have hs' := hs.store
    simp only [publishStep, Option.some.injEq, Prod.mk.injEq] at hst
    obtain ⟨rfl, rfl⟩ := hst
    refine published_same rfl (moves_odd hs'.odd) (fun _ => ⟨rfl, ?_⟩) fun hc => ?_
    · split
      · exact hs'
      · have hlast : slot.val + 1 = snapshotValues := by omega
        rw [hlast] at hs'
        exact hs'
    · split at hc <;> cases hc
  | finish t odd =>
    have hs : Storing h p t odd snapshotValues := hp
    simp only [publishStep, Option.some.injEq, Prod.mk.injEq] at hst
    obtain ⟨rfl, rfl⟩ := hst
    exact ⟨moves_append, fun _ => ⟨rfl, Quiet.finish hh hs⟩, fun hc => by cases hc⟩
  | unlock =>
    have hq : Quiet h p := hp
    simp only [publishStep, Option.some.injEq, Prod.mk.injEq] at hst
    obtain ⟨rfl, rfl⟩ := hst
    exact published_same rfl moves_writer (fun hc => by cases hc) fun _ => ⟨rfl, hq⟩

end PublishStep

section LoadStep

variable {h : List EqTarget} {p : PublishedEq} {x : Loading}

theorem Reads.read {b : UInt32} {n : Nat} {slot : Fin snapshotValues} {values : Values}
    (hr : Reads h p b n slot.val values) :
    Reads h p b n (slot.val + 1) (Function.update values slot (p.values slot)) := by
  intro hs hn j hj
  by_cases hjs : j = slot
  · rw [hjs, Function.update_self]
  · rw [Function.update_of_ne hjs]
    have hne : j.val ≠ slot.val := fun e => hjs (Fin.ext e)
    exact hr hs hn j (by omega)

/-- The second read of the number finds the first one: nothing was published
in between. -/
theorem Began.same {b : UInt32} {n : Nat} {values : Values} (hb : Began h b n)
    (hr : Reads h p b n snapshotValues values) (he : b = p.sequence)
    (hq : p.sequence.toNat % 2 = 0 → Quiet h p) (hfew : h.length - 1 < n + 2 ^ 31) :
    n + 1 = h.length ∧ IsPublication h n p.sequence (EqTarget.decode values) := by
  obtain ⟨hseq, t, ht, hv⟩ := hq (he ▸ hb.2.even)
  have hle : n ≤ h.length - 1 := by
    have := hb.1
    omega
  have hn : n = h.length - 1 := hb.2.unique (he ▸ hseq) hle hfew
  have hlast : n + 1 = h.length := by
    have := hb.1
    omega
  have hvalues : values = t.encode := by
    rw [← hv]
    exact funext fun j => hr he.symm hlast j j.isLt
  refine ⟨hlast, ?_, he ▸ hb.2⟩
  rw [hvalues, decode_encode, hn, ← List.getLast?_eq_getElem?]
  exact ht

theorem loadHolds_step (hh : h ≠ []) (hx : LoadHolds h p x)
    (hq : p.sequence.toNat % 2 = 0 → Quiet h p)
    (hfew : x.reading = true → h.length - 1 < x.since + 2 ^ 31) :
    LoadHolds h p (x.step p (h.length - 1)) := by
  have hpos := List.length_pos_iff.mpr hh
  obtain ⟨load, since⟩ := x
  cases load with
  | before =>
    simp only [Loading.step, loadStep]
    split
    · trivial
    · rename_i heven
      have he : p.sequence.toNat % 2 = 0 := by
        rw [and_one_ne_zero] at heven
        omega
      have hlt : h.length - 1 < h.length := by omega
      exact ⟨⟨hlt, (hq he).1⟩, fun _ _ j hj => absurd hj (Nat.not_lt_zero _)⟩
  | read b slot values =>
    obtain ⟨hb, hr⟩ := hx
    have hr' := Reads.read hr
    simp only [Loading.step, loadStep]
    split
    · exact ⟨hb, hr'⟩
    · have hlast : slot.val + 1 = snapshotValues := by omega
      rw [hlast] at hr'
      exact ⟨hb, hr'⟩
  | after b values =>
    obtain ⟨hb, hr⟩ := hx
    simp only [Loading.step, loadStep]
    by_cases he : b = p.sequence
    · rw [if_pos he]
      exact (hb.same hr he hq (hfew rfl)).2
    · rw [if_neg he]
      trivial
  | done result => exact hx

end LoadStep

/-! ## What a step does to an equalizer -/

section Listeners

variable {h : List EqTarget} {p : PublishedEq} {x x' : Listener} {lerp : F64 → F64 → Nat → F64}

theorem advanceSmoothing_frame (eq : StereoEqualizer) :
    (eq.advanceSmoothing lerp).revision = eq.revision ∧
      (eq.advanceSmoothing lerp).target = eq.target ∧
      (eq.advanceSmoothing lerp).smoothingSamples = eq.smoothingSamples ∧
      (eq.advanceSmoothing lerp).remainingSamples = eq.remainingSamples - 1 := by
  unfold StereoEqualizer.advanceSmoothing
  split
  · rename_i h0
    exact ⟨rfl, rfl, rfl, by omega⟩
  · split
    · rename_i h1
      exact ⟨rfl, rfl, rfl, h1.symm⟩
    · exact ⟨rfl, rfl, rfl, rfl⟩

/-- The ramp ends on the target. -/
theorem advanceSmoothing_ramp {eq : StereoEqualizer}
    (hr : eq.remainingSamples = 0 → eq.current = eq.target)
    (h0 : (eq.advanceSmoothing lerp).remainingSamples = 0) :
    (eq.advanceSmoothing lerp).current = (eq.advanceSmoothing lerp).target := by
  unfold StereoEqualizer.advanceSmoothing at h0 ⊢
  split at h0 <;> rename_i he
  · rw [if_pos he]
    exact hr he
  · rw [if_neg he]
    split at h0 <;> rename_i h1
    · rw [if_pos h1]
    · exact absurd h0 h1

theorem ListenerHolds.advance (hx : ListenerHolds h p x) :
    ListenerHolds h p { x with eq := x.eq.advanceSmoothing lerp } := by
  obtain ⟨hrev, htarget, hsmooth, -⟩ := @advanceSmoothing_frame lerp x.eq
  refine { hx with adopted := ?_, ramp := advanceSmoothing_ramp hx.ramp, smoothing := ?_ }
  · show ∃ a, _ ∧ IsPublication h a (x.eq.advanceSmoothing lerp).revision
      (x.eq.advanceSmoothing lerp).target
    rw [hrev, htarget]
    exact hx.adopted
  · show 0 < (x.eq.advanceSmoothing lerp).smoothingSamples
    rw [hsmooth]
    exact hx.smoothing

theorem listenerHolds_new {n rounded : Nat} {r : UInt32} {t : EqTarget}
    (hp : IsPublication h n r t) : ListenerHolds h p ⟨.new r t rounded, none, [n]⟩ where
  adopted := ⟨n, rfl, hp⟩
  increasing := List.pairwise_singleton _ _
  block y hy := by cases hy
  since y hy := by cases hy
  past a ha := by
    rw [List.mem_singleton.mp ha]
    exact (List.getElem?_eq_some_iff.mp hp.1).1
  running y hy := by cases hy
  ramp _ := rfl
  smoothing := Nat.lt_of_lt_of_le Nat.zero_lt_one (Nat.le_max_right _ _)

/-- A publication that is taken over is newer than all that were. -/
theorem ListenerHolds.adopt {n : Nat} {r : UInt32} {t : EqTarget} (hx : ListenerHolds h p x)
    (hp : IsPublication h n r t) (hn : ∀ a ∈ x.adoptions, a ≤ n) (hr : r ≠ x.eq.revision) :
    ∀ a ∈ x.adoptions, a < n := by
  obtain ⟨a, ha, hpa⟩ := hx.adopted
  intro b hb
  refine Nat.lt_of_le_of_ne (hn b hb) fun e => hr ?_
  -- the last adoption is the largest, so it would be `n` too
  have hab : n ≤ a := by
    obtain ⟨as, has⟩ := List.getLast?_eq_some_iff.mp ha
    have hinc := hx.increasing
    rw [has] at hinc hb
    rcases List.mem_append.mp hb with hb | hb
    · have := (List.pairwise_append.mp hinc).2.2 b hb a (List.mem_singleton_self a)
      omega
    · rw [List.mem_singleton.mp hb] at e
      omega
  have han : a = n := Nat.le_antisymm (hn a (List.mem_of_getLast? ha)) hab
  rw [han] at hpa
  have h1 := hp.2
  have h2 := hpa.2
  unfold IsRevision at h1 h2
  rw [← UInt32.toNat_inj, h1, h2]

theorem listenerHolds_result {result : Option (UInt32 × EqTarget)} {n : Nat}
    (hx : ListenerHolds h p x) (hp : ∀ r t, result = some (r, t) → IsPublication h n r t)
    (hn : ∀ a ∈ x.adoptions, a ≤ n) :
    ListenerHolds h p (x.finish result n) := by
  have hsame : ListenerHolds h p { x with block := none } :=
    { hx with
      block := fun y hy => by cases hy
      since := fun y hy => by cases hy
      running := fun y hy => by cases hy }
  cases result with
  | none => simpa [Listener.finish, StereoEqualizer.adopt, StereoEqualizer.takes] using hsame
  | some rt =>
    obtain ⟨r, t⟩ := rt
    by_cases hr : r = x.eq.revision
    · simpa [Listener.finish, StereoEqualizer.adopt, StereoEqualizer.takes, hr] using hsame
    · have hpub := hp r t rfl
      have hlt := hx.adopt hpub hn hr
      simp only [Listener.finish, StereoEqualizer.adopt, StereoEqualizer.takes, ne_eq, hr,
        not_false_eq_true, decide_true, if_true]
      exact
        { adopted := ⟨n, List.getLast?_concat, hpub⟩
          increasing := List.pairwise_append.mpr ⟨hx.increasing, List.pairwise_singleton _ _,
            fun a ha b hb => List.mem_singleton.mp hb ▸ hlt a ha⟩
          block := fun y hy => by cases hy
          since := fun y hy => by cases hy
          past := fun a ha => (List.mem_append.mp ha).elim (hx.past a) fun ha =>
            (List.mem_singleton.mp ha) ▸ (List.getElem?_eq_some_iff.mp hpub.1).1
          running := fun y hy => by cases hy
          ramp := fun h0 => absurd h0 (Nat.ne_of_gt hx.smoothing)
          smoothing := hx.smoothing }

theorem since_step (hx : ListenerHolds h p x) {y : Loading} (hy : y ∈ x.block) :
    ∀ a ∈ x.adoptions, a ≤ (y.step p (h.length - 1)).since := by
  intro a ha
  by_cases hb : y.load = .before
  · have := hx.past a ha
    simp only [Loading.step, hb]
    omega
  · have hs : (y.step p (h.length - 1)).since = y.since := by
      unfold Loading.step
      cases hl : y.load <;> simp_all
    rw [hs]
    exact hx.since y hy hb a ha

theorem listenerHolds_blockStep (hh : h ≠ []) (hx : ListenerHolds h p x)
    (hq : p.sequence.toNat % 2 = 0 → Quiet h p)
    (hfew : ∀ y ∈ x.block, y.reading = true → h.length - 1 < y.since + 2 ^ 31)
    (hst : x.blockStep p (h.length - 1) = some x') : ListenerHolds h p x' := by
  obtain ⟨y, hy, rfl⟩ := Option.map_eq_some_iff.mp hst
  have hload := loadHolds_step hh (hx.block y hy) hq (hfew y hy)
  have hsince := since_step hx hy
  generalize y.step p (h.length - 1) = z at hload hsince
  simp only
  split
  · rename_i result hres
    refine listenerHolds_result hx (fun r t hr => ?_) hsince
    rw [LoadHolds, hres, hr] at hload
    exact hload
  · rename_i hopen
    refine { hx with
      block := fun w hw => ?_
      since := fun w hw _ => ?_
      running := fun w hw => Option.mem_some.mp hw ▸ left_pos hopen }
    · rw [Option.mem_some.mp hw] at hload
      exact hload
    · rw [Option.mem_some.mp hw] at hsince
      exact hsince

end Listeners

/-! ## Every step keeps the invariant -/

section Steps

variable {lerp : F64 → F64 → Nat → F64} {s s' : St}

theorem inv_init (t : EqTarget) : Inv (init t) where
  published := List.cons_ne_nil _ _
  owner i c hc := by cases hc
  idle _ := ⟨rfl, t, rfl, rfl⟩
  phase i hi := by cases hi
  loads x hx := by cases hx
  listeners x hx := by cases hx

/-- A step of the publisher that holds the mutex. -/
theorem inv_published {i : Nat} {p : PublishedEq} {c c' : Publish} (I : Inv s)
    (hc : s.calls[i]? = some c) (hw : s.shared.writer = some i)
    (hst : publishStep i s.shared c = some (p, c')) :
    Inv { s with
      shared := p
      calls := s.calls.set i c'
      published := s.published ++ c.completes } := by
  obtain ⟨d, hd, hp⟩ := I.phase i hw
  cases hc.symm.trans hd
  have P := published_step I.published hp hst
  have hi : i < s.calls.length := (List.getElem?_eq_some_iff.mp hc).1
  have hwriter : p.writer = if c'.holds then some i else none := by
    cases hh : c'.holds with
    | true => exact (P.phase hh).1.trans hw
    | false => exact (P.free hh).1
  have hother : ∀ {j e}, j ≠ i → s.calls[j]? = some e → e.holds = false := by
    intro j e hj he
    cases hh : e.holds with
    | false => rfl
    | true => exact absurd (Option.some.inj (((I.owner j e he).mp hh).symm.trans hw)) hj
  refine ⟨by simp [I.published], ?_, ?_, ?_, ?_, ?_⟩
  · intro j e he
    show e.holds = true ↔ p.writer = some j
    rw [hwriter]
    by_cases hj : j = i
    · subst hj
      rw [show ({ s with
        shared := p
        calls := s.calls.set j c'
        published := s.published ++ c.completes } : St).calls = s.calls.set j c' from rfl,
        List.getElem?_set_self hi] at he
      cases he
      cases c'.holds <;> simp
    · have he : s.calls[j]? = some e := by
        rw [← List.getElem?_set_ne (Ne.symm hj)]
        exact he
      rw [hother hj he]
      cases c'.holds <;> simp [Ne.symm hj]
  · intro hn
    cases hh : c'.holds with
    | true =>
      have hn : p.writer = none := hn
      rw [hwriter, hh] at hn
      cases hn
    | false => exact (P.free hh).2
  · intro j hj
    cases hh : c'.holds with
    | true =>
      have hj : p.writer = some j := hj
      rw [hwriter, hh] at hj
      cases hj
      exact ⟨c', List.getElem?_set_self hi, (P.phase hh).2⟩
    | false =>
      have hj : p.writer = some j := hj
      rw [hwriter, hh] at hj
      cases hj
  · exact fun x hx => (I.loads x hx).moves P.moves
  · exact fun x hx => (I.listeners x hx).moves P.moves

/-- A publisher takes the mutex. -/
theorem inv_lock {i : Nat} {t : EqTarget} (I : Inv s) (hc : s.calls[i]? = some (.lock t))
    (hw : s.shared.writer = none) :
    Inv { s with
      shared := { s.shared with writer := some i }
      calls := s.calls.set i (.load t) } := by
  have hi : i < s.calls.length := (List.getElem?_eq_some_iff.mp hc).1
  have hq := I.idle hw
  refine ⟨I.published, ?_, fun hn => (by cases hn), ?_, ?_, ?_⟩
  · intro j e he
    by_cases hj : j = i
    · subst hj
      have he : (s.calls.set j (.load t))[j]? = some e := he
      rw [List.getElem?_set_self hi] at he
      cases he
      exact ⟨fun _ => rfl, fun _ => rfl⟩
    · have he : s.calls[j]? = some e := by
        rw [← List.getElem?_set_ne (Ne.symm hj)]
        exact he
      have hfree : e.holds ≠ true := fun hh => by
        have := (I.owner j e he).mp hh
        rw [hw] at this
        cases this
      exact ⟨fun hh => absurd hh hfree, fun hh => absurd (Option.some.inj hh).symm hj⟩
  · intro j hj
    cases hj
    exact ⟨.load t, List.getElem?_set_self hi, hq⟩
  · exact fun x hx => (I.loads x hx).moves moves_writer
  · exact fun x hx => (I.listeners x hx).moves moves_writer

theorem inv_publishStep {i : Nat} {p : PublishedEq} {c c' : Publish} (I : Inv s)
    (hc : s.calls[i]? = some c) (hst : publishStep i s.shared c = some (p, c')) :
    Inv { s with
      shared := p
      calls := s.calls.set i c'
      published := s.published ++ c.completes } := by
  cases hh : c.holds with
  | true => exact inv_published I hc ((I.owner i c hc).mp hh) hst
  | false =>
    cases c with
    | lock t =>
      simp only [publishStep] at hst
      split at hst
      · rename_i hw
        cases hst
        simpa [Publish.completes] using inv_lock I hc hw
      · cases hst
    | done => cases hst
    | load t => cases hh
    | mark t odd => cases hh
    | store t odd slot => cases hh
    | finish t odd => cases hh
    | unlock => cases hh

theorem Inv.setListener (I : Inv s) {j : Nat} {x : Listener}
    (hx : ListenerHolds s.published s.shared x) :
    Inv { s with listeners := s.listeners.set j x } :=
  { I with listeners := fun y hy => (mem_of_set hy).elim (I.listeners y) fun e => e ▸ hx }

theorem inv_step {l : Lbl} (I : Inv s) (hfew : FewPublications s l)
    (hst : step lerp s l = some s') : Inv s' := by
  cases l with
  | publish t =>
    cases hst
    refine { I with owner := fun i c hc => ?_, phase := fun i hi => ?_ }
    · have hc : (s.calls ++ [Publish.lock t])[i]? = some c := hc
      rw [List.getElem?_append] at hc
      split at hc
      · exact I.owner i c hc
      · rename_i hi
        have hlock : c = .lock t := by
          cases hk : i - s.calls.length with
          | zero => simpa [hk] using hc.symm
          | succ k => simp [hk] at hc
        subst hlock
        refine ⟨fun hh => (by cases hh), fun hw => ?_⟩
        obtain ⟨d, hd, -⟩ := I.phase i hw
        exact absurd (List.getElem?_eq_some_iff.mp hd).1 hi
    · obtain ⟨d, hd, hp⟩ := I.phase i hi
      refine ⟨d, ?_, hp⟩
      rw [List.getElem?_append_left (List.getElem?_eq_some_iff.mp hd).1]
      exact hd
  | publishStep i =>
    obtain ⟨c, hc, hst⟩ := Option.bind_eq_some_iff.mp hst
    obtain ⟨⟨p, c'⟩, hp, hst⟩ := Option.bind_eq_some_iff.mp hst
    cases hst
    exact inv_publishStep I hc hp
  | load =>
    cases hst
    refine { I with loads := fun x hx => ?_ }
    rcases List.mem_append.mp hx with hx | hx
    · exact I.loads x hx
    · rw [List.mem_singleton.mp hx]
      trivial
  | loadStep i =>
    obtain ⟨x, hx, hst⟩ := Option.bind_eq_some_iff.mp hst
    cases hst
    have hmem := List.mem_of_getElem? hx
    refine { I with loads := fun y hy => ?_ }
    rcases mem_of_set hy with hy | rfl
    · exact I.loads y hy
    · exact loadHolds_step I.published (I.loads x hmem) I.quiet (hfew.1 x hmem)
  | create i rounded =>
    obtain ⟨x, hx, hst⟩ := Option.bind_eq_some_iff.mp hst
    have hl := I.loads x (List.mem_of_getElem? hx)
    split at hst
    · rename_i r t hdone
      cases hst
      rw [LoadHolds, hdone] at hl
      refine { I with listeners := fun y hy => ?_ }
      rcases List.mem_append.mp hy with hy | hy
      · exact I.listeners y hy
      · rw [List.mem_singleton.mp hy]
        exact listenerHolds_new hl
    · cases hst
  | beginBlock j =>
    obtain ⟨x, hx, hst⟩ := Option.bind_eq_some_iff.mp hst
    split at hst
    · cases hst
      have hl := I.listeners x (List.mem_of_getElem? hx)
      refine I.setListener { hl with
        block := fun y hy => ?_
        since := fun y hy hne => ?_
        running := fun y hy => ?_ }
      · rw [← Option.mem_some.mp hy]
        trivial
      · exact absurd (by rw [← Option.mem_some.mp hy]) hne
      · rw [← Option.mem_some.mp hy]
        exact Nat.succ_pos _
    · cases hst
  | blockStep j =>
    obtain ⟨x, hx, hst⟩ := Option.bind_eq_some_iff.mp hst
    obtain ⟨x', hx', hst⟩ := Option.bind_eq_some_iff.mp hst
    cases hst
    have hmem := List.mem_of_getElem? hx
    exact I.setListener
      (listenerHolds_blockStep I.published (I.listeners x hmem) I.quiet (hfew.2 x hmem) hx')
  | advance j =>
    obtain ⟨x, hx, hst⟩ := Option.bind_eq_some_iff.mp hst
    split at hst
    · cases hst
      exact I.setListener (I.listeners x (List.mem_of_getElem? hx)).advance
    · cases hst

theorem inv_inductive : ((system lerp).restrict FewPublications).Inductive Inv where
  init s h := by
    obtain ⟨t, rfl⟩ := h
    exact inv_init t
  step _ _ _ I hst := inv_step I hst.1 hst.2

end Steps

end RtpOscMidi.L5.EqualizerSeqlock
