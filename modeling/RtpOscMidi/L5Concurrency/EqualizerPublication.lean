import RtpOscMidi.L5Concurrency.EqualizerSteps

/-!
# What is heard of a publication

* `equalizer_publication`: a load gives one publication whole or nothing; a
  block returns after 18 accesses of its own; between idle publishers it takes
  over the last publication, unless the number has come round; and none starts
  a second ramp.
* `publication_missed`: 2^31 publications between two blocks, and none is heard.
-/
namespace RtpOscMidi.L5.EqualizerSeqlock

open Core

/-! ## A block ends by itself -/

section Blocks

variable {lerp : F64 → F64 → Nat → F64} {s s' : St} {j : Nat} {x : Listener}

/-- Whatever the publishers are doing, a block returns after its own accesses. -/
theorem block_returns : ∀ (k : Nat) (s : St) (x : Listener), x.left ≤ k →
    s.listeners[j]? = some x → x.running →
    ∃ n ≤ x.left, ∃ s' x', LTS.exec (step lerp) s (List.replicate n (.blockStep j)) = some s' ∧
      s'.listeners[j]? = some x' ∧ x'.block = none ∧ s'.shared = s.shared ∧
      s'.published = s.published := by
  intro k
  induction k with
  | zero =>
    intro s x hk hx hr
    have hb : x.block = none := by
      cases hb : x.block with
      | none => rfl
      | some y =>
        have := hr y hb
        simp only [Listener.left, hb, Option.map_some, Option.getD_some] at hk
        omega
    exact ⟨0, Nat.zero_le _, s, x, rfl, hx, hb, rfl, rfl⟩
  | succ k ih =>
    intro s x hk hx hr
    cases hb : x.block with
    | none => exact ⟨0, Nat.zero_le _, s, x, rfl, hx, hb, rfl, rfl⟩
    | some y =>
      obtain ⟨x₁, hst, hlt, hr₁⟩ := blockStep_left (p := s.shared) (n := s.completed) hb (hr y hb)
      have hj : j < s.listeners.length := (List.getElem?_eq_some_iff.mp hx).1
      have hs₁ : step lerp s (.blockStep j) =
          some { s with listeners := s.listeners.set j x₁ } := by
        simp only [step, hx, hst, Option.bind_eq_bind, Option.bind_some]
      obtain ⟨n, hn, s', x', he, hx', hd, hsh, hpub⟩ :=
        ih { s with listeners := s.listeners.set j x₁ } x₁ (by omega) (List.getElem?_set_self hj) hr₁
      refine ⟨n + 1, by omega, s', x', ?_, hx', hd, hsh, hpub⟩
      rw [List.replicate_succ, LTS.exec, hs₁]
      exact he

end Blocks

/-! ## Idle publishers -/

/-- Every `publish` call has returned. -/
def Idle (s : St) : Prop := ∀ c ∈ s.calls, c = .done

theorem Idle.writer {s : St} (hi : Idle s) (I : Inv s) : s.shared.writer = none := by
  cases hw : s.shared.writer with
  | none => rfl
  | some i =>
    obtain ⟨c, hc, hp⟩ := I.phase i hw
    rw [hi c (List.mem_of_getElem? hc)] at hp
    exact hp.elim

theorem Idle.quiet {s : St} (hi : Idle s) (I : Inv s) : Quiet s.published s.shared :=
  I.idle (hi.writer I)

/-- An equalizer that holds the number of the last publication, or whose
block will load it. -/
def Settling (h : List EqTarget) (x : Listener) : Prop :=
  (∀ y ∈ x.block, y.load = .before ∨ y.since = h.length - 1) ∧
    (x.block = none → ∃ a, x.adoptions.getLast? = some a ∧ 2 ^ 31 ∣ h.length - 1 - a)

section Settling

variable {h : List EqTarget} {p : PublishedEq} {x x' : Listener} {y : Loading}

/-- A load between idle publishers returns the last publication. -/
theorem load_settles (hx : LoadHolds h p y) (hq : Quiet h p)
    (hy : y.load = .before ∨ y.since = h.length - 1) (hr : isDone y.load = false)
    {result : Option (UInt32 × EqTarget)} (hd : (y.step p (h.length - 1)).load = .done result) :
    (y.step p (h.length - 1)).since = h.length - 1 ∧ ∃ t, result = some (p.sequence, t) := by
  obtain ⟨load, since⟩ := y
  cases load with
  | before =>
    simp only [Loading.step, loadStep] at hd
    split at hd
    · rename_i hodd
      have := and_one_ne_zero.mp hodd
      have := hq.1.even
      omega
    · cases hd
  | read b slot values =>
    simp only [Loading.step, loadStep] at hd
    split at hd <;> cases hd
  | after b values =>
    have hs : since = h.length - 1 := by simpa using hy
    obtain ⟨⟨-, hb⟩, -⟩ := hx
    have he : b = p.sequence := by
      rw [← UInt32.toNat_inj]
      exact hb.trans (hs ▸ hq.1.symm)
    simp only [Loading.step, loadStep, he, if_true, Load.done.injEq] at hd
    exact ⟨hs, _, hd.symm⟩
  | done r => cases hr

/-- A block whose last publication has the number of the one taken over. -/
theorem blockStep_wrapped (hx : ListenerHolds h p x) (hq : Quiet h p)
    (hset : ∀ y ∈ x.block, y.load = .before ∨ y.since = h.length - 1) {a : Nat}
    (ha : x.adoptions.getLast? = some a) (hd : 2 ^ 31 ∣ h.length - 1 - a)
    (hst : x.blockStep p (h.length - 1) = some x') :
    x'.eq = x.eq ∧ x'.adoptions = x.adoptions ∧
      ∀ y ∈ x'.block, y.load = .before ∨ y.since = h.length - 1 := by
  obtain ⟨y, hy, rfl⟩ := Option.map_eq_some_iff.mp hst
  have hnd : isDone y.load = false := by
    have := hx.running y hy
    cases hl : y.load <;> simp_all [isDone, Load.left]
  simp only
  split
  · rename_i result hres
    obtain ⟨-, t, rfl⟩ := load_settles (hx.block y hy) hq (hset y hy) hnd hres
    obtain ⟨b, hb, hpb⟩ := hx.adopted
    cases ha.symm.trans hb
    have hle : a ≤ h.length - 1 := by
      have := hx.past a (List.mem_of_getLast? ha)
      omega
    have hrev : p.sequence = x.eq.revision := (hpb.2.of_dvd hq.1 hle hd).symm
    exact ⟨by simp [Listener.finish, StereoEqualizer.adopt, hrev],
      by simp [Listener.finish, StereoEqualizer.takes, hrev], fun z hz => by cases hz⟩
  · refine ⟨rfl, rfl, fun z hz => .inr ?_⟩
    rw [← Option.mem_some.mp hz]
    rcases hset y hy with hb | hs
    · simp [Loading.step, hb]
    · cases hl : y.load <;> simp [Loading.step, hl, hs]

theorem settling_blockStep (hx : ListenerHolds h p x) (hq : Quiet h p) (hset : Settling h x)
    (hr : x.running) (hst : x.blockStep p (h.length - 1) = some x') : Settling h x' := by
  obtain ⟨y, hy, rfl⟩ := Option.map_eq_some_iff.mp hst
  have hnd : isDone y.load = false := by
    have := hr y hy
    cases hl : y.load <;> simp_all [isDone, Load.left]
  simp only
  split
  · rename_i result hres
    obtain ⟨hsince, t, rfl⟩ := load_settles (hx.block y hy) hq (hset.1 y hy) hnd hres
    obtain ⟨a, ha, hpa⟩ := hx.adopted
    refine ⟨fun z hz => (by cases hz), fun _ => ?_⟩
    simp only [Listener.finish, StereoEqualizer.takes]
    by_cases hrev : p.sequence = x.eq.revision
    · refine ⟨a, by simpa [hrev] using ha, hpa.2.dvd (hrev ▸ hq.1) ?_⟩
      have := hx.past a (List.mem_of_getLast? ha)
      omega
    · refine ⟨h.length - 1, by simp [hrev, hsince], by simp⟩
  · refine ⟨fun z hz => .inr ?_, fun hn => by cases hn⟩
    rw [← Option.mem_some.mp hz]
    rcases hset.1 y hy with hb | hs
    · simp [Loading.step, hb]
    · cases hl : y.load <;> simp [Loading.step, hl, hs]

end Settling

section IdleRuns

variable {lerp : F64 → F64 → Nat → F64} {s s' : St} {l : Lbl} {j : Nat}

/-- Nothing is published as long as nobody calls `publish`. -/
theorem Idle.step (hi : Idle s) (hl : ∀ t, l ≠ .publish t) (hst : step lerp s l = some s') :
    Idle s' ∧ s'.published = s.published ∧ s'.shared = s.shared := by
  cases l with
  | publish t => exact absurd rfl (hl t)
  | publishStep i =>
    obtain ⟨c, hc, hst⟩ := Option.bind_eq_some_iff.mp hst
    obtain ⟨pc, hp, -⟩ := Option.bind_eq_some_iff.mp hst
    rw [hi c (List.mem_of_getElem? hc)] at hp
    cases hp
  | load =>
    cases hst
    exact ⟨hi, rfl, rfl⟩
  | loadStep i =>
    obtain ⟨x, hx, hst⟩ := Option.bind_eq_some_iff.mp hst
    cases hst
    exact ⟨hi, rfl, rfl⟩
  | create i rounded =>
    obtain ⟨x, hx, hst⟩ := Option.bind_eq_some_iff.mp hst
    split at hst
    · cases hst
      exact ⟨hi, rfl, rfl⟩
    · cases hst
  | beginBlock j =>
    obtain ⟨x, hx, hst⟩ := Option.bind_eq_some_iff.mp hst
    split at hst
    · cases hst
      exact ⟨hi, rfl, rfl⟩
    · cases hst
  | blockStep j =>
    obtain ⟨x, hx, hst⟩ := Option.bind_eq_some_iff.mp hst
    obtain ⟨x', hx', hst⟩ := Option.bind_eq_some_iff.mp hst
    cases hst
    exact ⟨hi, rfl, rfl⟩
  | advance j =>
    obtain ⟨x, hx, hst⟩ := Option.bind_eq_some_iff.mp hst
    split at hst
    · cases hst
      exact ⟨hi, rfl, rfl⟩
    · cases hst

/-- What a step may do to equalizer `j`. -/
inductive Moved (s : St) (j : Nat) (x x' : Listener) : Lbl → Prop
  | same {k} : k ≠ .beginBlock j → k ≠ .blockStep j → x' = x → Moved s j x x' k
  | begin : x.block = none → x' = { x with block := some ⟨.before, s.completed⟩ } →
      Moved s j x x' (.beginBlock j)
  | block : x.blockStep s.shared s.completed = some x' → Moved s j x x' (.blockStep j)
  | advance {eq} : x.block = none → x' = { x with eq := eq } → eq.revision = x.eq.revision →
      eq.target = x.eq.target → eq.remainingSamples ≤ x.eq.remainingSamples →
      Moved s j x x' (.advance j)

theorem listener_step {x : Listener} (hx : s.listeners[j]? = some x)
    (hst : step lerp s l = some s') :
    ∃ x', s'.listeners[j]? = some x' ∧ Moved s j x x' l := by
  have hj : j < s.listeners.length := (List.getElem?_eq_some_iff.mp hx).1
  -- a step of listener `k`
  have hset : ∀ {k x₁ x₂} {P : Listener → Prop}, s.listeners[k]? = some x₁ →
      (k = j → P x₂) → (k ≠ j → P x) →
      ∃ x', (s.listeners.set k x₂)[j]? = some x' ∧ P x' := by
    intro k x₁ x₂ P hk hsame hother
    by_cases hkj : k = j
    · subst hkj
      exact ⟨x₂, List.getElem?_set_self hj, hsame rfl⟩
    · exact ⟨x, (List.getElem?_set_ne hkj).trans hx, hother hkj⟩
  cases l with
  | publish t =>
    cases hst
    exact ⟨x, hx, .same Lbl.noConfusion Lbl.noConfusion rfl⟩
  | publishStep i =>
    obtain ⟨c, hc, hst⟩ := Option.bind_eq_some_iff.mp hst
    obtain ⟨pc, hp, hst⟩ := Option.bind_eq_some_iff.mp hst
    cases hst
    exact ⟨x, hx, .same Lbl.noConfusion Lbl.noConfusion rfl⟩
  | load =>
    cases hst
    exact ⟨x, hx, .same Lbl.noConfusion Lbl.noConfusion rfl⟩
  | loadStep i =>
    obtain ⟨y, hy, hst⟩ := Option.bind_eq_some_iff.mp hst
    cases hst
    exact ⟨x, hx, .same Lbl.noConfusion Lbl.noConfusion rfl⟩
  | create i rounded =>
    obtain ⟨y, hy, hst⟩ := Option.bind_eq_some_iff.mp hst
    split at hst
    · cases hst
      exact ⟨x, (List.getElem?_append_left hj).trans hx, .same Lbl.noConfusion Lbl.noConfusion rfl⟩
    · cases hst
  | beginBlock k =>
    obtain ⟨y, hy, hst⟩ := Option.bind_eq_some_iff.mp hst
    split at hst
    · rename_i hb
      cases hst
      refine hset hy (fun e => ?_) fun hne =>
        .same (fun e => hne (Lbl.beginBlock.inj e)) Lbl.noConfusion rfl
      subst e
      cases hx.symm.trans hy
      exact .begin hb rfl
    · cases hst
  | blockStep k =>
    obtain ⟨y, hy, hst⟩ := Option.bind_eq_some_iff.mp hst
    obtain ⟨y', hy', hst⟩ := Option.bind_eq_some_iff.mp hst
    cases hst
    refine hset hy (fun e => ?_) fun hne =>
      .same Lbl.noConfusion (fun e => hne (Lbl.blockStep.inj e)) rfl
    subst e
    cases hx.symm.trans hy
    exact .block hy'
  | advance k =>
    obtain ⟨y, hy, hst⟩ := Option.bind_eq_some_iff.mp hst
    split at hst
    · rename_i hb
      cases hst
      refine hset hy (fun e => ?_) fun _ => .same Lbl.noConfusion Lbl.noConfusion rfl
      subst e
      cases hx.symm.trans hy
      obtain ⟨hr, ht, -, hs⟩ := @advanceSmoothing_frame lerp x.eq
      exact .advance hb rfl hr ht (by omega)
    · cases hst

theorem settling_moved {x x' : Listener} (I : Inv s) (hi : Idle s)
    (hx : s.listeners[j]? = some x) (hm : Moved s j x x' l) (hset : Settling s.published x) :
    Settling s.published x' := by
  have hl := I.listeners x (List.mem_of_getElem? hx)
  cases hm with
  | same _ _ e => exact e ▸ hset
  | begin hb e =>
    subst e
    exact ⟨fun y hy => .inl (by rw [← Option.mem_some.mp hy]), fun hn => by cases hn⟩
  | block hst => exact settling_blockStep hl (hi.quiet I) hset hl.running hst
  | advance hb e =>
    subst e
    exact hset

/-- A step of its own brings a block nearer to its end, and no other step
brings it back. -/
theorem left_moved {x x' : Listener} (hx : x.running) (hm : Moved s j x x' l)
    (hl : l ≠ .beginBlock j) : (if l = .blockStep j then 1 else 0) + x'.left ≤ x.left := by
  cases hm with
  | same _ hne e => simp [hne, e]
  | begin => exact absurd rfl hl
  | advance _ e => simp [e, Listener.left]
  | block hst =>
    obtain ⟨y, hy, -⟩ := Option.map_eq_some_iff.mp hst
    obtain ⟨x₁, hst₁, hlt, -⟩ := blockStep_left (p := s.shared) (n := s.completed) hy (hx y hy)
    cases hst.symm.trans hst₁
    rw [if_pos rfl]
    omega

/-- However the steps of the others come between them, a block makes no more
accesses than it has left. -/
theorem accesses_le {ls : List Lbl}
    (hrun : ((system lerp).restrict FewPublications).Run s ls s') :
    ∀ {x : Listener}, Inv s → .beginBlock j ∉ ls → s.listeners[j]? = some x →
      Inv s' ∧ ∃ x', s'.listeners[j]? = some x' ∧ ls.count (.blockStep j) + x'.left ≤ x.left := by
  induction hrun with
  | nil s => exact fun I _ hx => ⟨I, _, hx, by simp⟩
  | @cons s l s₁ ls s' hst hrun ih =>
    intro x I hls hx
    obtain ⟨hfew, hst⟩ := hst
    obtain ⟨x₁, hx₁, hm⟩ := listener_step hx hst
    have hleft := left_moved (I.listeners x (List.mem_of_getElem? hx)).running hm
      fun e => hls (e ▸ List.mem_cons_self)
    obtain ⟨I', x', hx', hcount⟩ :=
      ih (inv_step I hfew hst) (fun h => hls (List.mem_cons_of_mem _ h)) hx₁
    refine ⟨I', x', hx', ?_⟩
    rw [List.count_cons]
    simp only [beq_iff_eq]
    omega

/-- A block never waits. -/
theorem blockStep_enabled {x : Listener} (hj : s.listeners[j]? = some x) (hx : x.running)
    (hb : x.block ≠ none) : (step lerp s (.blockStep j)).isSome := by
  obtain ⟨y, hy⟩ := Option.ne_none_iff_exists'.mp hb
  obtain ⟨x', hst, -⟩ := blockStep_left (p := s.shared) (n := s.completed) hy (hx y hy)
  simp [step, hj, hst]

/-- A block begun between idle publishers leaves the equalizer settled. -/
theorem settles {ls : List Lbl} (hrun : ((system lerp).restrict FewPublications).Run s ls s') :
    Inv s → Idle s → (∀ t, .publish t ∉ ls) →
    (.beginBlock j ∈ ls ∨ ∃ x, s.listeners[j]? = some x ∧ Settling s.published x) →
    Inv s' ∧ s'.published = s.published ∧
      ∃ x, s'.listeners[j]? = some x ∧ Settling s'.published x := by
  induction hrun with
  | nil s =>
    intro I hi hls hset
    rcases hset with hb | hset
    · cases hb
    · exact ⟨I, rfl, hset⟩
  | @cons s l s₁ ls s' hst hrun ih =>
    intro I hi hls hset
    obtain ⟨hfew, hst⟩ := hst
    have I₁ := inv_step I hfew hst
    obtain ⟨hi₁, hpub, -⟩ := hi.step (fun t e => hls t (e ▸ List.mem_cons_self)) hst
    have hls₁ : ∀ t, .publish t ∉ ls := fun t ht => hls t (List.mem_cons_of_mem _ ht)
    have hstep : .beginBlock j ∈ ls ∨
        ∃ x, s₁.listeners[j]? = some x ∧ Settling s₁.published x := by
      rcases hset with hb | ⟨x, hx, hset⟩
      · rcases List.mem_cons.mp hb with rfl | hb
        · obtain ⟨x, hx, -⟩ := Option.bind_eq_some_iff.mp hst
          obtain ⟨x', hx', hm⟩ := listener_step hx hst
          refine .inr ⟨x', hx', ?_⟩
          cases hm with
          | same hne _ _ => exact absurd rfl hne
          | begin hb e =>
            subst e
            exact ⟨fun y hy => .inl (by rw [← Option.mem_some.mp hy]), fun hn => by cases hn⟩
        · exact .inl hb
      · obtain ⟨x', hx', hm⟩ := listener_step hx hst
        exact .inr ⟨x', hx', hpub ▸ settling_moved I hi hx hm hset⟩
    obtain ⟨I', hpub', h⟩ := ih I₁ hi₁ hls₁ hstep
    exact ⟨I', hpub'.trans hpub, h⟩

end IdleRuns

/-! ## Publication, adoption and ramps -/

/-- The target stays and the ramp does not go back, or a publication is taken
over that is newer than every one that was. -/
def Adopts (h : List EqTarget) (x x' : Listener) : Prop :=
  (x'.eq.target = x.eq.target ∧ x'.eq.revision = x.eq.revision ∧
      x'.eq.remainingSamples ≤ x.eq.remainingSamples ∧ x'.adoptions = x.adoptions) ∨
    ∃ n, x'.adoptions = x.adoptions ++ [n] ∧ (∀ a ∈ x.adoptions, a < n) ∧
      IsPublication h n x'.eq.revision x'.eq.target

section Main

variable {lerp : F64 → F64 → Nat → F64} {s s' : St} {l : Lbl} {j : Nat} {x x' : Listener}

theorem adopts_finish {result : Option (UInt32 × EqTarget)} {n : Nat} {h : List EqTarget}
    {p : PublishedEq} (hx : ListenerHolds h p (x.finish result n)) :
    Adopts h x (x.finish result n) := by
  have hinc := hx.increasing
  obtain ⟨a, ha, hp⟩ := hx.adopted
  cases ht : x.eq.takes result with
  | false =>
    have he : x.eq.adopt result = x.eq := by
      cases result with
      | none => rfl
      | some rt =>
        have hr : rt.1 = x.eq.revision := by simpa [StereoEqualizer.takes] using ht
        simp [StereoEqualizer.adopt, hr]
    simp [Adopts, Listener.finish, ht, he]
  | true =>
    simp only [Listener.finish, ht, if_true] at hinc ha hp
    rw [List.getLast?_concat, Option.some.injEq] at ha
    subst ha
    refine .inr ⟨n, by simp [Listener.finish, ht], fun b hb => ?_, hp⟩
    exact (List.pairwise_append.mp hinc).2.2 b hb n (List.mem_singleton_self n)

theorem adopts_step (I : Inv s) (hfew : FewPublications s l) (hst : step lerp s l = some s')
    (hx : s.listeners[j]? = some x) :
    ∃ x', s'.listeners[j]? = some x' ∧ Adopts s'.published x x' := by
  have I' := inv_step I hfew hst
  obtain ⟨x', hx', hm⟩ := listener_step hx hst
  refine ⟨x', hx', ?_⟩
  have hl' := I'.listeners x' (List.mem_of_getElem? hx')
  cases hm with
  | same _ _ e => exact e ▸ .inl ⟨rfl, rfl, Nat.le_refl _, rfl⟩
  | begin hb e => exact e ▸ .inl ⟨rfl, rfl, Nat.le_refl _, rfl⟩
  | advance hb e hr ht hle => exact e ▸ .inl ⟨ht, hr, hle, rfl⟩
  | block hb =>
    obtain ⟨y, hy, e⟩ := Option.map_eq_some_iff.mp hb
    simp only at e
    split at e
    · subst e
      exact adopts_finish hl'
    · subst e
      exact .inl ⟨rfl, rfl, Nat.le_refl _, rfl⟩

theorem left_le (x : Listener) : x.left ≤ snapshotValues + 2 := by
  cases hb : x.block with
  | none => simp [Listener.left, hb]
  | some y =>
    simp only [Listener.left, hb, Option.map_some, Option.getD_some]
    cases y.load <;> simp only [Load.left] <;> omega

/-- A load gives one publication whole or nothing; a block is never stopped
and returns after 18 accesses of its own at most, whatever comes between
them; once the publishers are idle a block leaves the
equalizer with the last publication, unless the number of publications since
its own is a positive multiple of 2^31; and no publication starts a second ramp. -/
theorem equalizer_publication (hr : ((system lerp).restrict FewPublications).Reachable s) :
    (∀ x ∈ s.loads, ∀ r t, x.load = .done (some (r, t)) →
      IsPublication s.published x.since r t ∧ r.toNat % 2 = 0) ∧
    (∀ (j : Nat) (x : Listener), s.listeners[j]? = some x →
      ∃ n ≤ 18, ∃ s' x', LTS.exec (step lerp) s (List.replicate n (.blockStep j)) = some s' ∧
        s'.listeners[j]? = some x' ∧ x'.block = none) ∧
    (∀ (j : Nat) (x : Listener), s.listeners[j]? = some x → ∀ ls s',
      ((system lerp).restrict FewPublications).Run s ls s' → .beginBlock j ∉ ls →
      ls.count (.blockStep j) ≤ 18 ∧ ∃ x', s'.listeners[j]? = some x' ∧
        (x'.block ≠ none → (step lerp s' (.blockStep j)).isSome)) ∧
    (Idle s → ∀ ls s', ((system lerp).restrict FewPublications).Run s ls s' →
      (∀ t, .publish t ∉ ls) → ∀ j, .beginBlock j ∈ ls →
      ∀ x, s'.listeners[j]? = some x → x.block = none →
      s'.published.getLast? = some x.eq.target ∨
        ∃ a, x.adoptions.getLast? = some a ∧
          IsPublication s'.published a x.eq.revision x.eq.target ∧
          a < s'.completed ∧ 2 ^ 31 ∣ s'.completed - a) ∧
    ∀ l s', FewPublications s l → step lerp s l = some s' → ∀ (j : Nat) (x : Listener),
      s.listeners[j]? = some x → ∃ x', s'.listeners[j]? = some x' ∧ Adopts s'.published x x' := by
  have I := inv_inductive.reachable s hr
  refine ⟨?_, ?_, ?_, ?_, ?_⟩
  · intro x hx r t hd
    have hl := I.loads x hx
    rw [LoadHolds, hd] at hl
    exact ⟨hl, hl.2.even⟩
  · intro j x hx
    obtain ⟨n, hn, s', x', he, hx', hb, -⟩ := @block_returns lerp _ x.left s x (Nat.le_refl _) hx
      (I.listeners x (List.mem_of_getElem? hx)).running
    exact ⟨n, Nat.le_trans hn (left_le x), s', x', he, hx', hb⟩
  · intro j x hx ls s' hrun hls
    obtain ⟨I', x', hx', hcount⟩ := accesses_le hrun I hls hx
    have hleft : x.left ≤ 18 := left_le x
    exact ⟨by omega, x', hx',
      blockStep_enabled hx' (I'.listeners x' (List.mem_of_getElem? hx')).running⟩
  · intro hi ls s' hrun hls j hb x hx hd
    obtain ⟨I', -, x', hx', hset⟩ := settles hrun I hi hls (.inl hb)
    cases hx.symm.trans hx'
    obtain ⟨a, ha, hdvd⟩ := hset.2 hd
    obtain ⟨a', ha', hp⟩ := (I'.listeners x (List.mem_of_getElem? hx)).adopted
    cases ha.symm.trans ha'
    have hpast := (I'.listeners x (List.mem_of_getElem? hx)).past a (List.mem_of_getLast? ha)
    have hle : a ≤ s'.completed := by
      unfold St.completed
      omega
    rcases Nat.eq_or_lt_of_le hle with e | hlt
    · left
      rw [List.getLast?_eq_getElem?, ← show s'.completed = s'.published.length - 1 from rfl, ← e]
      exact hp.1
    · exact .inr ⟨a, ha, hp, hlt, hdvd⟩
  · intro l s' hfew hst j x hx
    exact adopts_step I hfew hst hx

end Main

/-! ## A publication between blocks -/

section Publications

variable {lerp : F64 → F64 → Nat → F64} {s s' : St} {t : EqTarget}

/-- Steps a `publish` call still takes. -/
def Publish.left : Publish → Nat
  | .lock _ => snapshotValues + 5
  | .load _ => snapshotValues + 4
  | .mark .. => snapshotValues + 3
  | .store _ _ slot => snapshotValues - slot.val + 2
  | .finish .. => 2
  | .unlock => 1
  | .done => 0

/-- `published` when a call that publishes `t` after `h` stands at `c`. -/
def Publish.publishes (h : List EqTarget) (t : EqTarget) : Publish → List EqTarget → Prop
  | .unlock, g | .done, g => g = h ++ [t]
  | .lock u, g | .load u, g | .mark u _, g | .store u _ _, g | .finish u _, g => u = t ∧ g = h

theorem publishStep_publishes {h g : List EqTarget} {i : Nat} {p : PublishedEq} {c : Publish}
    (hp : c.publishes h t g) (hw : ∀ u, c = .lock u → p.writer = none) (hd : c ≠ .done) :
    ∃ p' c', publishStep i p c = some (p', c') ∧ c'.publishes h t (g ++ c.completes) ∧
      c'.left < c.left ∧ ∀ u, c' ≠ .lock u := by
  cases c with
  | lock u =>
    refine ⟨_, _, by rw [publishStep, if_pos (hw u rfl)], ?_, by simp [Publish.left],
      fun _ => Publish.noConfusion⟩
    simpa [Publish.publishes, Publish.completes] using hp
  | load u =>
    refine ⟨_, _, rfl, ?_, by simp [Publish.left], fun _ => Publish.noConfusion⟩
    simpa [Publish.publishes, Publish.completes] using hp
  | mark u odd =>
    refine ⟨_, _, rfl, ?_, by simp [Publish.left], fun _ => Publish.noConfusion⟩
    simpa [Publish.publishes, Publish.completes] using hp
  | store u odd slot =>
    refine ⟨_, _, rfl, ?_, ?_, ?_⟩
    · split <;> simpa [Publish.publishes, Publish.completes] using hp
    · split
      · simp only [Publish.left]
        omega
      · simp only [Publish.left]
        omega
    · split <;> exact fun _ => Publish.noConfusion
  | finish u odd =>
    obtain ⟨rfl, rfl⟩ := hp
    exact ⟨_, _, rfl, rfl, by simp [Publish.left], fun _ => Publish.noConfusion⟩
  | unlock =>
    refine ⟨_, _, rfl, ?_, by simp [Publish.left], fun _ => Publish.noConfusion⟩
    simpa [Publish.publishes, Publish.completes] using hp
  | done => exact absurd rfl hd

def isPublication : Lbl → Bool
  | .publish _ | .publishStep _ => true
  | _ => false

/-- A publication runs to its end when no other is under way. -/
theorem publish_completes (hi : Idle s) (hw : s.shared.writer = none) (t : EqTarget) :
    ∃ ls s', (system lerp).Run s ls s' ∧ (∀ l ∈ ls, isPublication l = true) ∧
      s'.published = s.published ++ [t] ∧ s'.loads = s.loads ∧ s'.listeners = s.listeners ∧
      Idle s' := by
  let I : St → Prop := fun u => ∃ c, u.calls = s.calls ++ [c] ∧ u.loads = s.loads ∧
    u.listeners = s.listeners ∧ c.publishes s.published t u.published ∧
    ∀ v, c = .lock v → u.shared.writer = none
  let m : St → Nat := fun u => ((u.calls[s.calls.length]?).map Publish.left).getD 0
  have hstep : ∀ u, I u → ¬Idle u →
      ∃ u', step lerp u (.publishStep s.calls.length) = some u' ∧ I u' ∧ m u' < m u := by
    intro u ⟨c, hc, hl, hx, hp, hlock⟩ hni
    have hget : u.calls[s.calls.length]? = some c := by rw [hc, List.getElem?_concat_length]
    have hd : c ≠ .done := by
      intro e
      refine hni fun d hmem => ?_
      rw [hc, e] at hmem
      rcases List.mem_append.mp hmem with hmem | hmem
      · exact hi d hmem
      · exact List.mem_singleton.mp hmem
    obtain ⟨p', c', hst, hp', hlt, hnl⟩ :=
      publishStep_publishes (i := s.calls.length) (p := u.shared) hp hlock hd
    have hset : u.calls.set s.calls.length c' = s.calls ++ [c'] := by simp [hc]
    refine ⟨{ u with shared := p', calls := u.calls.set s.calls.length c'
                     published := u.published ++ c.completes }, ?_,
      ⟨c', hset, hl, hx, hp', fun v e => absurd e (hnl v)⟩, ?_⟩
    · simp only [step, hget, hst, Option.bind_eq_bind, Option.bind_some]
    · simp only [m, hget, hset, List.getElem?_concat_length, Option.map_some, Option.getD_some]
      exact hlt
  have h₀ : I { s with calls := s.calls ++ [.lock t] } :=
    ⟨.lock t, rfl, rfl, rfl, ⟨rfl, rfl⟩, fun _ _ => hw⟩
  obtain ⟨n, u, he, ⟨c, hc, hl, hx, hp, -⟩, hidle⟩ :=
    LTS.exec_until m hstep _ h₀
  have hdone : c = .done := hidle c (by rw [hc]; exact List.mem_append_right _ (List.mem_singleton_self c))
  rw [hdone] at hp
  refine ⟨.publish t :: List.replicate n (.publishStep s.calls.length), u,
    .cons rfl (LTS.run_of_exec he), fun l hl => ?_, hp, hl, hx, hidle⟩
  rcases List.mem_cons.mp hl with rfl | hl
  · rfl
  · rw [List.eq_of_mem_replicate hl]
    rfl

theorem few_of_still (hl : ∀ x ∈ s.loads, x.reading = false) (hx : ∀ x ∈ s.listeners, x.block = none)
    (l : Lbl) : FewPublications s l :=
  ⟨fun x hm hr => absurd hr (by simp [hl x hm]), fun x hm y hy => by simp [hx x hm] at hy⟩

/-- Any number of publications between two blocks. -/
theorem publications_between (ts : List EqTarget) :
    ∀ {s : St}, ((system lerp).restrict FewPublications).Reachable s → Idle s →
      (∀ x ∈ s.loads, x.reading = false) → (∀ x ∈ s.listeners, x.block = none) →
      ∃ s', ((system lerp).restrict FewPublications).Reachable s' ∧ Idle s' ∧
        s'.published = s.published ++ ts ∧ s'.loads = s.loads ∧ s'.listeners = s.listeners := by
  induction ts with
  | nil =>
    intro s hr hi _ _
    exact ⟨s, hr, hi, (List.append_nil _).symm, rfl, rfl⟩
  | cons t ts ih =>
    intro s hr hi hl hx
    have I := inv_inductive.reachable s hr
    obtain ⟨ls, u, hrun, hls, hpub, hul, hux, hui⟩ :=
      @publish_completes lerp _ hi (hi.writer I) t
    have hrun' := @LTS.Run.restrict _ _ _ (fun v => v.loads = s.loads ∧ v.listeners = s.listeners)
      FewPublications _ _ _ hrun
      (fun v l v' hm hv hst => by
        refine ⟨few_of_still (hv.1 ▸ hl) (hv.2 ▸ hx) l, ?_⟩
        have hp := hls l hm
        cases l with
        | publish t =>
          cases hst
          exact hv
        | publishStep i =>
          obtain ⟨c, hc, hst⟩ := Option.bind_eq_some_iff.mp hst
          obtain ⟨pc, hpc, hst⟩ := Option.bind_eq_some_iff.mp hst
          cases hst
          exact hv
        | load => cases hp
        | loadStep i => cases hp
        | create i r => cases hp
        | beginBlock j => cases hp
        | blockStep j => cases hp
        | advance j => cases hp) ⟨rfl, rfl⟩
    obtain ⟨s₀, ls₀, h₀, hr₀⟩ := hr
    obtain ⟨s', hr', hi', hpub', hl', hx'⟩ :=
      ih ⟨s₀, ls₀ ++ ls, h₀, hr₀.append hrun'.1⟩ hui (hul ▸ hl) (hux ▸ hx)
    refine ⟨s', hr', hi', ?_, hl'.trans hul, hx'.trans hux⟩
    rw [hpub', hpub, List.append_assoc]
    rfl

end Publications

/-! ## The number comes round -/

section Wrap

variable {lerp : F64 → F64 → Nat → F64} {s s' : St} {x : Listener}

/-- An equalizer alone with idle publishers, 2^31 or more publications behind. -/
structure Behind (eq : StereoEqualizer) (adoptions : List Nat) (s : St) : Prop where
  inv : Inv s
  idle : Idle s
  still : ∀ x ∈ s.loads, x.reading = false
  listener : ∃ x, s.listeners = [x] ∧ x.eq = eq ∧ x.adoptions = adoptions ∧
    ∀ y ∈ x.block, y.load = .before ∨ y.since = s.completed

theorem Behind.few {eq : StereoEqualizer} {as : List Nat} (B : Behind eq as s) (l : Lbl) :
    FewPublications s l := by
  obtain ⟨x, hs, -, -, hb⟩ := B.listener
  refine ⟨fun y hy hr => absurd hr (by simp [B.still y hy]), fun y hy z hz hr => ?_⟩
  rw [hs, List.mem_singleton] at hy
  subst hy
  rcases hb z hz with hbefore | hsince
  · simp [Loading.reading, hbefore] at hr
  · omega

/-- The blocks of such an equalizer do not change it. -/
theorem behind_step {eq : StereoEqualizer} {as : List Nat} {a : Nat} {l : Lbl}
    (B : Behind eq as s) (ha : as.getLast? = some a) (hd : 2 ^ 31 ∣ s.completed - a)
    (hl : l = .beginBlock 0 ∨ l = .blockStep 0) (hst : step lerp s l = some s') :
    Behind eq as s' ∧ s'.published = s.published := by
  have I' := inv_step B.inv (B.few l) hst
  obtain ⟨hi', hpub, -⟩ := B.idle.step (by rcases hl with rfl | rfl <;> exact fun _ => Lbl.noConfusion) hst
  obtain ⟨x, hs, heq, has, hb⟩ := B.listener
  have hx : s.listeners[0]? = some x := by rw [hs]; rfl
  have hc : s'.completed = s.completed := by rw [St.completed, hpub]; rfl
  rcases hl with rfl | rfl
  · simp only [step, hx, Option.bind_eq_bind, Option.bind_some] at hst
    split at hst
    · cases hst
      refine ⟨⟨I', hi', B.still, { x with block := some ⟨.before, s.completed⟩ },
        by rw [hs]; rfl, heq, has, fun y hy => .inl ?_⟩, rfl⟩
      rw [← Option.mem_some.mp hy]
    · cases hst
  · simp only [step, hx, Option.bind_eq_bind, Option.bind_some] at hst
    obtain ⟨x', hx', hst⟩ := Option.bind_eq_some_iff.mp hst
    cases hst
    obtain ⟨h₁, h₂, h₃⟩ := blockStep_wrapped (B.inv.listeners x (List.mem_of_getElem? hx))
      (B.idle.quiet B.inv) hb (has ▸ ha) hd hx'
    exact ⟨⟨I', hi', B.still, x', by rw [hs]; rfl, h₁.trans heq, h₂.trans has, h₃⟩, rfl⟩

theorem Behind.block {eq : StereoEqualizer} {as : List Nat} {a : Nat} (B : Behind eq as s)
    (ha : as.getLast? = some a) (hd : 2 ^ 31 ∣ s.completed - a)
    (hopen : ∀ x ∈ s.listeners, x.block = none) :
    ∃ n s' x', ((system lerp).restrict FewPublications).Run s
        (.beginBlock 0 :: List.replicate n (.blockStep 0)) s' ∧
      s'.listeners[0]? = some x' ∧ x'.block = none ∧ x'.eq = eq ∧ s'.published = s.published := by
  obtain ⟨x, hs, heq, has, -⟩ := B.listener
  have hx : s.listeners[0]? = some x := by rw [hs]; rfl
  have hnone : x.block = none := hopen x (by rw [hs]; exact List.mem_singleton_self x)
  have hst : step lerp s (.beginBlock 0) =
      some { s with listeners := [{ x with block := some ⟨.before, s.completed⟩ }] } := by
    simp only [step, hx, hnone, Option.bind_eq_bind, Option.bind_some, if_true]
    rw [hs]
    rfl
  obtain ⟨n, -, s', x', he, hx', hb', -, hpub⟩ := @block_returns lerp 0
    { x with block := some ⟨.before, s.completed⟩ : Listener }.left
    { s with listeners := [{ x with block := some ⟨.before, s.completed⟩ }] }
    { x with block := some ⟨.before, s.completed⟩ } (Nat.le_refl _) rfl
    fun y hy => by rw [← Option.mem_some.mp hy]; exact Nat.succ_pos _
  have hrun : (system lerp).Run s (.beginBlock 0 :: List.replicate n (.blockStep 0)) s' :=
    .cons hst (LTS.run_of_exec he)
  have hkeep := @LTS.Run.restrict _ _ _
    (fun u => Behind eq as u ∧ u.published = s.published) FewPublications _ _ _ hrun
    (fun u l u' hm hu hst => by
      have hl : l = .beginBlock 0 ∨ l = .blockStep 0 :=
        (List.mem_cons.mp hm).imp id List.eq_of_mem_replicate
      have hcu : u.completed = s.completed := by rw [St.completed, hu.2]; rfl
      obtain ⟨B', hpub'⟩ := behind_step hu.1 ha (hcu ▸ hd) hl hst
      exact ⟨hu.1.few l, B', hpub'.trans hu.2⟩) ⟨B, rfl⟩
  obtain ⟨y, hy, hyeq, -⟩ := hkeep.2.1.listener
  rw [hy, List.getElem?_cons_zero, Option.some.injEq] at hx'
  subst hx'
  exact ⟨n, s', y, hkeep.1, by rw [hy]; rfl, hb', hyeq, hpub⟩

end Wrap

/-! ## Runs -/

instance (s : St) (l : Lbl) : Decidable (FewPublications s l) :=
  inferInstanceAs (Decidable ((∀ x ∈ s.loads, x.reading = true → s.completed < x.since + 2 ^ 31) ∧
    ∀ x ∈ s.listeners, ∀ y ∈ x.block, y.reading = true → s.completed < y.since + 2 ^ 31))

instance (s : St) : Decidable (Idle s) := inferInstanceAs (Decidable (∀ c ∈ s.calls, c = .done))

/-- `IDENTITY`; 1.0 as a double.
mirrors src-tauri/src/audio/equalizer.rs:24-30 -/
def BiquadCoefficients.identity : BiquadCoefficients := ⟨0x3FF0000000000000, 0, 0, 0, 0⟩

/-- Neutral settings, bypassed and enabled. -/
def bypassed : EqTarget := ⟨0, fun _ => .identity⟩
def enabled : EqTarget := ⟨0x3FF0000000000000, fun _ => .identity⟩

/-- The audio callback state is made: it loads the initial settings. -/
def starts : List Lbl := .load :: List.replicate 18 (.loadStep 0) ++ [.create 0 960]

abbrev fewSystem : LTS St Lbl := (system fun _ target _ => target).restrict FewPublications

theorem callback_starts : ∃ s, fewSystem.Reachable s ∧ Idle s ∧
    (∀ x ∈ s.loads, x.reading = false) ∧ s.published = [bypassed] ∧ s.listeners.length = 1 ∧
    ∀ x ∈ s.listeners, x.block = none ∧ x.adoptions = [0] ∧ x.eq.target = bypassed := by
  have hrun : ∃ s, fewSystem.Reachable s ∧ decide (Idle s ∧
      (∀ x ∈ s.loads, x.reading = false) ∧ s.published = [bypassed] ∧ s.listeners.length = 1 ∧
      ∀ x ∈ s.listeners, x.block = none ∧ x.adoptions = [0] ∧ x.eq.target = bypassed) = true :=
    LTS.reachable_of_anyOk starts ⟨bypassed, rfl⟩ (by decide +kernel)
  obtain ⟨s, hr, h⟩ := hrun
  exact ⟨s, hr, of_decide_eq_true h⟩

/-- The last of `k + 1` publications is missed when 2^31 divides their number. -/
theorem missed_of_dvd (k : Nat) (hk : 2 ^ 31 ∣ k + 1) : ∃ s, fewSystem.Reachable s ∧ Idle s ∧
    ∃ n s' x, fewSystem.Run s (.beginBlock 0 :: List.replicate n (.blockStep 0)) s' ∧
      s'.listeners[0]? = some x ∧ x.block = none ∧
      s'.published.getLast? = some enabled ∧ x.eq.target = bypassed := by
  obtain ⟨s, hr, hi, hl, hp, hone, hx⟩ := callback_starts
  obtain ⟨s₁, hr₁, hi₁, hp₁, hl₁, hx₁⟩ := publications_between
    (List.replicate k bypassed ++ [enabled]) hr hi hl fun x hm => (hx x hm).1
  have hc : s₁.completed = k + 1 := by
    rw [St.completed, hp₁, hp]
    simp only [List.length_append, List.length_singleton, List.length_replicate]
    omega
  obtain ⟨y, hy⟩ := List.length_eq_one_iff.mp hone
  obtain ⟨hb, has, ht⟩ := hx y (hy ▸ List.mem_singleton_self y)
  have B : Behind y.eq [0] s₁ :=
    ⟨inv_inductive.reachable s₁ hr₁, hi₁, hl₁ ▸ hl, y, hx₁.trans hy, rfl, has,
      fun z hz => by simp [hb] at hz⟩
  have hopen : ∀ x ∈ s₁.listeners, x.block = none := fun x hm => (hx x (hx₁ ▸ hm)).1
  obtain ⟨n, s', x, hrun, hx', hb, heq, hpub⟩ := B.block rfl (hc ▸ hk) hopen
  refine ⟨s₁, hr₁, hi₁, n, s', x, hrun, hx', hb, ?_, heq ▸ ht⟩
  rw [hpub, hp₁, ← List.append_assoc, List.getLast?_concat]

/-- A block that begins between idle publishers misses the last publication:
2^31 publications have brought the number back to the one it has. -/
theorem publication_missed : ∃ s, fewSystem.Reachable s ∧ Idle s ∧
    ∃ n s' x, fewSystem.Run s (.beginBlock 0 :: List.replicate n (.blockStep 0)) s' ∧
      s'.listeners[0]? = some x ∧ x.block = none ∧
      s'.published.getLast? ≠ some x.eq.target := by
  obtain ⟨s, hr, hi, n, s', x, hrun, hx, hb, hlast, ht⟩ :=
    missed_of_dvd (2 ^ 31 - 1) (by norm_num)
  refine ⟨s, hr, hi, n, s', x, hrun, hx, hb, ?_⟩
  rw [hlast, ht]
  decide

/-- Settings published once reach the equalizer with its next block. -/
theorem publication_heard : ∃ s, fewSystem.Reachable s ∧ ∃ s' x,
    fewSystem.Run s (.beginBlock 0 :: List.replicate 18 (.blockStep 0)) s' ∧
      s'.listeners[0]? = some x ∧ s'.published.getLast? = some x.eq.target := by
  have hrun : ∃ s, fewSystem.Reachable s ∧ decide (Idle s ∧ s.published.length = 2 ∧
      (LTS.execOk FewPublications (step fun _ target _ => target) s
        (.beginBlock 0 :: List.replicate 18 (.blockStep 0))).any (fun s' =>
          decide (s'.published.length = 2 ∧ ∃ x ∈ s'.listeners[0]?, x.block = none)) = true) = true :=
    LTS.reachable_of_anyOk (starts ++ .publish enabled :: List.replicate 21 (.publishStep 0))
      ⟨bypassed, rfl⟩ (by decide +kernel)
  obtain ⟨s, hr, h⟩ := hrun
  obtain ⟨hi, -, hany⟩ := of_decide_eq_true h
  obtain ⟨s', he, h'⟩ := (Option.any_eq_true _ _).mp hany
  obtain ⟨hlen, x, hx, hb⟩ := of_decide_eq_true h'
  have hrun : fewSystem.Run s _ s' := LTS.run_of_execOk he
  refine ⟨s, hr, s', x, hrun, hx, ?_⟩
  rcases (equalizer_publication hr).2.2.2.1 hi _ s' hrun (by simp) 0 List.mem_cons_self x hx hb with
    h | ⟨a, -, -, ha, hd⟩
  · exact h
  · rw [St.completed, hlen] at ha hd
    omega

end RtpOscMidi.L5.EqualizerSeqlock
