import RtpOscMidi.L5Concurrency.SourceWindows

/-!
# Source windows: the steps of renderer and callback

Each keeps the order of priming, activation and calls, and the history of the
windows (`WInvAt`).
-/
namespace RtpOscMidi.L5.SourceWindows

open Core RenderAhead

variable {F : Type}

/-! ## Renderer steps -/

/-- The invariant while the renderer is at `r` and the callback at `u`. -/
structure WInvAt (c : Cfg) (s : St F) (r : Rend F) (u : Call F) (waiting : List Source)
    (rendered : List (Source × Nat)) (live : List Source) : Prop where
  order : Order c s r u
  hist : History c s.phase s.anchorUs s.frames s.lastEndpoint (toPrime r s.free)
    (pipe r s.pending s.free u) waiting rendered live

structure WInv (c : Cfg) (s : WinSt F) : Prop where
  pool : Inv c s.base
  at_ : WInvAt c s.base s.base.rend s.base.call s.waiting s.rendered s.live
  clock : s.clock ≤ u64Max

section Renderer

variable {c : Cfg} {s : St F} {r q : Rend F} {u : Call F} {b : Block F} {waiting : List Source}
  {rendered : List (Source × Nat)} {live : List Source}

/-- The renderer moves on with the block it has, or with none. -/
theorem WInvAt.move (W : WInvAt c s r u waiting rendered live)
    (hstart : Rendering q → s.phase ≠ 0) (hprime : priming q = priming r)
    (hheld : (held q s.pending).map (·.request) = (held r s.pending).map (·.request))
    (hblock : ∀ b ∈ q.block, b.primeIndex = none) (hsize : SizeOk s.frames q) :
    WInvAt c s q u waiting rendered live := by
  have htoPrime : toPrime q s.free = toPrime r s.free := by rw [toPrime, toPrime, hprime]
  have hpipe : pipe q s.pending s.free u = pipe r s.pending s.free u := by
    simp only [pipe, List.map_append, ← Option.toList_map, hheld]
  have O := W.order
  have H := W.hist
  refine ⟨{ O with rendering := hstart, calling := ?_, unprimed := ?_, sorted := ?_,
                   rend := hblock, size := hsize }, ?_⟩
  · rw [htoPrime]
    exact O.calling
  · rw [htoPrime]
    exact O.unprimed
  · rw [htoPrime]
    exact O.sorted
  · rw [htoPrime, hpipe]
    exact H

/-- The renderer puts its block back. -/
theorem WInvAt.putBack {d : Bool} (W : WInvAt c s (.render b) u waiting rendered live)
    (hb : b.primeIndex = none) :
    WInvAt c { s with pending := some b } (.idle d) u waiting rendered live := by
  have O := W.order
  have H := W.hist
  exact ⟨{ O with rendering := False.elim, pending := by simpa using hb, rend := by simp [Rend.block],
                  size := trivial }, H⟩

/-- The renderer puts its block back, or is invoked for it. -/
theorem WInvAt.window {now : Nat} (W : WInvAt c s (.render b) u waiting rendered live) :
    WInvAt c (window s now b) (window s now b).rend u waiting
      (rendered ++ (invoked (window s now b) .rend).toList.map fun b =>
        (⟨b.request, waiting.head?.bind (·.origin)⟩, now)) live := by
  unfold RenderAhead.window
  split
  · have hrest := @WInvAt.putBack F c s u b waiting rendered live false W (W.order.rend b rfl)
    simpa [invoked] using (⟨{ hrest.order with }, hrest.hist⟩ :
      WInvAt c { s with waitingForSource := true, pending := some b, rend := .idle false }
        (.idle false) u waiting rendered live)
  · rename_i hle
    have hnow : b.request.sourceEndUs ≤ now := by omega
    have hphase : s.phase ≠ 0 := W.order.rendering trivial
    exact ⟨{ W.order with }, W.hist.render hphase hnow⟩

theorem toPrime_cons_none {free : List (Block F)} (hb : b.primeIndex = none) :
    toPrime r (b :: free) = toPrime r free := by
  rw [toPrime, toPrime, List.filterMap_cons_none hb]

/-- The block that waited for its source is taken up again. -/
theorem WInvAt.takePending {now : Nat} (W : WInvAt c s (.take now) u waiting rendered live)
    (h : s.pending = some b) :
    WInvAt c { s with pending := none } (.render b) u waiting rendered live := by
  have O := W.order
  have H := W.hist
  have hb : b.primeIndex = none := O.pending b (by rw [h]; rfl)
  rw [h] at H
  refine ⟨{ O with rendering := fun _ => O.rendering trivial, pending := by simp,
                   rend := ?_, size := trivial }, H⟩
  intro x hx
  cases hx
  exact hb

/-- A block with a window is taken out of the ring. -/
theorem WInvAt.takeFree {now : Nat} {free : List (Block F)}
    (W : WInvAt c s (.take now) u waiting rendered live) (hp : s.pending = none)
    (hf : s.free = b :: free) (hb : b.primeIndex = none) :
    WInvAt c { s with free } (.render b) u waiting rendered live := by
  have O := W.order
  have H := W.hist
  have htoPrime : toPrime (.take now) s.free = toPrime (.render b) free := by
    rw [hf, toPrime_cons_none hb]
    rfl
  have hpipe : pipe (.take now) s.pending s.free u = pipe (.render b) s.pending free u := by
    simp [pipe, held, hp, hf, hb]
  rw [htoPrime, hpipe] at H
  have hsub : ∀ x ∈ free, x ∈ s.free := by
    intro x hx
    rw [hf]
    exact List.mem_cons_of_mem b hx
  refine ⟨{ O with rendering := fun _ => O.rendering trivial, calling := ?_, unprimed := ?_,
                   sorted := ?_, rend := ?_, size := trivial }, H⟩
  · intro hu
    rw [← htoPrime]
    exact O.calling hu
  · intro hne
    rw [← htoPrime] at hne
    obtain ⟨hphase, hlast, hall⟩ := O.unprimed hne
    exact ⟨hphase, hlast, fun x hx => hall x (hsub x hx)⟩
  · rw [← htoPrime]
    exact O.sorted
  · intro x hx
    cases hx
    exact hb

/-- A block without a window is taken out of the ring. -/
theorem WInvAt.takeUnprimed {now index : Nat} {free : List (Block F)}
    (W : WInvAt c s (.take now) u waiting rendered live) (hp : s.pending = none)
    (hf : s.free = b :: free) (hb : b.primeIndex = some index) :
    WInvAt c { s with free } (.primeFrames now index { b with primeIndex := none }) u waiting
      rendered live := by
  have O := W.order
  have H := W.hist
  have htoPrime : toPrime (.take now) s.free =
      toPrime (.primeFrames now index { b with primeIndex := none }) free := by
    rw [hf, toPrime, List.filterMap_cons_some hb]
    rfl
  have hpipe : pipe (.take now) s.pending s.free u =
      pipe (.primeFrames now index { b with primeIndex := none }) s.pending free u := by
    simp [pipe, held, hp, hf, hb]
  rw [htoPrime, hpipe] at H
  have hsub : ∀ x ∈ free, x ∈ s.free := by
    intro x hx
    rw [hf]
    exact List.mem_cons_of_mem b hx
  refine ⟨{ O with rendering := fun _ => O.rendering trivial, calling := ?_, unprimed := ?_,
                   sorted := ?_, rend := ?_, size := trivial }, H⟩
  · intro hu
    rw [← htoPrime]
    exact O.calling hu
  · intro hne
    rw [← htoPrime] at hne
    obtain ⟨hphase, hlast, hall⟩ := O.unprimed hne
    exact ⟨hphase, hlast, fun x hx => hall x (hsub x hx)⟩
  · rw [← htoPrime]
    exact O.sorted
  · intro x hx
    cases hx
    rfl

theorem returned_of_not_calling (h : ¬Calling u) : returned u = none := by
  cases u with
  | idle missing => rfl
  | phase now total => rfl
  | _ => exact absurd trivial h

/-- The block gets its first window. -/
theorem WInvAt.prime {now index : Nat}
    (W : WInvAt c s (.primeAnchor now index b) u waiting rendered live) :
    let b' : Block F := { b with
      request := { b.request with
        sourceEndUs := s.anchorUs - (c.blocks - index) * (b.request.frames * 1000000 / c.sampleRate) } }
    let x : Source := ⟨b'.request, some .primed⟩
    WInvAt c s (.render b') u (waiting ++ [x]) rendered (live ++ [x].filter Source.isLive) := by
  intro b' x
  have O := W.order
  have H := W.hist
  have hne : toPrime (.primeAnchor now index b) s.free ≠ [] := by
    simp [toPrime, priming]
  obtain ⟨hphase, hlast, hall⟩ := O.unprimed hne
  have hfree : s.free.filter (·.primeIndex.isNone) = [] := by
    refine List.filter_eq_nil_iff.mpr ?_
    intro x hx hnone
    exact hall x hx (Option.isNone_iff_eq_none.mp hnone)
  have hquiet : returned u = none := returned_of_not_calling fun hu => hne (O.calling hu).2
  have hpipe : pipe (.primeAnchor now index b) s.pending s.free u = [] := by
    simp [pipe, held, hfree, hquiet]
  have hpipe' : pipe (.render b') s.pending s.free u = [] ++ [b'.request] := by
    simp [pipe, held, hfree, hquiet]
  have hsize : b.request.frames = s.frames := O.size
  have hend : b'.request.sourceEndUs = primedEnd c s.anchorUs s.frames index := by
    rw [← hsize]
    rfl
  have hb : b.primeIndex = none := O.rend b rfl
  rw [hpipe] at H
  refine ⟨{ O with rendering := fun _ => O.rendering trivial, calling := ?_, unprimed := ?_,
                   sorted := ?_, rend := ?_, size := trivial }, ?_⟩
  · intro hu
    exact absurd (O.calling hu).2 hne
  · intro _
    exact ⟨hphase, hlast, hall⟩
  · exact O.sorted.sublist (List.sublist_cons_self index _)
  · intro x hx
    cases hx
    exact hb
  · rw [hpipe']
    have hcreate := @History.create c s.phase s.anchorUs s.frames s.lastEndpoint
      (toPrime (.primeAnchor now index b) s.free) [] waiting rendered live s.lastEndpoint
      (toPrime (.render b') s.free) x H (O.rendering trivial)
      (Nat.le_refl _) ?_ ?_ ?_ ?_ ?_
    · exact hcreate
    · intro y hy
      refine .inl ?_
      rw [hend]
      exact H.next index (by simp [toPrime, priming]) y hy
    · show b'.request.sourceEndUs ≤ s.anchorUs
      rw [hend]
      exact Nat.sub_le _ _
    · intro i hi
      exact List.mem_cons_of_mem index hi
    · intro i hi
      have hlt : index < i := (List.pairwise_cons.mp O.sorted).1 i hi
      rw [hend]
      have hmul : (c.blocks - i) * period c s.frames ≤ (c.blocks - index) * period c s.frames :=
        Nat.mul_le_mul_right _ (by omega)
      unfold primedEnd
      omega
    · intro hl
      cases hl

/-- The render is queued. -/
theorem WInvAt.accept (W : WInvAt c s (.push b) u waiting rendered live) (hp : s.pending = none) :
    WInvAt c { s with ready := s.ready ++ [b] } (.idle true) u waiting.tail rendered live := by
  have O := W.order
  have H := W.hist
  have hpipe : pipe (.push b) s.pending s.free u =
      b.request :: pipe (.idle true) s.pending s.free u := by
    simp [pipe, held, hp]
  rw [hpipe] at H
  refine ⟨{ O with rendering := False.elim, rend := by simp [Rend.block], ready := ?_,
                   size := trivial }, H.accept⟩
  intro x hx
  rcases List.mem_append.mp hx with hx | hx
  · exact O.ready x hx
  · rw [List.mem_singleton.mp hx]
    exact O.rend b rfl

end Renderer

/-! ## Callback steps -/

section Callback

variable {c : Cfg} {s : St F} {r : Rend F} {u v : Call F} {b : Block F} {j : Job F}
  {waiting : List Source} {rendered : List (Source × Nat)} {live : List Source}

/-- The callback moves on with the request it makes, or with none. -/
theorem WInvAt.call (W : WInvAt c s r u waiting rendered live)
    (hcalling : Calling v → s.phase ≠ 0 ∧ toPrime r s.free = [])
    (hreturned : returned v = returned u) (hblock : ∀ b ∈ v.block, b.primeIndex = none)
    (hfloor : FloorOk c s.anchorUs s.lastEndpoint v) (hnow : nowOfCall v ≤ u64Max) :
    WInvAt c s r v waiting rendered live := by
  have hpipe : pipe r s.pending s.free v = pipe r s.pending s.free u := by
    simp only [pipe, hreturned]
  refine ⟨{ W.order with calling := hcalling, call := hblock, floor := hfloor, now := hnow }, ?_⟩
  rw [hpipe]
  exact W.hist

theorem WInvAt.idle {m : Nat} (W : WInvAt c s r u waiting rendered live)
    (hreturned : returned u = none) : WInvAt c s r (.idle m) waiting rendered live :=
  W.call False.elim hreturned.symm (by simp [Call.block]) trivial (Nat.zero_le _)

theorem WInvAt.refuse {total missing : Nat} (W : WInvAt c s r u waiting rendered live)
    (hreturned : returned u = none) :
    WInvAt c (refuse s total missing) r (.idle missing) waiting rendered live := by
  have W' := W.idle hreturned (m := missing)
  exact ⟨{ W'.order with }, W'.hist⟩

/-- The callback resizes only when every block has been primed. -/
theorem WInvAt.storeFrames {t : Nat} (W : WInvAt c s r u waiting rendered live)
    (hu : Calling u) : WInvAt c { s with frames := t } r u waiting rendered live := by
  have hprimed := (W.order.calling hu).2
  refine ⟨{ W.order with size := ?_ }, W.hist.resize (.inr hprimed)⟩
  cases r with
  | primeAnchor now index b => simp [toPrime, priming] at hprimed
  | _ => trivial

@[simp] theorem finish_rend (s : St F) (j : Job F) : (finish s j).rend = s.rend := by
  unfold finish
  simp only
  split <;> rfl

@[simp] theorem loop_rend (s : St F) (j : Job F) : (loop s j).rend = s.rend := by
  unfold loop
  split
  · rfl
  · exact finish_rend s j

@[simp] theorem afterReturn_rend (c : Cfg) (s : St F) (j : Job F) (stale : Bool) :
    (afterReturn c s j stale).rend = s.rend := by
  unfold afterReturn
  cases stale with
  | false => exact loop_rend s j
  | true =>
    simp only [if_true]
    split
    · exact finish_rend _ _
    · exact loop_rend _ _

theorem winv_finish (W : WInvAt c s r (.pop j) waiting rendered live) :
    WInvAt c (finish s j) r (finish s j).call waiting rendered live := by
  unfold finish
  simp only
  split
  · have W' := W.idle rfl (m := j.total - j.written)
    exact ⟨{ W'.order with }, W'.hist⟩
  · have W' := W.idle rfl (m := 0)
    exact ⟨{ W'.order with }, W'.hist⟩

theorem winv_loop (W : WInvAt c s r (.pop j) waiting rendered live) :
    WInvAt c (loop s j) r (loop s j).call waiting rendered live := by
  unfold loop
  split
  · split
    · exact ⟨{ W.order with }, W.hist⟩
    · have W' : WInvAt c s r (.checkGeneration j) waiting rendered live :=
        W.call (fun _ => W.order.calling trivial) rfl (by simp [Call.block]) trivial W.order.now
      exact ⟨{ W'.order with }, W'.hist⟩
  · exact winv_finish W

theorem winv_afterReturn {stale : Bool} (W : WInvAt c s r (.pop j) waiting rendered live) :
    WInvAt c (afterReturn c s j stale) r (afterReturn c s j stale).call waiting rendered live := by
  unfold afterReturn
  cases stale with
  | false => exact winv_loop W
  | true =>
    simp only [if_true]
    have W' : WInvAt c { s with recovering := true, last := none } r
        (.pop { j with discarded := j.discarded + 1 }) waiting rendered live :=
      ⟨{ W.order with }, W.hist⟩
    split
    · exact winv_finish W'
    · exact winv_loop W'

/-- A new end past a floor: `m` is where the clock saturates. -/
theorem floor_bounds {last previous period anchor new m : Nat} (hfloor : last ≤ previous)
    (hanchor : anchor - period ≤ previous) (hno : ¬(last = 0 ∧ anchor < period))
    (hge : min (previous + period) m ≤ new) (hnew : new ≤ m) (hlast : last ≤ m) (ha : anchor ≤ m) :
    (last + period ≤ new ∨ new = m) ∧ anchor ≤ new ∧ last ≤ new := by
  omega

/-- `return_current` makes a live request. -/
theorem WInvAt.create {stale : Bool} {frames previous last : Nat}
    (W : WInvAt c s r (.returnClock j stale b frames previous) waiting rendered live)
    (hlast : last = max (j.now - (j.total - j.written) * 1000000 / c.sampleRate)
      (returnMinimum s (frames * 1000000 / c.sampleRate) previous)) :
    let x : Source := ⟨⟨frames, last⟩, some (.live (history c s frames))⟩
    WInvAt c { s with lastEndpoint := last } r
      (.returnPush j stale { b with request := ⟨frames, last⟩ }) (waiting ++ [x]) rendered
      (live ++ [x]) := by
  intro x
  have O := W.order
  have H := W.hist
  obtain ⟨hphase, hprimed⟩ := O.calling trivial
  obtain ⟨hfloor, hanchor⟩ := O.floor
  have hnow : j.now ≤ u64Max := O.now
  have hanchorMax := O.anchor
  have hlastMax := O.last
  have hb : b.primeIndex = none := O.call b rfl
  have hmax : last ≤ u64Max := by
    rw [hlast]
    refine Nat.max_le.mpr ⟨Nat.le_trans (Nat.sub_le _ _) hnow, ?_⟩
    unfold returnMinimum
    split
    · exact Nat.zero_le _
    · exact Nat.min_le_right _ _
  -- with history the new end is a period past the last one, and not before the anchor
  have hhistory : history c s frames = true →
      (s.lastEndpoint + period c frames ≤ last ∨ last = u64Max) ∧ s.anchorUs ≤ last ∧
        s.lastEndpoint ≤ last := by
    intro hh
    have hno : ¬(s.lastEndpoint = 0 ∧ s.anchorUs < period c frames) := by
      simpa only [history, Bool.not_eq_true', decide_eq_false_iff_not] using hh
    have hmin : returnMinimum s (frames * 1000000 / c.sampleRate) previous =
        satAdd previous (period c frames) := if_neg hno
    have hge : satAdd previous (period c frames) ≤ last := by
      rw [← hmin, hlast]
      exact Nat.le_max_right _ _
    exact floor_bounds hfloor hanchor hno hge hmax hlastMax hanchorMax
  have hnone : history c s frames = false → s.lastEndpoint = 0 := by
    intro hh
    have hyes : s.lastEndpoint = 0 ∧ s.anchorUs < period c frames := by
      simpa only [history, Bool.not_eq_false', decide_eq_true_eq] using hh
    exact hyes.1
  have hmono : s.lastEndpoint ≤ last := by
    cases hh : history c s frames with
    | false =>
      rw [hnone hh]
      exact Nat.zero_le _
    | true => exact (hhistory hh).2.2
  have hfollows : ∀ y ∈ sources waiting rendered, Follows y x := by
    intro y hy
    have hy := H.below y hy
    unfold Below at hy
    split at hy
    · rename_i hprimedy
      cases hh : history c s frames with
      | false => exact .inr ⟨hprimedy, by simp only [x, hh]⟩
      | true => exact .inl (Nat.le_trans hy (hhistory hh).2.1)
    · exact .inl (Nat.le_trans hy hmono)
    · exact hy.elim
  have hapart : ∀ y ∈ live, Apart c y x := by
    intro y hy
    have hle := H.liveBelow y hy
    cases hh : history c s frames with
    | false => exact .inr (.inr (by simp only [x, hh]))
    | true =>
      rcases (hhistory hh).1 with hperiod | hsat
      · exact .inl (Nat.le_trans (Nat.add_le_add_right hle _) hperiod)
      · exact .inr (.inl hsat)
  have hcreate := @History.create c s.phase s.anchorUs s.frames s.lastEndpoint
    (toPrime r s.free) (pipe r s.pending s.free (.returnClock j stale b frames previous)) waiting
    rendered live last (toPrime r s.free) x H hphase hmono hfollows (Nat.le_refl last)
    (fun _ hi => hi) (by rw [hprimed]; simp) (fun _ => ⟨Nat.le_refl last, hapart⟩)
  have hpipe : pipe r s.pending s.free (.returnPush j stale { b with request := ⟨frames, last⟩ }) =
      pipe r s.pending s.free (.returnClock j stale b frames previous) ++ [x.request] := by
    simp [pipe, returned, x]
  refine ⟨{ O with calling := fun _ => ⟨hphase, hprimed⟩, unprimed := fun hne => absurd hprimed hne,
                   call := ?_, floor := trivial, now := hnow, last := hmax }, ?_⟩
  · intro y hy
    cases hy
    exact hb
  · rw [hpipe]
    exact hcreate

/-- The block with its new request enters the ring. -/
theorem WInvAt.enter {stale : Bool} (W : WInvAt c s r (.returnPush j stale b) waiting rendered live) :
    WInvAt c { s with free := s.free ++ [b], offset := 0 } r (.pop j) waiting rendered live := by
  have O := W.order
  have H := W.hist
  obtain ⟨hphase, hprimed⟩ := O.calling trivial
  have hb : b.primeIndex = none := O.call b rfl
  have htoPrime : toPrime r (s.free ++ [b]) = toPrime r s.free := by
    simp [toPrime, hb]
  have hpipe : pipe r s.pending (s.free ++ [b]) (.pop j) =
      pipe r s.pending s.free (.returnPush j stale b) := by
    simp [pipe, returned, hb]
  refine ⟨{ O with calling := ?_, unprimed := ?_, sorted := ?_, call := by simp [Call.block],
                   floor := trivial, now := O.now }, ?_⟩
  · intro _
    rw [htoPrime]
    exact ⟨hphase, hprimed⟩
  · intro hne
    rw [htoPrime] at hne
    exact absurd hprimed hne
  · rw [htoPrime]
    exact O.sorted
  · rw [htoPrime, hpipe]
    exact H

end Callback

end RtpOscMidi.L5.SourceWindows
