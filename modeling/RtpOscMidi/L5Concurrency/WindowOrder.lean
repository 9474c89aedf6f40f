import RtpOscMidi.L5Concurrency.WindowSteps

/-!
# Source windows: every run

* `source_windows`: the windows of every run in the order that `Orderly` asks
  for.
* `windows_collapse`: two live windows that lie less than a period apart.
-/
namespace RtpOscMidi.L5.SourceWindows

open Core RenderAhead

variable {F : Type}

/-! ## Every step -/

section Step

variable {c : Cfg} {s : WinSt F} {base : St F}

theorem note_rend (ha : accepts s.base base .rend = false) :
    note c s .rend base =
      { base, clock := s.clock, waiting := s.waiting ++ (created c s.base base .rend).toList,
        rendered := s.rendered ++ (invoked base .rend).toList.map fun b =>
          (⟨b.request, (s.waiting ++ (created c s.base base .rend).toList).head?.bind (·.origin)⟩,
            nowOf s.base.rend),
        live := s.live ++ (created c s.base base .rend).toList.filter Source.isLive } := by
  simp [note, ha, clockOf]

/-- A step that makes no request and renders none. -/
theorem WInv.quiet {l : Lbl F} (P : Inv c base) (hclock : clockOf s.clock l ≤ u64Max)
    (hc : created c s.base base l = none) (ha : accepts s.base base l = false)
    (hi : invoked base l = none)
    (A : WInvAt c base base.rend base.call s.waiting s.rendered s.live) :
    WInv c (note c s l base) := by
  rw [note_quiet hc ha hi]
  exact ⟨P, A, hclock⟩

/-- The renderer moves on and neither makes a request nor renders one. -/
theorem WInv.moved {r q : Rend F} {queueFrames : Int} {verdicts : List (List F × Option Stale)}
    (W : WInv c s) (hu : s.base.rend = r)
    (P : Inv c { s.base with rend := q, queueFrames, verdicts })
    (hstart : Rendering q → s.base.phase ≠ 0) (hprime : priming q = priming r)
    (hheld : (held q s.base.pending).map (·.request) = (held r s.base.pending).map (·.request))
    (hblock : ∀ b ∈ q.block, b.primeIndex = none) (hsize : SizeOk s.base.frames q)
    (hc : created c s.base { s.base with rend := q, queueFrames, verdicts } .rend = none)
    (ha : accepts s.base { s.base with rend := q, queueFrames, verdicts } .rend = false)
    (hi : invoked { s.base with rend := q, queueFrames, verdicts } .rend = none) :
    WInv c (note c s .rend { s.base with rend := q, queueFrames, verdicts }) := by
  refine WInv.quiet P W.clock hc ha hi ?_
  have A := W.at_
  rw [hu] at A
  have A' := A.move hstart hprime hheld hblock hsize
  exact ⟨{ A'.order with }, A'.hist⟩

/-- The renderer gives its finished block up. -/
theorem WInv.rejected {r : Rend F} {b : Block F} {why : Stale} (W : WInv c s) (hu : s.base.rend = r)
    (P : Inv c (reject s.base b why)) (hr : Rendering r) (hprime : priming r = none)
    (hheld : held r s.base.pending = some b) (hb : b.primeIndex = none)
    (hc : created c s.base (reject s.base b why) .rend = none)
    (ha : accepts s.base (reject s.base b why) .rend = false) :
    WInv c (note c s .rend (reject s.base b why)) := by
  refine WInv.quiet P W.clock hc ha rfl ?_
  have A := W.at_
  rw [hu] at A
  have A' : WInvAt c s.base (.render b) s.base.call s.waiting s.rendered s.live :=
    A.move (fun _ => A.order.rendering hr) hprime.symm (by rw [hheld]; rfl)
      (by simpa [Rend.block] using hb) trivial
  have A'' := A'.putBack hb (d := false)
  exact ⟨{ A''.order with }, A''.hist⟩

/-- The renderer's block is tested against the now. -/
theorem WInv.tested {s₁ : St F} {b : Block F} {x : List Source} {now : Nat}
    (A : WInvAt c s₁ (.render b) s.base.call (s.waiting ++ x) s.rendered
      (s.live ++ x.filter Source.isLive))
    (P : Inv c (window s₁ now b)) (hcall : s₁.call = s.base.call) (hclock : s.clock ≤ u64Max)
    (hx : (created c s.base (window s₁ now b) .rend).toList = x)
    (ha : accepts s.base (window s₁ now b) .rend = false) (hnow : nowOf s.base.rend = now) :
    WInv c (note c s .rend (window s₁ now b)) := by
  rw [note_rend ha, hx, hnow]
  have hsame : (window s₁ now b).call = s.base.call := by
    unfold window
    split <;> exact hcall
  refine ⟨P, ?_, hclock⟩
  simp only [hsame]
  exact A.window

theorem winv_rendStep (W : WInv c s) (hst : rendStep c s.base s.base.rend = some base) :
    WInv c (note c s .rend base) := by
  have P' : Inv c base := inv_rendStep W.pool hst
  have A := W.at_
  have hpending : s.base.rend.block ≠ none → s.base.pending = none := W.pool.at_.pending
  have hpool := W.pool.rend
  cases hu : s.base.rend with
  | idle done => simp [hu, rendStep] at hst
  | phase now =>
    rw [hu] at hst
    simp only [rendStep, Option.some.injEq] at hst
    subst hst
    by_cases hphase : s.base.phase = 1 ∨ s.base.phase = 2
    · rw [if_pos hphase] at P' ⊢
      exact W.moved hu P' (fun _ => by omega) rfl rfl (by simp [Rend.block]) trivial
        (by simp [created, hu]) (by simp [accepts, hu]) rfl
    · rw [if_neg hphase] at P' ⊢
      exact W.moved hu P' False.elim rfl rfl (by simp [Rend.block]) trivial
        (by simp [created, hu]) (by simp [accepts, hu]) rfl
  | gate now =>
    rw [hu] at A hst
    simp only [rendStep, Option.some.injEq] at hst
    subst hst
    by_cases hclosed : s.base.gateClosed = true
    · rw [if_pos hclosed] at P' ⊢
      exact W.moved hu P' False.elim rfl rfl (by simp [Rend.block]) trivial
        (by simp [created, hu]) (by simp [accepts, hu]) rfl
    · rw [if_neg hclosed] at P' ⊢
      exact W.moved hu P' A.order.rendering rfl rfl (by simp [Rend.block]) trivial
        (by simp [created, hu]) (by simp [accepts, hu]) rfl
  | full now =>
    rw [hu] at A hst
    simp only [rendStep, Option.some.injEq] at hst
    subst hst
    by_cases hfull : s.base.ready.length = c.blocks
    · rw [if_pos hfull] at P' ⊢
      exact W.moved hu P' False.elim rfl rfl (by simp [Rend.block]) trivial
        (by simp [created, hu]) (by simp [accepts, hu]) rfl
    · rw [if_neg hfull] at P' ⊢
      exact W.moved hu P' A.order.rendering rfl rfl (by simp [Rend.block]) trivial
        (by simp [created, hu]) (by simp [accepts, hu]) rfl
  | take now =>
    rw [hu] at A hst
    simp only [rendStep] at hst
    split at hst
    · rename_i b hp
      have hb : b.primeIndex = none := A.order.pending b hp
      simp only [takeBlock, hb, Option.some.injEq] at hst
      subst hst
      exact WInv.tested (x := []) (by simpa using A.takePending hp) P' rfl W.clock
        (by simp [created, hu]) (by simp [accepts, hu]) (by simp [nowOf, hu])
    · rename_i hp
      split at hst
      · rename_i b free hf
        cases hb : b.primeIndex with
        | none =>
          simp only [takeBlock, hb, Option.some.injEq] at hst
          subst hst
          exact WInv.tested (x := []) (by simpa using A.takeFree hp hf hb) P' rfl W.clock
            (by simp [created, hu]) (by simp [accepts, hu]) (by simp [nowOf, hu])
        | some index =>
          simp only [takeBlock, hb, Option.some.injEq] at hst
          subst hst
          refine WInv.quiet P' W.clock (by simp [created, hu]) (by simp [accepts, hu]) rfl ?_
          have A' := A.takeUnprimed hp hf hb
          exact ⟨{ A'.order with }, A'.hist⟩
      · simp only [Option.some.injEq] at hst
        subst hst
        exact W.moved hu P' False.elim rfl rfl (by simp [Rend.block]) trivial
          (by simp [created, hu]) (by simp [accepts, hu]) rfl
  | primeFrames now index b =>
    rw [hu] at A hst
    simp only [rendStep, Option.some.injEq] at hst
    subst hst
    exact W.moved hu P' A.order.rendering rfl rfl (by simpa [Rend.block] using A.order.rend b rfl) rfl
      (by simp [created, hu]) (by simp [accepts, hu]) rfl
  | primeAnchor now index b =>
    rw [hu] at A hst
    simp only [rendStep, Option.some.injEq] at hst
    subst hst
    refine WInv.tested A.prime P' rfl W.clock ?_ (by simp [accepts, hu]) (by simp [nowOf, hu])
    simp only [created, hu, window]
    split <;> rfl
  | render b => simp [hu, rendStep] at hst
  | checkGeneration b g =>
    rw [hu] at A hst
    simp only [rendStep, Option.some.injEq] at hst
    subst hst
    have hb : b.primeIndex = none := A.order.rend b rfl
    by_cases hg : g ≠ s.base.generation
    · rw [dif_pos hg] at P' ⊢
      exact W.rejected hu P' trivial rfl rfl hb (by simp [created, hu]) (by simp [accepts, hu])
    · rw [dif_neg hg] at P' ⊢
      exact W.moved hu P' A.order.rendering rfl rfl A.order.rend trivial
        (by simp [created, hu]) (by simp [accepts, hu]) rfl
  | checkEmergency b g =>
    rw [hu] at A hst
    simp only [rendStep, Option.some.injEq] at hst
    subst hst
    have hb : b.primeIndex = none := A.order.rend b rfl
    by_cases he : s.base.emergency = true
    · rw [if_pos he] at P' ⊢
      exact W.rejected hu P' trivial rfl rfl hb (by simp [created, hu]) (by simp [accepts, hu])
    · rw [if_neg he] at P' ⊢
      exact W.moved hu P' A.order.rendering rfl rfl (by simpa [Rend.block] using hb) trivial
        (by simp [created, hu]) (by simp [accepts, hu]) rfl
  | addFrames b =>
    rw [hu] at A hst
    simp only [rendStep, Option.some.injEq] at hst
    subst hst
    exact W.moved hu P' A.order.rendering rfl rfl A.order.rend trivial
      (by simp [created, hu]) (by simp [accepts, hu]) rfl
  | push b =>
    rw [hu] at A hpending hst
    simp only [rendStep, Option.some.injEq] at hst
    subst hst
    have hn := W.pool.at_.count
    simp only [hu, Rend.block, Option.toList_some, List.length_singleton] at hn
    have hroom : s.base.ready.length < c.blocks := by omega
    rw [if_pos hroom] at P' ⊢
    have A' := A.accept (hpending (by simp [Rend.block]))
    have hnote : note c s .rend { s.base with
        ready := s.base.ready ++ [b], rend := .idle true,
        verdicts := s.base.verdicts ++ [(b.samples, none)] } =
        { s with
          base := { s.base with
            ready := s.base.ready ++ [b], rend := .idle true,
            verdicts := s.base.verdicts ++ [(b.samples, none)] },
          waiting := s.waiting.tail } := by
      simp [note, created, accepts, invoked, clockOf, hu]
    rw [hnote]
    exact ⟨P', ⟨{ A'.order with }, A'.hist⟩, W.clock⟩
  | subFrames b =>
    rw [hu] at hpool
    exact hpool.elim

theorem note_create {j : Job F} {stale : Bool} {b b' : Block F} {frames previous : Nat}
    (hu : s.base.call = .returnClock j stale b frames previous)
    (hb : base.call = .returnPush j stale b') :
    note c s .call base =
      { s with
        base, waiting := s.waiting ++ [⟨b'.request, some (.live (history c s.base frames))⟩],
        live := s.live ++ [⟨b'.request, some (.live (history c s.base frames))⟩] } := by
  simp [note, created, accepts, invoked, clockOf, hu, hb, returned, Source.isLive]

/-- A step of the callback that makes no request. -/
theorem winv_callQuiet (W : WInv c s) (P : Inv c base)
    (hc : created c s.base base .call = none) (hrend : base.rend = s.base.rend)
    (A : WInvAt c base s.base.rend base.call s.waiting s.rendered s.live) :
    WInv c (note c s .call base) := by
  refine WInv.quiet P W.clock hc rfl rfl ?_
  rw [hrend]
  exact A

/-- The callback moves on, changes what only it reads and makes no request. -/
theorem WInv.called {u v : Call F} {last : Option (F × Gain)} {recovering emergency : Bool}
    {fatal seenGeneration : Nat} (W : WInv c s) (hu : s.base.call = u)
    (P : Inv c { s.base with call := v, last, recovering, emergency, fatal, seenGeneration })
    (hcalling : Calling v → Calling u) (hreturned : returned v = returned u)
    (hblock : ∀ b ∈ v.block, b.primeIndex = none)
    (hfloor : FloorOk c s.base.anchorUs s.base.lastEndpoint v) (hnow : nowOfCall v ≤ u64Max)
    (hc : created c s.base
      { s.base with call := v, last, recovering, emergency, fatal, seenGeneration } .call = none) :
    WInv c (note c s .call
      { s.base with call := v, last, recovering, emergency, fatal, seenGeneration }) := by
  refine winv_callQuiet W P hc rfl ?_
  have A := W.at_
  rw [hu] at A
  have A' := A.call (fun h => A.order.calling (hcalling h)) hreturned hblock hfloor hnow
  exact ⟨{ A'.order with }, A'.hist⟩

theorem winv_callStep (W : WInv c s) (hst : callStep c s.base s.base.call = some base) :
    WInv c (note c s .call base) := by
  have P' : Inv c base := inv_callStep W.pool hst
  have A := W.at_
  cases hu : s.base.call with
  | idle missing => simp [hu, callStep] at hst
  | phase now total =>
    rw [hu] at A hst
    simp only [callStep, Option.some.injEq] at hst
    subst hst
    by_cases hphase : s.base.phase ≠ 2
    · rw [if_pos hphase] at P' ⊢
      exact winv_callQuiet W P' (by simp [created, hu]) rfl (A.refuse rfl)
    · rw [if_neg hphase] at P' ⊢
      refine winv_callQuiet W P' (by simp [created, hu]) rfl ?_
      have hprimed : toPrime s.base.rend s.base.free = [] := by
        by_contra hne
        exact hphase (A.order.unprimed hne).1
      have A' := A.call (v := .enter now total) (fun _ => ⟨by omega, hprimed⟩) rfl
        (by simp [Call.block]) trivial A.order.now
      exact ⟨{ A'.order with }, A'.hist⟩
  | enter now total =>
    rw [hu] at A hst
    simp only [callStep, Option.some.injEq] at hst
    subst hst
    by_cases hclosed : s.base.gateClosed = true
    · rw [if_pos hclosed] at P' ⊢
      refine winv_callQuiet W P' (by simp [created, hu]) rfl ?_
      have A' : WInvAt c { s.base with recovering := true } s.base.rend (.enter now total) s.waiting
          s.rendered s.live := ⟨{ A.order with }, A.hist⟩
      exact A'.refuse rfl
    · rw [if_neg hclosed] at P' ⊢
      by_cases hlarge : total > c.maxFrames
      · rw [if_pos hlarge] at P' ⊢
        exact W.called hu P' (fun _ => trivial) rfl (by simp [Call.block]) trivial (Nat.zero_le _)
          (by simp [created, hu])
      · rw [if_neg hlarge] at P' ⊢
        by_cases hzero : total = 0
        · rw [if_pos hzero] at P' ⊢
          exact winv_callQuiet W P' (by simp [created, hu]) rfl (A.refuse rfl)
        · rw [if_neg hzero] at P' ⊢
          exact W.called hu P' (fun _ => trivial) rfl (by simp [Call.block]) trivial A.order.now
            (by simp [created, hu])
  | fault total =>
    rw [hu] at A hst
    simp only [callStep, Option.some.injEq] at hst
    subst hst
    exact W.called hu P' (fun _ => trivial) rfl (by simp [Call.block]) trivial (Nat.zero_le _)
      (by simp [created, hu])
  | raiseEmergency total =>
    rw [hu] at A hst
    simp only [callStep, Option.some.injEq] at hst
    subst hst
    refine winv_callQuiet W P' (by simp [created, hu]) rfl ?_
    have A' : WInvAt c { s.base with emergency := true } s.base.rend (.raiseEmergency total) s.waiting
        s.rendered s.live := ⟨{ A.order with }, A.hist⟩
    exact A'.refuse rfl
  | loadGeneration now total =>
    rw [hu] at A hst
    simp only [callStep, Option.some.injEq] at hst
    subst hst
    by_cases hg : s.base.generation ≠ s.base.seenGeneration
    · rw [if_pos hg] at P' ⊢
      exact W.called hu P' (fun _ => trivial) rfl (by simp [Call.block]) trivial A.order.now
        (by simp [created, hu])
    · rw [if_neg hg] at P' ⊢
      exact W.called hu P' (fun _ => trivial) rfl (by simp [Call.block]) trivial A.order.now
        (by simp [created, hu])
  | loadEmergency now total g =>
    rw [hu] at A hst
    simp only [callStep, Option.some.injEq] at hst
    subst hst
    by_cases he : s.base.emergency = true
    · rw [if_pos he] at P' ⊢
      exact W.called hu P' (fun _ => trivial) rfl (by simp [Call.block]) trivial A.order.now
        (by simp [created, hu])
    · rw [if_neg he] at P' ⊢
      exact W.called hu P' (fun _ => trivial) rfl (by simp [Call.block]) trivial A.order.now
        (by simp [created, hu])
  | storeFrames now total resetting =>
    rw [hu] at A hst
    simp only [callStep, Option.some.injEq] at hst
    subst hst
    refine winv_callQuiet W P' (by simp [created, hu]) (by simp) ?_
    have A' := (A.storeFrames (t := total) trivial).call
      (v := .pop ⟨now, total, resetting, 0, 0, []⟩) (fun _ => A.order.calling trivial) rfl
      (by simp [Call.block]) trivial A.order.now
    exact winv_loop A'
  | pop j =>
    rw [hu] at A hst
    simp only [callStep] at hst
    split at hst
    · rename_i b ready hb
      simp only [Option.some.injEq] at hst
      subst hst
      refine winv_callQuiet W P' (by simp [created, hu]) rfl ?_
      have hready := A.order.ready
      rw [hb, List.forall_mem_cons] at hready
      have A' := A.call (v := .checkGeneration j) (fun _ => A.order.calling trivial) rfl
        (by simp [Call.block]) trivial A.order.now
      exact ⟨{ A'.order with ready := hready.2, current := by simpa using hready.1 }, A'.hist⟩
    · simp only [Option.some.injEq] at hst
      subst hst
      refine winv_callQuiet W P' (by simp [created, hu]) (by simp) ?_
      have A' : WInvAt c { s.base with offset := 0 } s.base.rend (.pop j) s.waiting s.rendered
          s.live := ⟨{ A.order with }, A.hist⟩
      exact winv_finish A'
  | checkGeneration j =>
    rw [hu] at A hst
    simp only [callStep, Option.map_eq_some_iff] at hst
    obtain ⟨b, -, hst⟩ := hst
    subst hst
    by_cases hg : b.generation ≠ s.base.generation
    · rw [dif_pos hg] at P' ⊢
      exact W.called hu P' (fun _ => trivial) rfl (by simp [Call.block]) trivial A.order.now
        (by simp [created, hu])
    · rw [dif_neg hg] at P' ⊢
      exact W.called hu P' (fun _ => trivial) rfl (by simp [Call.block]) trivial A.order.now
        (by simp [created, hu])
  | checkEmergency j =>
    rw [hu] at A hst
    simp only [callStep, Option.some.injEq] at hst
    subst hst
    by_cases he : s.base.emergency = true
    · rw [if_pos he] at P' ⊢
      exact W.called hu P' (fun _ => trivial) rfl (by simp [Call.block]) trivial A.order.now
        (by simp [created, hu])
    · rw [if_neg he] at P' ⊢
      exact W.called hu P' (fun _ => trivial) rfl (by simp [Call.block]) trivial A.order.now
        (by simp [created, hu])
  | discard j why =>
    rw [hu] at A hst
    simp only [callStep, Option.map_eq_some_iff] at hst
    obtain ⟨b, hb, hst⟩ := hst
    subst hst
    refine winv_callQuiet W P' (by simp [created, hu]) rfl ?_
    have hindex : b.primeIndex = none := A.order.current b hb
    have A' := A.call (v := .returnFrames j true b) (fun _ => A.order.calling trivial) rfl
      (by simpa [Call.block] using hindex) trivial A.order.now
    exact ⟨{ A'.order with current := by simp }, A'.hist⟩
  | play j =>
    rw [hu] at A hst
    simp only [callStep, Option.map_eq_some_iff] at hst
    obtain ⟨b, hb, hst⟩ := hst
    have hindex : b.primeIndex = none := A.order.current b hb
    split at hst
    · subst hst
      refine winv_callQuiet W P' (by simp [created, hu]) rfl ?_
      have A' := A.call (v := .returnFrames _ false b) (fun _ => A.order.calling trivial) rfl
        (by simpa [Call.block] using hindex) trivial A.order.now
      exact ⟨{ A'.order with current := by simp }, A'.hist⟩
    · subst hst
      refine winv_callQuiet W P' (by simp [created, hu]) (by simp) (winv_loop ?_)
      have A' := A.call (v := .pop _) (fun _ => A.order.calling trivial) rfl
        (by simp [Call.block]) trivial A.order.now
      exact ⟨{ A'.order with }, A'.hist⟩
  | returnFrames j stale b =>
    rw [hu] at A hst
    simp only [callStep, Option.some.injEq] at hst
    subst hst
    exact W.called hu P' (fun _ => trivial) rfl A.order.call trivial A.order.now
      (by simp [created, hu])
  | returnAnchor j stale b frames =>
    rw [hu] at A hst
    simp only [callStep, Option.some.injEq] at hst
    subst hst
    exact W.called hu P' (fun _ => trivial) rfl A.order.call
      ⟨Nat.le_max_left _ _, Nat.le_max_right _ _⟩ A.order.now (by simp [created, hu])
  | returnClock j stale b frames previous =>
    rw [hu] at A hst
    simp only [callStep, Option.some.injEq] at hst
    obtain ⟨last, hlast⟩ : ∃ last, last = max (j.now - (j.total - j.written) * 1000000 / c.sampleRate)
        (returnMinimum s.base (frames * 1000000 / c.sampleRate) previous) := ⟨_, rfl⟩
    rw [← hlast] at hst
    subst hst
    have A' := A.create hlast
    rw [note_create hu rfl]
    exact ⟨P', ⟨{ A'.order with }, A'.hist⟩, W.clock⟩
  | returnPush j stale b =>
    rw [hu] at A hst
    simp only [callStep, Option.some.injEq] at hst
    subst hst
    have hn := W.pool.at_.count
    simp only [hu, Call.block, Option.toList_some, List.length_singleton] at hn
    have hroom : s.base.free.length < c.blocks := by omega
    rw [if_pos hroom] at P' ⊢
    exact winv_callQuiet W P' (by simp [created, hu]) (by simp) (winv_afterReturn A.enter)

end Step

/-! ## Headline property -/

theorem winv_step {c : Cfg} {s s' : WinSt F} {l : Lbl F} (W : WInv c s) (hok : Orderly s l)
    (hst : winStep c s l = some s') : WInv c s' := by
  obtain ⟨base, hbase, rfl⟩ := winStep_eq_some.mp hst
  have P' : Inv c base := inv_step W.pool hbase
  have A := W.at_
  have O := A.order
  cases l with
  | bumpGeneration | setEmergency on | setGate closed =>
    simp only [step, Option.some.injEq] at hbase
    subst hbase
    exact WInv.quiet P' W.clock rfl rfl rfl ⟨{ O with }, A.hist⟩
  | setFatal code =>
    simp only [step] at hbase
    split at hbase
    · cases hbase
    · simp only [Option.some.injEq] at hbase
      subst hbase
      exact WInv.quiet P' W.clock rfl rfl rfl ⟨{ O with }, A.hist⟩
  | setPhase phase =>
    simp only [step, Option.some.injEq] at hbase
    subst hbase
    simp only [Orderly] at hok
    have hne : phase ≠ 0 := by omega
    have O' : Order c { s.base with phase } s.base.rend s.base.call := by
      refine { O with rendering := ?_, calling := ?_, unprimed := ?_ }
      · intro _
        exact hne
      · intro hu
        exact ⟨hne, (O.calling hu).2⟩
      · intro hunprimed
        obtain ⟨-, hrest⟩ := O.unprimed hunprimed
        refine ⟨?_, hrest⟩
        rcases hok with hok | hok | hok
        · simp only
          omega
        · exact absurd hok.2.2 hunprimed
        · simp only
          omega
    exact WInv.quiet P' W.clock rfl rfl rfl ⟨{ O' with }, A.hist.setPhase hne⟩
  | setAnchor us =>
    simp only [step, Option.some.injEq] at hbase
    subst hbase
    obtain ⟨hphase, -, hus⟩ := hok
    refine WInv.quiet P' hus rfl rfl rfl ⟨{ O with floor := ?_, anchor := hus },
      A.hist.setAnchor hphase⟩
    cases hu : s.base.call with
    | returnClock j stale b frames previous =>
      rw [hu] at O
      exact absurd hphase (O.calling trivial).1
    | _ => trivial
  | setFrames frames =>
    simp only [step, Option.some.injEq] at hbase
    subst hbase
    by_cases hsize : 0 < frames ∧ frames ≤ c.maxFrames
    · rw [if_pos hsize] at P' ⊢
      refine WInv.quiet P' W.clock rfl rfl rfl ⟨{ O with size := ?_ }, A.hist.resize hok⟩
      simp only
      cases hr : s.base.rend with
      | primeAnchor now index b =>
        rw [hr] at O
        simp only [Orderly, hr] at hok
        rcases hok with hphase | hprimed
        · exact absurd hphase (O.rendering trivial)
        · simp [toPrime, priming] at hprimed
      | _ => trivial
    · rw [if_neg hsize] at P' ⊢
      exact WInv.quiet P' W.clock rfl rfl rfl A
  | renderNext now =>
    simp only [step] at hbase
    split at hbase
    · rename_i done hr
      simp only [Option.some.injEq] at hbase
      subst hbase
      rw [hr] at A
      have A' := A.move (q := .phase now) False.elim rfl rfl (by simp [Rend.block]) trivial
      exact WInv.quiet P' hok.2 rfl rfl rfl ⟨{ A'.order with }, A'.hist⟩
    · cases hbase
  | rend => exact winv_rendStep W hbase
  | rendered samples generation =>
    simp only [step] at hbase
    split at hbase
    · rename_i b hr
      rw [hr] at A
      have hb : b.primeIndex = none := A.order.rend b rfl
      split at hbase
      · split at hbase
        · rename_i g
          simp only [Option.some.injEq] at hbase
          subst hbase
          have A' := A.move (q := .checkGeneration { b with samples } g) A.order.rendering rfl rfl
            (by simpa [Rend.block] using hb) trivial
          exact WInv.quiet P' W.clock rfl rfl rfl ⟨{ A'.order with }, A'.hist⟩
        · simp only [Option.some.injEq] at hbase
          subst hbase
          have A' := A.move (q := .render { b with samples }) A.order.rendering rfl rfl
            (by simpa [Rend.block] using hb) trivial
          have A'' := A'.putBack hb (d := false)
          exact WInv.quiet P' W.clock rfl rfl rfl ⟨{ A''.order with }, A''.hist⟩
      · cases hbase
    · cases hbase
  | copyInto len now =>
    simp only [step] at hbase
    split at hbase
    · rename_i missing hu
      simp only [Option.some.injEq] at hbase
      subst hbase
      rw [hu] at A
      have A' := A.call (v := .phase now (len / c.channels)) False.elim rfl (by simp [Call.block])
        trivial hok.2
      exact WInv.quiet P' hok.2 rfl rfl rfl ⟨{ A'.order with }, A'.hist⟩
    · cases hbase
  | call => exact winv_callStep W hbase

/-- Every block waits for its first window, in order. -/
theorem winv_start {c : Cfg} {s : St F} {frames : Nat} (h : channel c frames = .ok s) :
    WInvAt c s s.rend s.call [] [] [] := by
  simp only [channel] at h
  split at h
  · cases h
  · simp only [Except.ok.injEq] at h
    subst h
    have hindices : ((List.range c.blocks).map fun index =>
        (⟨[], ⟨frames, 0⟩, 0, some index⟩ : Block F)).filterMap (·.primeIndex) =
        List.range c.blocks := by
      rw [List.filterMap_map]
      exact List.filterMap_some
    have hunprimed : ∀ b ∈ (List.range c.blocks).map fun index =>
        (⟨[], ⟨frames, 0⟩, 0, some index⟩ : Block F), b.primeIndex ≠ none := by
      intro b hb
      obtain ⟨index, -, rfl⟩ := List.mem_map.mp hb
      exact Option.some_ne_none index
    constructor
    · refine ⟨False.elim, False.elim, ?_, ?_, by simp, by simp [Rend.block], by simp, by simp,
        by simp [Call.block], trivial, trivial, Nat.zero_le _, Nat.zero_le _, Nat.zero_le _⟩
      · intro _
        exact ⟨by simp, rfl, hunprimed⟩
      · simp only [toPrime, hindices]
        exact List.pairwise_lt_range
    · refine ⟨?_, fun _ => rfl, .nil, by simp [sources], by simp [sources], .nil, by simp, by simp⟩
      have hnone : ((List.range c.blocks).map fun index =>
          (⟨[], ⟨frames, 0⟩, 0, some index⟩ : Block F)).filter (·.primeIndex.isNone) = [] :=
        List.filter_eq_nil_iff.mpr fun b hb hn => hunprimed b hb (Option.isNone_iff_eq_none.mp hn)
      simp only [pipe, hnone]
      rfl

theorem winv_inductive (F : Type) (c : Cfg) : (winLts F c).Inductive (WInv c) where
  init := by
    intro s h
    obtain ⟨⟨frames, hbase⟩, hclock, hwaiting, hrendered, hlive⟩ := h
    refine ⟨(inv_inductive F c).init s.base ⟨frames, hbase⟩, ?_, ?_⟩
    · rw [hwaiting, hrendered, hlive]
      exact winv_start hbase
    · rw [hclock]
      exact Nat.zero_le _
  step _ _ _ W hst := winv_step W hst.1 hst.2

/-- Which windows the renderer is invoked for, over every interleaving of the
renderer, the calls and the application. -/
theorem source_windows (F : Type) (c : Cfg) (s : WinSt F) (h : (winLts F c).Reachable s) :
    (∀ x ∈ s.rendered, x.1.request.sourceEndUs ≤ x.2) ∧
    (s.rendered.map Prod.fst).Pairwise Follows ∧
    s.live.Pairwise (Apart c) := by
  have H := ((winv_inductive F c).reachable s h).at_.hist
  have hsub : (s.rendered.map Prod.fst).Sublist (sources s.waiting s.rendered) :=
    List.sublist_append_left _ _
  exact ⟨H.window, H.sorted.sublist hsub, H.apart⟩

/-- A device of 1 kHz, whose driver may ask for up to 100 frames. -/
def slowDevice (blocks : Nat) : Cfg := ⟨1, 100, 1000, blocks⟩

def paused (blocks : Nat) : WinSt Unit where
  base := { phase := 0, anchorUs := 0, frames := 4, generation := 0, emergency := false,
            gateClosed := false, fatal := 0, queueFrames := 0, ready := [],
            free := (List.range blocks).map fun index => ⟨[], ⟨4, 0⟩, 0, some index⟩,
            pending := none, waitingForSource := false, rend := .idle false, current := none,
            offset := 0, last := none, recovering := false, lastEndpoint := 0, seenGeneration := 0,
            call := .idle 0, verdicts := [], log := [], output := [] }
  clock := 0
  waiting := []
  rendered := []
  live := []

theorem start_one : Start (slowDevice 1) (paused 1) := ⟨⟨4, rfl⟩, rfl, rfl, rfl, rfl⟩

theorem start_two : Start (slowDevice 2) (paused 2) := ⟨⟨4, rfl⟩, rfl, rfl, rfl, rfl⟩

/-- `prime` at `anchor`. -/
def primeAt (blocks anchor : Nat) : List (Lbl Unit) :=
  [.setAnchor anchor, .setPhase 1] ++
    (List.replicate blocks ([.renderNext anchor] ++ List.replicate 6 .rend ++
      [.rendered (List.replicate 4 ()) (some 0)] ++ List.replicate 4 .rend)).flatten ++ [.setPhase 2]

/-- `copy_into` of `frames` at `now`, with one block returned. -/
def callAt (frames now calls : Nat) : List (Lbl Unit) := .copyInto frames now :: List.replicate calls .call

/-- Two primed windows and a live one. -/
theorem source_windows_primed : ∃ s : WinSt Unit,
    s.rendered.map (·.1.request.sourceEndUs) = [92000, 96000, 100000] ∧
      (∀ x ∈ s.rendered, x.1.request.sourceEndUs ≤ x.2) ∧
      (s.rendered.map Prod.fst).Pairwise Follows := by
  have hrun : ∃ s, (winLts Unit (slowDevice 2)).Reachable s ∧
      decide (s.rendered.map (·.1.request.sourceEndUs) = [92000, 96000, 100000]) = true :=
    LTS.reachable_of_anyOk
      (primeAt 2 100000 ++ callAt 4 100000 13 ++ [.renderNext 100000] ++ List.replicate 4 .rend)
      start_two (by decide +kernel)
  obtain ⟨s, hs, hends⟩ := hrun
  obtain ⟨hnow, hsorted, -⟩ := source_windows Unit (slowDevice 2) s hs
  exact ⟨s, of_decide_eq_true hends, hnow, hsorted⟩

/-- 6 ms after the start of the clock a call of 100 frames makes a request
that ends 2 ms before the primed one; at the end of the clock two requests
have the same end. -/
theorem windows_collapse :
    (∃ s, (winLts Unit (slowDevice 1)).Reachable s ∧
      s.rendered.map (·.1.request.sourceEndUs) = [2000, 0]) ∧
    ∃ s, (winLts Unit (slowDevice 2)).Reachable s ∧
      s.live = [⟨⟨4, u64Max⟩, some (.live true)⟩, ⟨⟨4, u64Max⟩, some (.live true)⟩] := by
  have hback : ∃ s, (winLts Unit (slowDevice 1)).Reachable s ∧
      decide (s.rendered.map (·.1.request.sourceEndUs) = [2000, 0]) = true :=
    LTS.reachable_of_anyOk
      (primeAt 1 6000 ++ callAt 100 6000 14 ++ [.renderNext 6000] ++ List.replicate 4 .rend)
      start_one (by decide +kernel)
  have hsame : ∃ s, (winLts Unit (slowDevice 2)).Reachable s ∧
      decide (s.live = [⟨⟨4, u64Max⟩, some (.live true)⟩, ⟨⟨4, u64Max⟩, some (.live true)⟩]) =
        true :=
    LTS.reachable_of_anyOk (primeAt 2 u64Max ++ callAt 4 u64Max 13 ++ callAt 4 u64Max 13)
      start_two (by decide +kernel)
  obtain ⟨s, hs, hends⟩ := hback
  obtain ⟨s', hs', hlive⟩ := hsame
  exact ⟨⟨s, hs, of_decide_eq_true hends⟩, s', hs', of_decide_eq_true hlive⟩

end RtpOscMidi.L5.SourceWindows
