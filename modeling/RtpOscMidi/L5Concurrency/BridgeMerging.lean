import RtpOscMidi.L5Concurrency.BridgeParameters

/-!
# The pending parameter changes of the bridge

Merging keeps the last change of each parameter and stays within the bound of
the list, so that what was sent is queued, drained, pending, in a request, or
superseded by a later change (`Carries`).
-/
namespace RtpOscMidi.L5.BridgeParameters

open Core ParameterBarrier

variable {V D O : Type}

/-! ## Merging -/

section Merge

variable {cache : List Metadata} {pending commands : List (ParameterCommand V)}
  {c : ParameterCommand V}

/-- No two parameters of the plugin share an id, except 0. -/
def UniqueIds (cache : List Metadata) : Prop :=
  ∀ (i j : Nat) (m n : Metadata), cache[i]? = some m → cache[j]? = some n → m.id ≠ 0 →
    m.id = n.id → i = j

def Known (cache : List Metadata) (commands : List (ParameterCommand V)) : Prop :=
  ∀ c ∈ commands, cache[c.index]? = some c.metadata

theorem index_of_sameParameter {d : ParameterCommand V} (hu : UniqueIds cache)
    (hc : cache[c.index]? = some c.metadata) (hd : cache[d.index]? = some d.metadata)
    (h : sameParameter c d = true) : d.index = c.index := by
  simp only [sameParameter, Bool.or_eq_true, beq_iff_eq, Bool.and_eq_true, bne_iff_ne] at h
  rcases h with h | ⟨⟨hd0, _⟩, he⟩
  · exact h
  · exact hu d.index c.index d.metadata c.metadata hd hc hd0 he

/-- `commands` may be merged into `pending`: there is room, an entry of the
same parameter is older, and no two of the commands are of one parameter. -/
structure Mergeable (cache : List Metadata) (pending commands : List (ParameterCommand V)) :
    Prop where
  room : pending.length + commands.length ≤ maxParameterChanges
  older : ∀ d ∈ pending, ∀ c ∈ commands, d.index = c.index → d.sequence ≤ c.sequence
  distinct : (commands.map ParameterCommand.index).Nodup
  known : Known cache (pending ++ commands)

theorem mergeCommand_spec (hu : UniqueIds cache) (M : Mergeable cache pending (c :: commands)) :
    Mergeable cache (mergeCommand pending c) commands ∧
      Covers (Supersedes ParameterCommand.sequence ParameterCommand.index) (pending ++ [c])
        (mergeCommand pending c) ∧ ∀ a ∈ mergeCommand pending c, a ∈ pending ++ [c] := by
  have hroom := M.room
  have hdist := List.nodup_cons.mp M.distinct
  rw [List.length_cons] at hroom
  have hsub : ∀ a ∈ mergeCommand pending c, a ∈ pending ++ [c] := by
    unfold mergeCommand
    cases hr : replaceFirst (sameParameter c) c pending with
    | some l => exact subset_replaceFirst hr
    | none =>
      simp only
      rw [if_neg (by omega)]
      exact fun a ha => ha
  have hlen : (mergeCommand pending c).length ≤ pending.length + 1 := by
    unfold mergeCommand
    cases hr : replaceFirst (sameParameter c) c pending with
    | some l =>
      have := length_replaceFirst hr
      simp only
      omega
    | none =>
      simp only
      rw [if_neg (by omega), List.length_append]
      exact Nat.le_refl _
  refine ⟨⟨by omega, ?_, hdist.2, ?_⟩, ?_, hsub⟩
  · intro d hd e he hi
    rcases List.mem_append.mp (hsub d hd) with hd | hd
    · exact M.older d hd e (List.mem_cons_of_mem _ he) hi
    · rw [List.mem_singleton.mp hd] at hi
      exact absurd (hi ▸ List.mem_map_of_mem he) hdist.1
  · intro d hd
    refine M.known d ?_
    rcases List.mem_append.mp hd with hd | hd
    · rcases List.mem_append.mp (hsub d hd) with hd | hd
      · exact List.mem_append_left _ hd
      · exact List.mem_append_right _ (List.mem_singleton.mp hd ▸ List.mem_cons_self)
    · exact List.mem_append_right _ (List.mem_cons_of_mem _ hd)
  · unfold mergeCommand
    cases hr : replaceFirst (sameParameter c) c pending with
    | some l =>
      refine covers_replaceFirst supersedes_refl (fun a ha hp => ?_) hr
      have hi := index_of_sameParameter hu
        (M.known c (List.mem_append_right _ List.mem_cons_self))
        (M.known a (List.mem_append_left _ ha)) hp
      exact ⟨hi, M.older a ha c List.mem_cons_self hi⟩
    | none =>
      simp only
      rw [if_neg (by omega)]
      exact covers_of_subset supersedes_refl fun a ha => ha

/-- Merging keeps the last value of every parameter, in the room there is. -/
theorem mergeParameterCommands_spec (hu : UniqueIds cache) (M : Mergeable cache pending commands) :
    (mergeParameterCommands pending commands).length ≤ maxParameterChanges ∧
      Covers (Supersedes ParameterCommand.sequence ParameterCommand.index) (pending ++ commands)
        (mergeParameterCommands pending commands) ∧
      ∀ a ∈ mergeParameterCommands pending commands, a ∈ pending ++ commands := by
  induction commands generalizing pending with
  | nil =>
    have hroom := M.room
    rw [List.append_nil]
    exact ⟨hroom, covers_of_subset supersedes_refl fun a ha => ha, fun a ha => ha⟩
  | cons c commands ih =>
    obtain ⟨M', hc, hs⟩ := mergeCommand_spec hu M
    obtain ⟨hlen, hcov, hsub⟩ := ih M'
    refine ⟨hlen, fun a ha => ?_, fun a ha => ?_⟩
    · have ha : a ∈ pending ++ [c] ∨ a ∈ commands := by
        simpa [or_assoc] using ha
      rcases ha with ha | ha
      · obtain ⟨b, hb, hab⟩ := hc a ha
        obtain ⟨d, hd, hbd⟩ := hcov b (List.mem_append_left _ hb)
        exact ⟨d, hd, supersedes_trans a b d hab hbd⟩
      · exact hcov a (List.mem_append_right _ ha)
    · rcases List.mem_append.mp (hsub a ha) with ha | ha
      · have := hs a ha
        simp only [List.mem_append, List.mem_cons, List.not_mem_nil, or_false] at this ⊢
        tauto
      · exact List.mem_append_right _ (List.mem_cons_of_mem _ ha)

end Merge

/-! ## The pending list -/

/-- The commands the callback has drained and not yet merged. -/
def drained : Drain V → List (ParameterCommand V)
  | .idle => []
  | .drain _ commands | .ready commands => commands

/-- The drained commands are newer than the pending ones, and of different
parameters. -/
def Newer (pending commands : List (ParameterCommand V)) : Prop :=
  (∀ d ∈ pending, ∀ c ∈ commands, d.sequence < c.sequence) ∧
    (commands.map ParameterCommand.index).Nodup

def DrainOk (pending : List (ParameterCommand V)) : Drain V → Prop
  | .idle => pending.length ≤ maxParameterChanges
  | .drain room commands =>
    pending.length + (commands.length + room) ≤ maxParameterChanges ∧ Newer pending commands
  | .ready commands =>
    pending.length + commands.length ≤ maxParameterChanges ∧ Newer pending commands

structure Carries (maxBlock : Nat) (cache : List Metadata) (s : BridgeSt V D O) : Prop where
  small : maxBlock ≤ BridgeRequests.maxFrames
  front : FrontOk cache s.front
  ledger : ∃ gone, Ledger ParameterCommand.sequence ParameterCommand.index s.front.sent gone
    s.front.queue (s.pending ++ drained s.drain) s.batches
  drain : DrainOk s.pending s.drain
  turn : s.base.client ≠ .idle → s.drain = .idle

section Carries

variable {maxBlock : Nat} {cache : List Metadata} {s s' t : BridgeSt V D O}

theorem Carries.known (C : Carries maxBlock cache s) :
    Known cache (s.pending ++ drained s.drain) := by
  obtain ⟨gone, L⟩ := C.ledger
  exact fun c hc => C.front.known c (L.mem_sent (L.inHand c hc))

theorem Carries.mergeable (C : Carries maxBlock cache s) {commands : List (ParameterCommand V)}
    (hu : s.drain = .ready commands) : Mergeable cache s.pending commands := by
  have hd := C.drain
  have hk := C.known
  rw [hu] at hd hk
  obtain ⟨hroom, hnew, hdist⟩ := hd
  exact ⟨hroom, fun d hd c hc _ => Nat.le_of_lt (hnew d hd c hc), hdist, hk⟩

theorem carries_front {l : FrontLbl V} {front : Front V} (C : Carries maxBlock cache s)
    (h : frontStep cache s.front l = some front) : Carries maxBlock cache { s with front } := by
  obtain ⟨F, M⟩ := frontStep_moves C.front h
  obtain ⟨gone, L⟩ := C.ledger
  refine ⟨C.small, F, ?_, C.drain, C.turn⟩
  rcases M.queued with ⟨hq, hs⟩ | ⟨c, hc, hq, hs⟩
  · rw [hq, hs]
    exact ⟨gone, L⟩
  · rw [hq, hs]
    exact ⟨gone, L.send hc⟩

theorem carries_drain (C : Carries maxBlock cache s) (h : drainStep s s.drain = some s') :
    Carries maxBlock cache s' := by
  have hd := C.drain
  obtain ⟨gone, L⟩ := C.ledger
  cases hu : s.drain with
  | idle =>
    rw [hu] at h hd L
    simp only [drainStep] at h
    split at h
    · rename_i hi
      cases h
      have hd : s.pending.length ≤ maxParameterChanges := hd
      refine ⟨C.small, C.front, ⟨gone, L⟩, ⟨?_, nofun, List.nodup_nil⟩, fun hne => absurd hi hne⟩
      show s.pending.length + (0 + min (parameterCapacity s.pending) batchCapacity) ≤ _
      unfold parameterCapacity
      omega
    · cases h
  | drain room commands =>
    have hturn : ∀ {P : Prop}, s.base.client ≠ .idle → P := fun hne => by
      have := C.turn hne
      rw [hu] at this
      cases this
    rw [hu] at h hd L
    obtain ⟨hroom, hnew⟩ := hd
    have hroom' : s.pending.length + commands.length ≤ maxParameterChanges := by omega
    have hready : Carries maxBlock cache { s with drain := .ready commands } :=
      ⟨C.small, C.front, ⟨gone, L⟩, ⟨hroom', hnew⟩, hturn⟩
    cases room with
    | zero =>
      cases h
      exact hready
    | succ room =>
      simp only [drainStep] at h
      split at h
      · cases h
        exact hready
      · rename_i c queue hq
        cases h
        rw [hq] at L
        have hlt : ∀ a ∈ s.pending ++ commands, a.sequence < c.sequence := fun a ha =>
          L.lt_next (L.inHand a ha)
        have hcov := @covers_coalesce V commands c fun a ha => hlt a (List.mem_append_right _ ha)
        refine ⟨C.small, ⟨C.front.admission, C.front.wait, C.front.known⟩,
          ⟨gone ++ [c], L.take ?_ ?_⟩, ⟨?_, fun d hdm e he => ?_, distinct_coalesce hnew.2⟩, hturn⟩
        · rw [List.append_assoc]
          refine Covers.append ?_ ?_
          · exact covers_of_subset supersedes_refl fun a ha => List.mem_append_left _ ha
          · exact hcov.mono fun a ha => List.mem_append_right _ ha
        · intro a ha
          rw [List.append_assoc]
          rcases List.mem_append.mp ha with ha | ha
          · exact List.mem_append_left _ ha
          · exact List.mem_append_right _ (mem_coalesce a ha)
        · show s.pending.length + ((coalesce commands c).length + room) ≤ _
          have := length_coalesce commands c
          omega
        · rcases List.mem_append.mp (mem_coalesce e he) with he | he
          · exact hnew.1 d hdm e he
          · rw [List.mem_singleton.mp he]
            exact hlt d (List.mem_append_left _ hdm)
  | ready commands =>
    rw [hu] at h
    cases h

/-- The fields that `Carries` speaks of are as they were. -/
theorem Carries.same (C : Carries maxBlock cache s) (hf : FrontOk cache s'.front)
    (hs : s'.front.sent = s.front.sent) (hq : s'.front.queue = s.front.queue)
    (hd : s'.drain = s.drain) (hp : s'.pending = s.pending) (hb : s'.batches = s.batches)
    (ht : s'.base.client ≠ .idle → s.base.client ≠ .idle) : Carries maxBlock cache s' := by
  refine ⟨C.small, hf, ?_, ?_, fun hne => ?_⟩
  · rw [hs, hq, hd, hp, hb]
    exact C.ledger
  · rw [hd, hp]
    exact C.drain
  · rw [hd]
    exact C.turn (ht hne)

theorem carries_process {frames sourceEndUs : Nat} {nextIngressUs : Option Nat}
    {base : BridgeRequests.St D O} (hu : UniqueIds cache) (C : Carries maxBlock cache s)
    (hr : frames ≠ 0 ∧ frames ≤ maxBlock)
    (h : carry cache s (.process frames sourceEndUs nextIngressUs) = some t) :
    Carries maxBlock cache { t with base } := by
  have hsmall := C.small
  simp only [carry] at h
  split at h
  · rename_i commands hd
    simp only [Option.some.injEq] at h; subst h
    rw [if_neg (by omega)]
    obtain ⟨hlen, hcov, hsub⟩ := mergeParameterCommands_spec hu (C.mergeable hd)
    obtain ⟨gone, L⟩ := C.ledger
    rw [hd] at L
    refine ⟨C.small, C.front, ⟨gone, ?_⟩, hlen, fun _ => rfl⟩
    show Ledger _ _ _ _ _ (_ ++ []) _
    rw [List.append_nil]
    exact L.regroup hcov hsub
  · cases h

theorem carries_client {base : BridgeRequests.St D O} (C : Carries maxBlock cache s)
    (hb : BridgeRequests.step maxBlock s.base .client = some base)
    (h : carry cache s .client = some t) : Carries maxBlock cache { t with base } := by
  have hne : s.base.client ≠ .idle := by
    intro hi
    simp [BridgeRequests.step, hi, BridgeRequests.clientStep] at hb
  have hidle := C.turn hne
  simp only [carry] at h
  split at h
  · simp only [Option.some.injEq] at h; subst h
    exact C.same ⟨C.front.admission, C.front.wait, C.front.known⟩ rfl rfl rfl rfl rfl fun _ => hne
  · simp only [Option.some.injEq] at h; subst h
    obtain ⟨gone, L⟩ := C.ledger
    have hd := C.drain
    rw [hidle] at hd L
    have hd : s.pending.length ≤ maxParameterChanges := hd
    have L : Ledger _ _ _ _ _ (s.pending ++ []) _ := L
    rw [List.append_nil] at L
    refine ⟨C.small, C.front, ⟨gone, ?_⟩, ?_, fun _ => hidle⟩
    · show Ledger _ _ _ _ _ ([] ++ drained s.drain) (s.batches ++ [s.pending.take _])
      rw [hidle, List.take_of_length_le hd]
      exact L.close
    · show DrainOk [] s.drain
      rw [hidle]
      exact Nat.zero_le _
  · simp only [Option.some.injEq] at h; subst h
    exact C.same C.front rfl rfl rfl rfl rfl fun _ => hne

theorem bridgeStep_bridge {l : BridgeRequests.Lbl D O}
    (h : bridgeStep maxBlock cache s (.bridge l) = some s') :
    rendered maxBlock l = true ∧ ∃ base t, BridgeRequests.step maxBlock s.base l = some base ∧
      carry cache s l = some t ∧ s' = { t with base } := by
  simp only [bridgeStep] at h
  split at h
  · rename_i hr
    simp only [Option.bind_eq_bind, Option.bind_eq_some_iff] at h
    obtain ⟨base, hb, t, ht, he⟩ := h
    cases he
    exact ⟨hr, base, t, hb, ht, rfl⟩
  · cases h

theorem carries_bridge {l : BridgeRequests.Lbl D O} (hu : UniqueIds cache)
    (C : Carries maxBlock cache s) (h : bridgeStep maxBlock cache s (.bridge l) = some s') :
    Carries maxBlock cache s' := by
  obtain ⟨hr, base, t, hb, ht, rfl⟩ := bridgeStep_bridge h
  have hsame : ∀ {t : BridgeSt V D O}, (∀ a b c, l ≠ .process a b c) → t.front = s.front →
      t.drain = s.drain → t.pending = s.pending → t.batches = s.batches →
      Carries maxBlock cache { t with base } := by
    intro t hl h₁ h₂ h₃ h₄
    refine C.same (by rw [show ({ t with base } : BridgeSt V D O).front = s.front from h₁]; exact C.front)
      (by rw [← h₁]) (by rw [← h₁]) h₂ h₃ h₄ fun hne hi => hne (step_idle hb hi hl)
  cases l with
  | process => exact carries_process hu C (of_decide_eq_true hr) ht
  | client => exact carries_client C hb ht
  | enqueue | clearQueue | panicAllNotes | cycle =>
    cases ht
    exact hsame nofun rfl rfl rfl rfl
  | worker =>
    simp only [carry] at ht
    split at ht <;> cases ht <;> exact hsame nofun rfl rfl rfl rfl
  | executed ok output =>
    simp only [carry] at ht
    split at ht
    · split at ht <;> cases ht <;> exact hsame nofun rfl rfl rfl rfl
    · cases ht

theorem carries_step {l : BridgeLbl V D O} (hu : UniqueIds cache) (C : Carries maxBlock cache s)
    (h : bridgeStep maxBlock cache s l = some s') :
    Carries maxBlock cache s' := by
  cases l with
  | front l =>
    obtain ⟨front, hf, rfl⟩ := Option.map_eq_some_iff.mp h
    exact carries_front C hf
  | drain => exact carries_drain C h
  | bridge l => exact carries_bridge hu C h

theorem carries_init (n sampleRate : Nat) (h : maxBlock ≤ BridgeRequests.maxFrames) :
    Carries maxBlock cache (bridgeInit V D O n sampleRate) :=
  ⟨h, frontOk_init cache, ⟨[], ledger_nil⟩, Nat.zero_le _, fun hne => absurd rfl hne⟩

end Carries

theorem carries_inductive (V D O : Type) (maxBlock : Nat) {cache : List Metadata}
    (hu : UniqueIds cache) : (bridgeLts V D O maxBlock cache).Inductive (Carries maxBlock cache) where
  init := by
    intro s ⟨hm, sampleRate, hs⟩
    subst hs
    exact carries_init _ _ hm
  step _ _ _ C h := carries_step hu C h

end RtpOscMidi.L5.BridgeParameters
