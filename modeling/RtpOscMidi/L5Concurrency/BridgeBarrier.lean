import RtpOscMidi.L5Concurrency.BridgeMerging

/-!
# The barrier on the bridge

A request takes its changes to the plugin and back to the host as an
acknowledgement, as long as no request overtakes the scan of the worker
(`inTime`).

* `parameter_barrier`: the barrier on every back end.
* `overtaken_unsound`: a request that overtakes the scan acknowledges changes
  that have not been applied.
-/
namespace RtpOscMidi.L5.BridgeParameters

open Core ParameterBarrier

variable {V D O : Type}

/-! ## Requests and their changes -/

/-- No request overtakes the scan of the worker. -/
def inTime (s : BridgeSt V D O) : BridgeLbl V D O → Bool
  | .bridge l => !BridgeRequests.overtakes s.base l
  | _ => true

/-- Slot `i` has the changes of request `n + 1`, and the host their highest
number. -/
def Carried (s : BridgeSt V D O) (i n : Nat) : Prop :=
  ∃ changes, s.batches[n]? = some changes ∧ s.changes[i]? = some changes ∧
    s.sequences[i]? = some (maxSequence changes)

/-- A slot that is not EMPTY carries the changes of its request; when it is
READY the request was executed. -/
def Linked (s : BridgeSt V D O) (i : Nat) (slot : BridgeRequests.Slot D O) : Prop :=
  ∃ n, slot.request.sequence = n + 1 ∧ Carried s i n ∧
    (slot.state = .ready → n < okCount s.base)

def storing : BridgeRequests.Client → Nat
  | .publish _ => 1
  | _ => 0

structure Settles (maxBlock : Nat) (s : BridgeSt V D O) : Prop where
  base : BridgeRequests.Inv maxBlock s.base
  numbered : s.base.published.map BridgeRequests.Request.sequence =
    List.range' 1 s.base.published.length
  next : s.base.nextSequence = s.base.published.length + 1 + storing s.base.client
  count : s.batches.length = s.base.published.length + (writing s.base.client).toNat
  changesLength : s.changes.length = s.base.slots.length
  sequencesLength : s.sequences.length = s.base.slots.length
  slots : ∀ (i : Nat) (slot : BridgeRequests.Slot D O), s.base.slots[i]? = some slot →
    slot.state ≠ .empty → Linked s i slot
  written : ∀ i, s.base.client = .storeSequence i ∨ s.base.client = .publish i →
    Carried s i s.base.published.length
  ready : ∀ (p : Nat) (slot : BridgeRequests.Slot D O), s.base.worker = .ready p →
    s.base.slots[p]? = some slot → slot.state ≠ .empty →
    ∀ n, slot.request.sequence = n + 1 → n < okCount s.base
  applied : s.front.applied = 0 ∨ ∃ n changes, n < okCount s.base ∧
    s.batches[n]? = some changes ∧ s.front.applied = maxSequence changes
  done : ∀ c ∈ (s.batches.take (okCount s.base)).flatten, c ∈ s.done
  lost : s.lost = [] ∨ (okCount s.base < s.base.executed.length ∧
    ∀ c ∈ s.lost, c ∈ (s.batches.drop (okCount s.base)).flatten)
  ok : OkHolds ParameterCommand.index s.front s.done s.lost

section Settles

variable {maxBlock : Nat} {cache : List Metadata} {s s' t : BridgeSt V D O}

/-- The requests that were not executed carry newer commands than those that
were acknowledged. -/
theorem Settles.applied_lt (S : Settles maxBlock s) (C : Carries maxBlock cache s)
    {g : List (ParameterCommand V)} {d : ParameterCommand V}
    (hg : g ∈ s.batches.drop (okCount s.base)) (hd : d ∈ g) : s.front.applied < d.sequence := by
  obtain ⟨gone, L⟩ := C.ledger
  have hpos : 1 ≤ d.sequence :=
    L.num_pos (L.mem_sent (L.closed d (List.mem_flatten.mpr ⟨g, List.mem_of_mem_drop hg, hd⟩)))
  rcases S.applied with h0 | ⟨n, changes, hn, hc, he⟩
  · omega
  · rw [he]
    by_cases h0 : maxSequence changes = 0
    · omega
    · obtain ⟨e, hec, hee⟩ := exists_highest h0
      have hee : e.sequence = maxSequence changes := hee
      obtain ⟨xs, ys, hxy⟩ := List.append_of_mem hg
      have hwhole : s.batches = (s.batches.take (okCount s.base) ++ xs) ++ g :: ys := by
        rw [List.append_assoc, ← hxy, List.take_append_drop]
      have hmem : changes ∈ s.batches.take (okCount s.base) := by
        refine List.mem_iff_getElem?.mpr ⟨n, ?_⟩
        rw [List.getElem?_take_of_lt hn]
        exact hc
      rw [← hee]
      exact L.sorted _ g ys hwhole e
        (List.mem_flatten.mpr ⟨changes, List.mem_append_left _ hmem, hec⟩) d hd

/-- What is acknowledged is applied, what is lost is newer. -/
theorem Settles.answer (S : Settles maxBlock s) (C : Carries maxBlock cache s) :
    Answer ParameterCommand.index s.front s.done s.lost := by
  refine ⟨fun c hc hle => ?_, fun d hd => ?_⟩
  · obtain ⟨gone, L⟩ := C.ledger
    rcases S.applied with h0 | ⟨n, changes, hn, hg, he⟩
    · have := L.num_pos hc
      omega
    · obtain ⟨hlt, hget⟩ := List.getElem?_eq_some_iff.mp hg
      have hsplit : s.batches = s.batches.take n ++ changes :: s.batches.drop (n + 1) := by
        rw [← hget]
        simp
      rw [he] at hle
      obtain ⟨d, hd, hsup⟩ := L.covered hsplit hc hle
      refine ⟨d, S.done d ?_, hsup⟩
      have hd : d ∈ (s.batches.take (n + 1)).flatten := by
        rw [List.take_add_one, hg]
        simpa using hd
      obtain ⟨g, hgt, hdg⟩ := List.mem_flatten.mp hd
      exact List.mem_flatten.mpr ⟨g, List.take_subset_take_left _ (by omega) hgt, hdg⟩
  · rcases S.lost with hl | ⟨_, hl⟩
    · rw [hl] at hd
      cases hd
    · obtain ⟨g, hg, hdg⟩ := List.mem_flatten.mp (hl d hd)
      exact S.applied_lt C hg hdg

theorem Settles.okCount_le (S : Settles maxBlock s) : okCount s.base ≤ s.batches.length := by
  obtain ⟨pend, Q⟩ := S.base.sched
  have hs := congrArg List.length Q.split
  rw [List.length_append] at hs
  have hc := S.count
  have : okCount s.base ≤ s.base.executed.length := by
    unfold okCount
    split <;> omega
  omega

theorem storing_of_not_writing {u : BridgeRequests.Client} (h : writing u = false) :
    storing u = 0 := by
  cases u <;> first | rfl | cases h

theorem Calm.counts {a b : BridgeRequests.St D O} (c : Calm a b) :
    storing b.client = storing a.client ∧ writing b.client = writing a.client := by
  rcases c.client with h | ⟨h, h'⟩
  · rw [h]
    exact ⟨rfl, rfl⟩
  · rw [storing_of_not_writing h, storing_of_not_writing h', h, h']
    exact ⟨rfl, rfl⟩

theorem Carried.same {i n : Nat} (h : Carried s i n) (hb : s'.batches = s.batches)
    (hc : s'.changes = s.changes) (hq : s'.sequences = s.sequences) : Carried s' i n := by
  unfold Carried
  rw [hb, hc, hq]
  exact h

/-- A step that executes, writes and publishes nothing. -/
theorem Settles.calm {l : BridgeRequests.Lbl D O} (S : Settles maxBlock s)
    (hI : BridgeRequests.Inv maxBlock s'.base) (c : Calm s.base s'.base)
    (hsl : ∀ (i : Nat) (slot : BridgeRequests.Slot D O), s'.base.slots[i]? = some slot →
      slot.state ≠ .empty → SlotFrom s.base l i slot)
    (hp : l = .client → ∀ i, s.base.client ≠ .publish i)
    (hb : s'.batches = s.batches) (hc : s'.changes = s.changes) (hq : s'.sequences = s.sequences)
    (hd : s'.done = s.done) (hl : s'.lost = s.lost)
    (ha : s'.front.applied = s.front.applied ∨ ∃ n changes, n < okCount s.base ∧
      s.batches[n]? = some changes ∧ s'.front.applied = maxSequence changes)
    (hok : OkHolds ParameterCommand.index s'.front s'.done s'.lost) : Settles maxBlock s' := by
  obtain ⟨hst, hw⟩ := c.counts
  have hfrom : ∀ (i : Nat) (slot' : BridgeRequests.Slot D O), s'.base.slots[i]? = some slot' →
      slot'.state ≠ .empty → ∃ slot, s.base.slots[i]? = some slot ∧
        slot'.request = slot.request ∧ slot.state ≠ .empty ∧
          (slot'.state = .ready → slot.state = .ready ∨ s.base.worker = .ready i) := by
    intro i slot' hs hne
    obtain ⟨slot, h₁, h₂, h₃⟩ := hsl i slot' hs hne
    rcases h₃ with ⟨h₃, h₄⟩ | ⟨h₃, h₄, _⟩
    · exact ⟨slot, h₁, h₂, h₃, h₄⟩
    · exact absurd h₄ (hp h₃ i)
  refine
    { base := hI
      numbered := by rw [c.published]; exact S.numbered
      next := by rw [c.published, c.nextSequence, hst]; exact S.next
      count := by rw [hb, c.published, hw]; exact S.count
      changesLength := by rw [hc, c.length]; exact S.changesLength
      sequencesLength := by rw [hq, c.length]; exact S.sequencesLength
      slots := ?_
      written := ?_
      ready := ?_
      applied := ?_
      done := by rw [hb, c.okCount, hd]; exact S.done
      lost := by rw [hb, c.okCount, c.executed, hl]; exact S.lost
      ok := hok }
  · intro i slot' hs hne
    obtain ⟨slot, h₁, h₂, h₃, h₄⟩ := hfrom i slot' hs hne
    obtain ⟨n, hn, hcar, hrd⟩ := S.slots i slot h₁ h₃
    refine ⟨n, by rw [h₂]; exact hn, hcar.same hb hc hq, fun hr => ?_⟩
    rw [c.okCount]
    rcases h₄ hr with hr | hr
    · exact hrd hr
    · exact S.ready i slot hr h₁ h₃ n hn
  · intro i hi
    rw [c.published]
    rcases c.client with hcl | ⟨_, hnw⟩
    · rw [hcl] at hi
      exact (S.written i hi).same hb hc hq
    · rcases hi with hi | hi <;> rw [hi] at hnw <;> cases hnw
  · intro p slot' hw' hs hne n hn
    obtain ⟨slot, h₁, h₂, h₃, _⟩ := hfrom p slot' hs hne
    rw [c.okCount]
    exact S.ready p slot (c.ready p hw') h₁ h₃ n (by rw [← h₂]; exact hn)
  · rw [hb, c.okCount]
    rcases ha with ha | ⟨n, changes, hn, hg, ha⟩
    · rw [ha]
      exact S.applied
    · exact .inr ⟨n, changes, hn, hg, ha⟩

/-- The pending list goes into slot `i`. -/
theorem settles_fill {base : BridgeRequests.St D O} {j : BridgeRequests.Job} {i : Nat}
    (S : Settles maxBlock s) (C : Carries maxBlock cache s)
    (hI : BridgeRequests.Inv maxBlock base) (hu : s.base.client = .fill j i)
    (hb : BridgeRequests.step maxBlock s.base .client = some base) :
    Settles maxBlock { s with
      base, changes := s.changes.set i (s.pending.take maxParameterChanges)
      sequences := s.sequences.set i (maxSequence s.pending), pending := []
      batches := s.batches ++ [s.pending.take maxParameterChanges] } := by
  have hd := C.drain
  rw [C.turn (by simp [hu])] at hd
  rw [List.take_of_length_le hd]
  have hcl := S.base.client
  rw [hu] at hcl
  obtain ⟨_, slot, hs, he⟩ := hcl
  have hlt := (List.getElem?_eq_some_iff.mp hs).1
  have hsl := fun k slot' => @step_slots D O maxBlock s.base base .client k slot' S.base hb
  simp only [BridgeRequests.step, hu, BridgeRequests.clientStep, Option.some.injEq] at hb
  have hcount : s.batches.length = s.base.published.length := by
    have h := S.count
    rw [hu] at h
    exact h
  have hlen : base.slots.length = s.base.slots.length := by
    rw [← hb]
    exact List.length_modify _ _ _
  have hoc : okCount base = okCount s.base := by
    rw [← hb]
    rfl
  have hocle := S.okCount_le
  have hcar : ∀ k n, k ≠ i → Carried s k n → Carried { s with
      base, changes := s.changes.set i s.pending
      sequences := s.sequences.set i (maxSequence s.pending), pending := []
      batches := s.batches ++ [s.pending] } k n := by
    intro k n hk h
    obtain ⟨changes, h₁, h₂, h₃⟩ := h
    have hn := (List.getElem?_eq_some_iff.mp h₁).1
    exact ⟨changes, by rw [List.getElem?_append_left hn]; exact h₁,
      by rw [List.getElem?_set_ne (Ne.symm hk)]; exact h₂,
      by rw [List.getElem?_set_ne (Ne.symm hk)]; exact h₃⟩
  refine
    { base := hI
      numbered := by rw [← hb]; exact S.numbered
      next := ?_
      count := ?_
      changesLength := ?_
      sequencesLength := ?_
      slots := ?_
      written := ?_
      ready := ?_
      applied := ?_
      done := ?_
      lost := ?_
      ok := S.ok }
  · have hn := S.next
    rw [hu] at hn
    rw [← hb]
    exact hn
  · rw [← hb]
    show (s.batches ++ [s.pending]).length = s.base.published.length + 1
    rw [List.length_append, hcount]
    rfl
  · rw [List.length_set, S.changesLength, hlen]
  · rw [List.length_set, S.sequencesLength, hlen]
  · intro k slot' hs' hne
    obtain ⟨slot₂, h₁, h₂, h₃⟩ := hsl k slot' hs' hne
    rcases h₃ with ⟨h₃, h₄⟩ | ⟨_, h₄, _⟩
    · obtain ⟨n, hn, hc, hrd⟩ := S.slots k slot₂ h₁ h₃
      have hk : k ≠ i := by
        intro hk
        subst hk
        rw [hs] at h₁
        cases h₁
        exact h₃ he
      refine ⟨n, by rw [h₂]; exact hn, hcar k n hk hc, fun hr => ?_⟩
      rw [hoc]
      rcases h₄ hr with hr | hr
      · exact hrd hr
      · exact S.ready k slot₂ hr h₁ h₃ n hn
    · rw [hu] at h₄
      cases h₄
  · intro k hk
    have hki : k = i := by
      rw [← hb] at hk
      rcases hk with hk | hk <;> cases hk
      rfl
    subst hki
    refine ⟨s.pending, ?_, ?_, ?_⟩
    · rw [← hb]
      show (s.batches ++ [s.pending])[s.base.published.length]? = _
      rw [← hcount, List.getElem?_append_right (Nat.le_refl _), Nat.sub_self]
      rfl
    · exact List.getElem?_set_self (by rw [S.changesLength]; exact hlt)
    · exact List.getElem?_set_self (by rw [S.sequencesLength]; exact hlt)
  · intro p slot' hw hs' hne n hn
    rw [hoc]
    obtain ⟨slot₂, h₁, h₂, h₃⟩ := hsl p slot' hs' hne
    have hw' : s.base.worker = .ready p := by
      rw [← hb] at hw
      exact hw
    rcases h₃ with ⟨h₃, _⟩ | ⟨_, h₄, _⟩
    · exact S.ready p slot₂ hw' h₁ h₃ n (by rw [← h₂]; exact hn)
    · rw [hu] at h₄
      cases h₄
  · rcases S.applied with h0 | ⟨n, changes, hn, hg, ha⟩
    · exact .inl h0
    · refine .inr ⟨n, changes, by rw [hoc]; exact hn, ?_, ha⟩
      rw [List.getElem?_append_left (List.getElem?_eq_some_iff.mp hg).1]
      exact hg
  · rw [hoc, List.take_append_of_le_length hocle]
    exact S.done
  · rw [hoc]
    refine S.lost.imp id fun h => ⟨by rw [← hb]; exact h.1, fun d hd => ?_⟩
    rw [List.drop_append_of_le_length hocle, List.flatten_append]
    exact List.mem_append_left _ (h.2 d hd)

theorem settles_storeSequence {base : BridgeRequests.St D O} {i : Nat} (S : Settles maxBlock s)
    (hI : BridgeRequests.Inv maxBlock base) (hu : s.base.client = .storeSequence i)
    (hb : BridgeRequests.step maxBlock s.base .client = some base) :
    Settles maxBlock { s with base } := by
  have hsl := fun k slot' => @step_slots D O maxBlock s.base base .client k slot' S.base hb
  simp only [BridgeRequests.step, hu, BridgeRequests.clientStep, Option.some.injEq] at hb
  have hlen : base.slots.length = s.base.slots.length := by
    rw [← hb]
    exact List.length_modify _ _ _
  have hoc : okCount base = okCount s.base := by
    rw [← hb]
    rfl
  have hfrom : ∀ (k : Nat) (slot' : BridgeRequests.Slot D O), base.slots[k]? = some slot' →
      slot'.state ≠ .empty → ∃ slot, s.base.slots[k]? = some slot ∧
        slot'.request = slot.request ∧ slot.state ≠ .empty ∧
          (slot'.state = .ready → slot.state = .ready ∨ s.base.worker = .ready k) := by
    intro k slot' hs' hne
    obtain ⟨slot, h₁, h₂, h₃⟩ := hsl k slot' hs' hne
    rcases h₃ with ⟨h₃, h₄⟩ | ⟨_, h₄, _⟩
    · exact ⟨slot, h₁, h₂, h₃, h₄⟩
    · rw [hu] at h₄
      cases h₄
  exact
    { base := hI
      numbered := by rw [← hb]; exact S.numbered
      next := by
        have hn := S.next
        rw [hu] at hn
        rw [← hb]
        exact congrArg (· + 1) hn
      count := by
        have h := S.count
        rw [hu] at h
        rw [← hb]
        exact h
      changesLength := by rw [hlen]; exact S.changesLength
      sequencesLength := by rw [hlen]; exact S.sequencesLength
      slots := by
        intro k slot' hs' hne
        obtain ⟨slot, h₁, h₂, h₃, h₄⟩ := hfrom k slot' hs' hne
        obtain ⟨n, hn, hc, hrd⟩ := S.slots k slot h₁ h₃
        refine ⟨n, by rw [h₂]; exact hn, hc, fun hr => ?_⟩
        rw [hoc]
        rcases h₄ hr with hr | hr
        · exact hrd hr
        · exact S.ready k slot hr h₁ h₃ n hn
      written := by
        intro k hk
        have hki : k = i := by
          rw [← hb] at hk
          rcases hk with hk | hk <;> cases hk
          rfl
        rw [hki, ← hb]
        exact S.written i (.inl hu)
      ready := by
        intro p slot' hw hs' hne n hn
        obtain ⟨slot, h₁, h₂, h₃, _⟩ := hfrom p slot' hs' hne
        rw [hoc]
        refine S.ready p slot ?_ h₁ h₃ n (by rw [← h₂]; exact hn)
        rw [← hb] at hw
        exact hw
      applied := by rw [hoc]; exact S.applied
      done := by rw [hoc]; exact S.done
      lost := by
        rw [hoc]
        rw [← hb]
        exact S.lost
      ok := S.ok }

theorem settles_publish {base : BridgeRequests.St D O} {i : Nat} (S : Settles maxBlock s)
    (hI : BridgeRequests.Inv maxBlock base) (hu : s.base.client = .publish i)
    (hb : BridgeRequests.step maxBlock s.base .client = some base) :
    Settles maxBlock { s with base } := by
  have hcl := S.base.client
  rw [hu] at hcl
  obtain ⟨slot, hs, he, _, hseq, _⟩ := hcl
  have hsl := fun k slot' => @step_slots D O maxBlock s.base base .client k slot' S.base hb
  simp only [BridgeRequests.step, hu, BridgeRequests.clientStep, hs, Option.map_some,
    Option.some.injEq] at hb
  have hnum : slot.request.sequence = s.base.published.length + 1 := by
    have hn := S.next
    rw [hu] at hn
    have hn : s.base.nextSequence = s.base.published.length + 1 + 1 := hn
    omega
  have hlen : base.slots.length = s.base.slots.length := by
    rw [← hb]
    exact List.length_modify _ _ _
  have hoc : okCount base = okCount s.base := by
    rw [← hb]
    rfl
  exact
    { base := hI
      numbered := by
        rw [← hb]
        show (s.base.published ++ [slot.request]).map _ =
          List.range' 1 (s.base.published ++ [slot.request]).length
        rw [List.map_append, S.numbered, List.length_append, List.length_singleton,
          List.range'_concat]
        simp [hnum, Nat.add_comm]
      next := by
        have hn := S.next
        rw [hu] at hn
        rw [← hb]
        show s.base.nextSequence = (s.base.published ++ [slot.request]).length + 1 + 0
        rw [List.length_append]
        exact hn
      count := by
        have h := S.count
        rw [hu] at h
        rw [← hb]
        show s.batches.length = (s.base.published ++ [slot.request]).length + 0
        rw [List.length_append]
        exact h
      changesLength := by rw [hlen]; exact S.changesLength
      sequencesLength := by rw [hlen]; exact S.sequencesLength
      slots := by
        intro k slot' hs' hne
        obtain ⟨slot₂, h₁, h₂, h₃⟩ := hsl k slot' hs' hne
        rcases h₃ with ⟨h₃, h₄⟩ | ⟨_, h₄, h₅⟩
        · obtain ⟨n, hn, hc, hrd⟩ := S.slots k slot₂ h₁ h₃
          refine ⟨n, by rw [h₂]; exact hn, hc, fun hr => ?_⟩
          rw [hoc]
          rcases h₄ hr with hr | hr
          · exact hrd hr
          · exact S.ready k slot₂ hr h₁ h₃ n hn
        · rw [hu] at h₄
          cases h₄
          rw [hs] at h₁
          cases h₁
          refine ⟨s.base.published.length, by rw [h₂]; exact hnum, S.written i (.inr hu), ?_⟩
          intro hr
          rw [h₅] at hr
          cases hr
      written := by
        intro k hk
        rw [← hb] at hk
        rcases hk with hk | hk <;> cases hk
      ready := by
        intro p slot' hw hs' hne n hn
        have hw : s.base.worker = .ready p := by
          rw [← hb] at hw
          exact hw
        rw [hoc]
        obtain ⟨slot₂, h₁, h₂, h₃⟩ := hsl p slot' hs' hne
        rcases h₃ with ⟨h₃, _⟩ | ⟨_, h₄, _⟩
        · exact S.ready p slot₂ hw h₁ h₃ n (by rw [← h₂]; exact hn)
        · -- the worker's slot is not the EMPTY one of the host
          rw [hu] at h₄
          cases h₄
          obtain ⟨pend, Q⟩ := S.base.sched
          have hwork := Q.worker
          rw [hw] at hwork
          obtain ⟨r, hr⟩ := hwork
          obtain ⟨slot₃, h₆, h₇, _⟩ := BridgeRequests.req_eq_some.mp hr
          rw [hs] at h₆
          cases h₆
          rw [he] at h₇
          cases h₇
      applied := by rw [hoc]; exact S.applied
      done := by rw [hoc]; exact S.done
      lost := by
        rw [hoc]
        rw [← hb]
        exact S.lost
      ok := S.ok }

/-- The request the worker runs is the oldest that was not executed. -/
theorem Settles.runs {p : Nat} (S : Settles maxBlock s) (hu : s.base.worker = .run p) :
    ∃ slot, s.base.slots[p]? = some slot ∧ slot.state = .requested ∧
      slot.request.sequence = s.base.executed.length + 1 := by
  obtain ⟨pend, Q⟩ := S.base.sched
  have hw := Q.worker
  rw [hu] at hw
  obtain ⟨r, rest, hr, hpend⟩ := Q.head (by rw [hu]; rfl) hw
  obtain ⟨slot, hs, hreq, rfl⟩ := BridgeRequests.req_eq_some.mp hr
  refine ⟨slot, hs, hreq, ?_⟩
  have hget : s.base.published[s.base.executed.length]? = some slot.request := by
    rw [Q.split, hpend, List.getElem?_append_right (Nat.le_refl _), Nat.sub_self]
    rfl
  have hm := congrArg (·[s.base.executed.length]?) S.numbered
  simp only [List.getElem?_map, hget, Option.map_some] at hm
  rw [List.getElem?_range' (List.getElem?_eq_some_iff.mp hget).1, Option.some.injEq] at hm
  omega

/-- What an executed request changes, whether it succeeds or not. -/
theorem settles_ran {base : BridgeRequests.St D O} {ok : Bool} {output : O} {p : Nat}
    {slot : BridgeRequests.Slot D O} {done lost : List (ParameterCommand V)}
    (S : Settles maxBlock s) (hI : BridgeRequests.Inv maxBlock base)
    (hu : s.base.worker = .run p) (hs : s.base.slots[p]? = some slot)
    (hb : BridgeRequests.step maxBlock s.base (.executed ok output) = some base)
    (hle : okCount s.base ≤ okCount base)
    (hready : ∀ q, base.worker = .ready q → q = p ∧ slot.request.sequence ≤ okCount base)
    (hdone : ∀ c ∈ (s.batches.take (okCount base)).flatten, c ∈ done)
    (hlost : lost = [] ∨ (okCount base < base.executed.length ∧
      ∀ c ∈ lost, c ∈ (s.batches.drop (okCount base)).flatten))
    (hok : OkHolds ParameterCommand.index s.front done lost) :
    Settles maxBlock { s with base, done, lost } := by
  have hsl := fun k slot' => @step_slots D O maxBlock s.base base _ k slot' S.base hb
  have hfrom : ∀ (k : Nat) (slot' : BridgeRequests.Slot D O), base.slots[k]? = some slot' →
      slot'.state ≠ .empty → ∃ slot, s.base.slots[k]? = some slot ∧
        slot'.request = slot.request ∧ slot.state ≠ .empty ∧
          (slot'.state = .ready → slot.state = .ready) := by
    intro k slot' hs' hne
    obtain ⟨slot, h₁, h₂, h₃⟩ := hsl k slot' hs' hne
    rcases h₃ with ⟨h₃, h₄⟩ | ⟨h₄, _⟩
    · refine ⟨slot, h₁, h₂, h₃, fun hr => (h₄ hr).resolve_right ?_⟩
      rw [hu]
      exact fun h => by cases h
    · cases h₄
  have hsame : base.published = s.base.published ∧ base.nextSequence = s.base.nextSequence ∧
      base.client = s.base.client ∧ base.slots.length = s.base.slots.length := by
    simp only [BridgeRequests.step, hu, hs, Option.map_some, Option.some.injEq] at hb
    rw [← hb]
    cases ok with
    | true => exact ⟨rfl, rfl, rfl, List.length_modify _ _ _⟩
    | false => exact ⟨rfl, rfl, rfl, rfl⟩
  obtain ⟨hpub, hnext, hcl, hlen⟩ := hsame
  exact
    { base := hI
      numbered := by rw [hpub]; exact S.numbered
      next := by rw [hpub, hnext, hcl]; exact S.next
      count := by rw [hpub, hcl]; exact S.count
      changesLength := by rw [hlen]; exact S.changesLength
      sequencesLength := by rw [hlen]; exact S.sequencesLength
      slots := by
        intro k slot' hs' hne
        obtain ⟨slot₂, h₁, h₂, h₃, h₄⟩ := hfrom k slot' hs' hne
        obtain ⟨n, hn, hc, hrd⟩ := S.slots k slot₂ h₁ h₃
        exact ⟨n, by rw [h₂]; exact hn, hc,
          fun hr => Nat.lt_of_lt_of_le (hrd (h₄ hr)) hle⟩
      written := by rw [hpub, hcl]; exact S.written
      ready := by
        intro q slot' hw hs' hne n hn
        obtain ⟨rfl, hq⟩ := hready q hw
        obtain ⟨slot₂, h₁, h₂, _⟩ := hfrom q slot' hs' hne
        rw [hs] at h₁
        cases h₁
        rw [h₂] at hn
        show n < okCount base
        omega
      applied := by
        refine S.applied.imp id ?_
        intro h
        obtain ⟨n, changes, hn, hg, ha⟩ := h
        exact ⟨n, changes, Nat.lt_of_lt_of_le hn hle, hg, ha⟩
      done := hdone
      lost := hlost
      ok := hok }

theorem settles_executed {base : BridgeRequests.St D O} {ok : Bool} {output : O}
    (S : Settles maxBlock s) (C : Carries maxBlock cache s)
    (hI : BridgeRequests.Inv maxBlock base)
    (hb : BridgeRequests.step maxBlock s.base (.executed ok output) = some base)
    (ht : carry cache s (.executed ok output) = some t) : Settles maxBlock { t with base } := by
  simp only [carry] at ht
  split at ht
  · rename_i p hu
    obtain ⟨slot, hs, hreq, hseq⟩ := S.runs hu
    obtain ⟨n, hn, ⟨changes, h₁, h₂, _⟩, _⟩ := S.slots p slot hs (by simp [hreq])
    have hne : n = s.base.executed.length := by omega
    have hoc : okCount s.base = s.base.executed.length := by
      unfold okCount
      rw [hu]
    have hnolost : s.lost = [] := S.lost.resolve_right fun h => by omega
    have hb' := hb
    simp only [BridgeRequests.step, hu, hs, Option.map_some, Option.some.injEq] at hb'
    rw [h₂, Option.getD_some] at ht
    obtain ⟨gone, L⟩ := C.ledger
    have hmem : changes ∈ s.batches := List.mem_of_getElem? h₁
    cases ok with
    | true =>
      have hall : changes.filter (applies cache) = changes := by
        refine List.filter_eq_self.mpr fun c hc => beq_iff_eq.mpr ?_
        exact C.front.known c (L.mem_sent (L.closed c (List.mem_flatten.mpr ⟨changes, hmem, hc⟩)))
      have hnone : changes.filter (fun c => !applies cache c) = [] := by
        refine List.filter_eq_nil_iff.mpr fun c hc => ?_
        have := List.filter_eq_self.mp hall c hc
        simp [this]
      rw [hall, hnone, hnolost] at ht
      simp only [if_true, List.append_nil, Option.some.injEq] at ht
      subst ht
      have hoc' : okCount base = s.base.executed.length + 1 := by
        rw [← hb']
        simp [okCount]
      show Settles maxBlock { s with base, done := s.done ++ changes, lost := [] }
      have hle : okCount s.base ≤ okCount base := by omega
      refine settles_ran S hI hu hs hb hle ?_ ?_ (.inl rfl) ?_
      · intro q hq
        rw [← hb'] at hq
        cases hq
        exact ⟨rfl, by omega⟩
      · intro c hc
        rw [hoc', ← hne, List.take_add_one, h₁] at hc
        rw [List.flatten_append, List.mem_append] at hc
        rcases hc with hc | hc
        · refine List.mem_append_left _ (S.done c ?_)
          rw [hoc, ← hne]
          exact hc
        · exact List.mem_append_right _ (by simpa using hc)
      · exact S.ok.backend rfl rfl (Nat.le_refl _) (fun _ => List.mem_append_left _) (by simp)
    | false =>
      rw [hnolost] at ht
      simp only [Bool.false_eq_true, if_false, List.nil_append, Option.some.injEq] at ht
      subst ht
      have hoc' : okCount base = s.base.executed.length := by
        rw [← hb']
        simp [okCount]
      have hdrop : changes ∈ s.batches.drop (okCount s.base) := by
        refine List.mem_iff_getElem?.mpr ⟨0, ?_⟩
        rw [List.getElem?_drop, hoc, ← hne]
        exact h₁
      show Settles maxBlock { s with base, done := s.done, lost := changes }
      have hle : okCount s.base ≤ okCount base := by omega
      refine settles_ran S hI hu hs hb hle ?_ ?_ (.inr ⟨?_, fun c hc => ?_⟩) ?_
      · intro q hq
        rw [← hb'] at hq
        cases hq
      · rw [hoc', ← hoc]
        exact S.done
      · rw [hoc', ← hb']
        simp
      · rw [hoc', ← hoc]
        exact List.mem_flatten.mpr ⟨changes, hdrop, hc⟩
      · exact S.ok.backend rfl rfl (Nat.le_refl _) (fun _ h => h)
          fun c hc => .inr (S.applied_lt C hdrop hc)
  · cases ht

theorem settles_front {l : FrontLbl V} {front : Front V} (S : Settles maxBlock s)
    (C : Carries maxBlock cache s) (h : frontStep cache s.front l = some front) :
    Settles maxBlock { s with front } := by
  obtain ⟨F, M⟩ := frontStep_moves C.front h
  exact
    { base := S.base
      numbered := S.numbered
      next := S.next
      count := S.count
      changesLength := S.changesLength
      sequencesLength := S.sequencesLength
      slots := S.slots
      written := S.written
      ready := S.ready
      applied := by rw [M.applied]; exact S.applied
      done := S.done
      lost := S.lost
      ok := S.ok.front C.front M fun _ _ _ _ => S.answer C }

theorem settles_drain (S : Settles maxBlock s) (h : drainStep s s.drain = some s') :
    Settles maxBlock s' := by
  cases hu : s.drain with
  | idle =>
    rw [hu] at h
    simp only [drainStep] at h
    split at h <;> cases h
    exact { S with slots := S.slots, written := S.written }
  | drain room commands =>
    rw [hu] at h
    cases room with
    | zero =>
      cases h
      exact { S with slots := S.slots, written := S.written }
    | succ room =>
      simp only [drainStep] at h
      split at h <;> cases h
      · exact { S with slots := S.slots, written := S.written }
      · exact { S with slots := S.slots, written := S.written, ok := S.ok }
  | ready commands =>
    rw [hu] at h
    cases h

/-- The host finds slot `i` READY and raises the applied sequence. -/
theorem settles_acknowledge {base : BridgeRequests.St D O} {j : BridgeRequests.Job} {i : Nat}
    (S : Settles maxBlock s) (hI : BridgeRequests.Inv maxBlock base)
    (hu : s.base.client = .readSequence j i)
    (hb : BridgeRequests.step maxBlock s.base .client = some base) :
    Settles maxBlock { s with base, front := { s.front with
      applied := max s.front.applied ((s.sequences[i]?).getD 0) } } := by
  have hcl := S.base.client
  rw [hu] at hcl
  obtain ⟨_, slot, hs, hr⟩ := hcl
  obtain ⟨n, _, ⟨changes, h₁, _, h₃⟩, hrd⟩ := S.slots i slot hs (by rw [hr]; nofun)
  have hc : Calm s.base base := by
    refine step_calm hb (fun _ => ?_) nofun
    rw [hu]
    exact ⟨nofun, rfl⟩
  rw [h₃, Option.getD_some]
  refine S.calm hI hc (fun i slot' => step_slots S.base hb) (fun _ k => by rw [hu]; nofun)
    rfl rfl rfl rfl rfl ?_ ?_
  · rcases Nat.le_total s.front.applied (maxSequence changes) with hle | hle
    · exact .inr ⟨n, changes, hrd hr, h₁, Nat.max_eq_right hle⟩
    · exact .inl (Nat.max_eq_left hle)
  · exact S.ok.backend rfl rfl (Nat.le_max_left _ _) (fun _ h => h) fun _ h => .inl h

theorem settles_bridge {l : BridgeRequests.Lbl D O} (S : Settles maxBlock s)
    (C : Carries maxBlock cache s) (hin : inTime s (.bridge l) = true)
    (h : bridgeStep maxBlock cache s (.bridge l) = some s') : Settles maxBlock s' := by
  obtain ⟨hr, base, t, hb, ht, rfl⟩ := bridgeStep_bridge h
  have hI : BridgeRequests.Inv maxBlock base := by
    refine BridgeRequests.inv_step S.base ⟨?_, by simpa [inTime] using hin⟩ hb
    cases l <;> first | rfl | exact decide_eq_true (of_decide_eq_true hr).2
  have hcalm : ∀ {t : BridgeSt V D O}, Calm s.base base →
      (l = .client → ∀ i, s.base.client ≠ .publish i) → t.front = s.front →
      t.batches = s.batches → t.changes = s.changes → t.sequences = s.sequences →
      t.done = s.done → t.lost = s.lost → Settles maxBlock { t with base } := by
    intro t c hp h₀ h₁ h₂ h₃ h₄ h₅
    refine S.calm hI c (fun i slot' => step_slots S.base hb) hp h₁ h₂ h₃
      h₄ h₅ (.inl (congrArg Front.applied h₀)) ?_
    show OkHolds ParameterCommand.index t.front t.done t.lost
    rw [h₀, h₄, h₅]
    exact S.ok
  cases l with
  | enqueue | clearQueue | panicAllNotes | cycle =>
    cases ht
    have hc := step_calm hb (fun hl => by cases hl) fun _ _ hl => by cases hl
    exact hcalm hc (fun hl => by cases hl) rfl rfl rfl rfl rfl rfl
  | process =>
    have hc := step_calm hb (fun hl => by cases hl) fun _ _ hl => by cases hl
    simp only [carry] at ht
    split at ht
    · cases ht
      exact hcalm hc (fun hl => by cases hl) rfl rfl rfl rfl rfl rfl
    · cases ht
  | worker =>
    have hc := step_calm hb (fun hl => by cases hl) fun _ _ hl => by cases hl
    simp only [carry] at ht
    split at ht
    · rename_i p hu
      obtain ⟨pend, Q⟩ := S.base.sched
      have hw := Q.worker
      rw [hu] at hw
      exact hw.elim
    · cases ht
      exact hcalm hc (fun hl => by cases hl) rfl rfl rfl rfl rfl rfl
  | executed ok output => exact settles_executed S C hI hb ht
  | client =>
    simp only [carry] at ht
    split at ht
    · rename_i j i hu
      cases ht
      exact settles_acknowledge S hI hu hb
    · rename_i j i hu
      cases ht
      exact settles_fill S C hI hu hb
    · rename_i hnr hnf
      cases ht
      by_cases hw : writing s.base.client = true
      · cases hu : s.base.client with
        | storeSequence i => exact settles_storeSequence S hI hu hb
        | publish i => exact settles_publish S hI hu hb
        | _ =>
          rw [hu] at hw
          cases hw
      · have hw : writing s.base.client = false := by simpa using hw
        have hc := step_calm hb (fun _ => ⟨fun j i hu => hnf j i hu, hw⟩) fun _ _ hl => by cases hl
        refine hcalm hc (fun _ i hu => ?_) rfl rfl rfl rfl rfl rfl
        rw [hu] at hw
        cases hw

theorem settles_init (n sampleRate : Nat) : Settles maxBlock (bridgeInit V D O n sampleRate) where
  base := BridgeRequests.inv_init D O maxBlock n sampleRate
  numbered := rfl
  next := rfl
  count := rfl
  changesLength := by simp [bridgeInit, BridgeRequests.init]
  sequencesLength := by simp [bridgeInit, BridgeRequests.init]
  slots := by
    intro i slot hs hne
    rw [List.eq_of_mem_replicate (List.mem_of_getElem? hs)] at hne
    exact absurd rfl hne
  written := nofun
  ready := nofun
  applied := .inl rfl
  done := nofun
  lost := .inl rfl
  ok := ⟨nofun, nofun⟩

end Settles

/-! ## Headline property -/

theorem settles_inductive (V D O : Type) (maxBlock : Nat) (cache : List Metadata) :
    ((bridgeLts V D O maxBlock cache).restrict fun s l => inTime s l = true).InductiveUnder
      (Carries maxBlock cache) (Settles maxBlock) where
  init := by
    intro s ⟨_, sampleRate, hs⟩
    subst hs
    exact settles_init _ _
  step s l s' C S h := by
    obtain ⟨hin, h⟩ := h
    cases l with
    | front l =>
      obtain ⟨front, hf, rfl⟩ := Option.map_eq_some_iff.mp h
      exact settles_front S C hf
    | drain => exact settles_drain S h
    | bridge l => exact settles_bridge S C hin h

/-- For a plugin whose parameters have ids of their own: on every back end the
barrier is sound, in the runs where no failure is reported between its two
loads, no VST2 block renders after a panic of the setter, and no request
overtakes the scan of the bridge's worker. In every run of the bridge the
pending list stays within its bound, and merging the drained commands keeps
the last of each parameter. -/
theorem parameter_barrier (V D O : Type) (cache : List Metadata) (hu : UniqueIds cache) :
    (∀ b s, ((lts V b cache).restrict fun s l => reported s l = true).Reachable s →
      Sound ParameterCommand.index s.front s.done s.lost) ∧
    (∀ maxBlock s, ((bridgeLts V D O maxBlock cache).restrict
        fun s l => inTime s l = true).Reachable s →
      Sound ParameterCommand.index s.front s.done s.lost) ∧
    ∀ maxBlock s, (bridgeLts V D O maxBlock cache).Reachable s →
      s.pending.length ≤ maxParameterChanges ∧ ∀ commands, s.drain = .ready commands →
        (mergeParameterCommands s.pending commands).length ≤ maxParameterChanges ∧
        Covers (Supersedes ParameterCommand.sequence ParameterCommand.index)
          (s.pending ++ commands) (mergeParameterCommands s.pending commands) := by
  refine ⟨fun b s h => local_sound V b cache s h, fun maxBlock s h => ?_, fun maxBlock s h => ?_⟩
  · have hC := (carries_inductive V D O maxBlock hu).restrict fun s l => inTime s l = true
    exact ((settles_inductive V D O maxBlock cache).reachable hC s h).ok.2
  · have C := (carries_inductive V D O maxBlock hu).reachable s h
    refine ⟨?_, fun commands hd => ?_⟩
    · have hd := C.drain
      cases hdr : s.drain with
      | idle =>
        rw [hdr] at hd
        exact hd
      | drain room commands =>
        rw [hdr] at hd
        exact Nat.le_trans (Nat.le_add_right _ _) hd.1
      | ready commands =>
        rw [hdr] at hd
        exact Nat.le_trans (Nat.le_add_right _ _) hd.1
    · obtain ⟨hlen, hcov, _⟩ := mergeParameterCommands_spec hu (C.mergeable hd)
      exact ⟨hlen, hcov⟩

/-! ## Non-vacuity and the request that overtakes -/

theorem uniqueIds_one : UniqueIds oneParameter := by
  intro i j m n hi hj _ _
  have hi := (List.getElem?_eq_some_iff.mp hi).1
  have hj := (List.getElem?_eq_some_iff.mp hj).1
  simp only [oneParameter, List.length_singleton] at hi hj
  omega

abbrev BridgeRun := List (BridgeLbl Nat Nat Nat)

def bridge0 : BridgeSt Nat Nat Nat := bridgeInit Nat Nat Nat 3 48000

def accepts (index value : Nat) : BridgeRun :=
  .front (.setVstParameter index value) :: List.replicate 3 (.front .admission)

/-- A call of `process` after `drains` steps of the drain. -/
def renders (drains clients : Nat) : BridgeRun :=
  List.replicate drains .drain ++
    .bridge (.process 64 0 none) :: List.replicate clients (.bridge .client)

def works (n : Nat) : BridgeRun := List.replicate n (.bridge .worker)

def waits : BridgeRun := [.front .waitForParameters, .front (.wait false), .front (.wait false)]

/-- One command travels in request 1, is applied and acknowledged. -/
def traceAnswered : BridgeRun :=
  List.flatten [accepts 0 5, renders 3 8, [.bridge .cycle], works 6, [.bridge (.executed true 9)],
    works 1, renders 2 2, waits]

theorem traceAnswered_result :
    (LTS.execOk (fun s l => inTime s l = true) (bridgeStep 512 oneParameter) bridge0
      traceAnswered).any (fun s => decide (s.front.wait = .ok 1 ∧ s.done = [command 1 5])) = true := by
  decide +kernel

theorem barrier_answered : ∃ s : BridgeSt Nat Nat Nat, s.front.wait = .ok 1 ∧
    s.done = [command 1 5] ∧ Sound ParameterCommand.index s.front s.done s.lost := by
  have hrun : ∃ s, ((bridgeLts Nat Nat Nat 512 oneParameter).restrict
      fun s l => inTime s l = true).Reachable s ∧
      decide (s.front.wait = .ok 1 ∧ s.done = [command 1 5]) = true :=
    LTS.reachable_of_anyOk traceAnswered ⟨by decide, 48000, rfl⟩ traceAnswered_result
  obtain ⟨s, hr, hs⟩ := hrun
  obtain ⟨hw, hd⟩ := of_decide_eq_true hs
  exact ⟨s, hw, hd, (parameter_barrier Nat Nat Nat oneParameter uniqueIds_one).2.1 512 s hr⟩

def twoParameters : List Metadata := [⟨7, 0, 0⟩, ⟨8, 0, 0⟩]

/-- Request 1 is published into slot 0 behind the worker's scan and request 2,
with another parameter, into slot 1 before it. -/
def traceOvertaken : BridgeRun :=
  List.flatten [accepts 0 5, [.bridge .cycle], works 1, renders 3 8, accepts 1 6, renders 3 9,
    works 5, [.bridge (.executed true 9)], works 1, renders 2 6, waits]

theorem traceOvertaken_result :
    (LTS.exec (bridgeStep 512 twoParameters) bridge0 traceOvertaken).any (fun s =>
      decide (s.front.wait = .ok 2 ∧ s.done = [⟨2, 1, ⟨8, 0, 0⟩, 6⟩] ∧
        command 1 5 ∈ s.front.sent)) = true := by
  decide +kernel

/-- The changes of request 2 are acknowledged before those of request 1 are
applied. -/
theorem overtaken_unsound : ¬∀ s, (bridgeLts Nat Nat Nat 512 twoParameters).Reachable s →
    Sound ParameterCommand.index s.front s.done s.lost := by
  intro hall
  have hrun : ∃ s, (bridgeLts Nat Nat Nat 512 twoParameters).Reachable s ∧
      decide (s.front.wait = .ok 2 ∧ s.done = [⟨2, 1, ⟨8, 0, 0⟩, 6⟩] ∧
        command 1 5 ∈ s.front.sent) = true :=
    LTS.reachable_of_any traceOvertaken ⟨by decide, 48000, rfl⟩ traceOvertaken_result
  obtain ⟨s, hr, hs⟩ := hrun
  obtain ⟨hw, hd, hsent⟩ := of_decide_eq_true hs
  obtain ⟨d, hd', hi, _⟩ := (hall s hr 2 hw).1 (command 1 5) hsent (by decide)
  rw [hd, List.mem_singleton] at hd'
  subst hd'
  exact absurd hi (by decide)

end RtpOscMidi.L5.BridgeParameters
