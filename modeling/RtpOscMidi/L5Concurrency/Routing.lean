import RtpOscMidi.Core.LTS
import RtpOscMidi.Core.Lists
import RtpOscMidi.L2Machine.MidiQueue

/-!
# Publication of the input routing

A MIDI input callback stamps its frame with the current MIDI generation,
loads the published `Preparation`, and maps the frame through it between two
checks of its `valid` flag; a frame that fails a check or that the profile
rejects is dropped, the others are admitted. `update_config` replaces the
routing in three steps under its lock: clear `valid` of the published
preparation, bump the generation, publish the new preparation. Resets from
anywhere else bump the generation too.

Any number of callbacks are under way (`St.cbs`, one entry each); a step is
one atomic access of one of them, of the update, or a reset. The content of
a preparation and what it does to a frame are parameters (`P`, `apply`):
nothing here depends on the profile itself. Whether the queue has room is
left open (`room`). `start_runtime` publishes a preparation before any
callback exists (src-tauri/src/bridge/lifecycle.rs:135-136), so the initial
state has one.

`invalidAt` and `superseded` record, for a preparation, the value of the
generation when `valid` was cleared and the generation that the same update
began; `original` and `maps` record where a frame came from. A preparation
was not yet invalidated when generation `g` began exactly when it was never
invalidated or the counter stood at `g` or above by then.
-/
namespace RtpOscMidi.L5.Routing

open Core L2.MidiQueue

variable {P D : Type}

/-- mirrors src-tauri/src/midi_queue.rs:172-175 -/
structure Prep (P : Type) where
  content : P
  valid : Bool
  invalidAt : Option Nat
  superseded : Option Nat
  deriving DecidableEq, Repr

structure Frame (D : Type) where
  generation : Nat
  data : D
  original : D
  /-- the preparations whose `apply` ran on the frame -/
  maps : List Nat
  deriving DecidableEq, Repr

/-- A callback between its atomic accesses.
mirrors src-tauri/src/midi_queue.rs:223-229, src-tauri/src/bridge/pipeline.rs:619-633 -/
inductive Cb (D : Type) where
  /-- stamped, before loading the preparation -/
  | stamped (f : Frame D)
  /-- before the first check of `valid` -/
  | loaded (f : Frame D) (p : Nat)
  | checked (f : Frame D) (p : Nat)
  /-- before the second check of `valid` -/
  | mapped (f : Frame D) (p : Nat)
  | prepared (f : Frame D)
  | done
  deriving DecidableEq, Repr

/-- `update_config` with changed routing, between its atomic accesses.
mirrors src-tauri/src/bridge/runtime.rs:236-252 -/
inductive Upd (P : Type) where
  | idle
  | load (next : P)
  | invalidate (next : P) (p : Nat)
  | bump (next : P) (p : Option Nat)
  | publish (next : P)
  deriving DecidableEq, Repr

structure St (P D : Type) where
  generation : Nat
  preps : List (Prep P)
  published : Option Nat
  cbs : List (Cb D)
  upd : Upd P
  admitted : List (Frame D)
  deriving DecidableEq, Repr

def init (first : P) (g : Nat) : St P D := ⟨g, [⟨first, true, none, none⟩], some 0, [], .idle, []⟩

inductive Lbl (P D : Type) where
  /-- a callback receives a message and stamps it -/
  | frame (d : D)
  /-- the next access of callback `t`; `room`: the queue accepts its frame -/
  | cb (t : Nat) (room : Bool)
  /-- `request_critical_midi_reset` from anywhere -/
  | reset
  | beginUpdate (next : P)
  | update
  deriving DecidableEq, Repr

def setCb (s : St P D) (t : Nat) (k : Cb D) : St P D := { s with cbs := s.cbs.set t k }

/-- `prepare.valid.store(false)`. -/
def clearValid (g : Nat) (p : Prep P) : Prep P :=
  { p with valid := false, invalidAt := p.invalidAt.or (some g) }

def supersede (g : Nat) (p : Prep P) : Prep P := { p with superseded := p.superseded.or (some g) }

def isValid (s : St P D) (p : Nat) : Bool := (s.preps[p]?.map Prep.valid).getD false

/-- `(prepare.apply)(value)` with preparation `p`; `none`: the profile rejects. -/
def applyPrep (apply : P → D → Option D) (s : St P D) (p : Nat) (f : Frame D) : Option (Frame D) :=
  (s.preps[p]?.bind fun q => apply q.content f.data).map fun d =>
    { f with data := d, maps := f.maps ++ [p] }

/-- mirrors src-tauri/src/midi_queue.rs:223-229, src-tauri/src/bridge/pipeline.rs:619-676 -/
def cbStep (apply : P → D → Option D) (s : St P D) (t : Nat) (room : Bool) :
    Cb D → Option (St P D)
  | .stamped f =>
    match s.published with
    | none => some (setCb s t (.prepared f))
    | some p => some (setCb s t (.loaded f p))
  | .loaded f p => some (setCb s t (if isValid s p then .checked f p else .done))
  | .checked f p =>
    match applyPrep apply s p f with
    | none => some (setCb s t .done)
    | some f' => some (setCb s t (.mapped f' p))
  | .mapped f p => some (setCb s t (if isValid s p then .prepared f else .done))
  | .prepared f =>
    some (setCb (if room then { s with admitted := s.admitted ++ [f] } else s) t .done)
  | .done => none

/-- mirrors src-tauri/src/bridge/runtime.rs:236-252, src-tauri/src/midi_queue.rs:210-221 -/
def updStep (s : St P D) : Upd P → Option (St P D)
  | .idle => none
  | .load next =>
    match s.published with
    | none => some { s with upd := .bump next none }
    | some p => some { s with upd := .invalidate next p }
  | .invalidate next p =>
    some { s with preps := s.preps.modify p (clearValid s.generation), upd := .bump next (some p) }
  | .bump next p =>
    some { s with generation := s.generation + 1,
                  preps := match p with
                    | none => s.preps
                    | some p => s.preps.modify p (supersede (s.generation + 1)),
                  upd := .publish next }
  | .publish next =>
    some { s with preps := s.preps ++ [⟨next, true, none, none⟩], published := some s.preps.length,
                  upd := .idle }

def step (apply : P → D → Option D) (s : St P D) : Lbl P D → Option (St P D)
  | .frame d => some { s with cbs := s.cbs ++ [.stamped ⟨s.generation, d, d, []⟩] }
  | .cb t room => s.cbs[t]?.bind (cbStep apply s t room)
  | .reset => some { s with generation := s.generation + 1 }
  | .beginUpdate next =>
    match s.upd with
    | .idle => some { s with upd := .load next }
    | _ => none
  | .update => updStep s s.upd

def lts (apply : P → D → Option D) (first : P) : LTS (St P D) (Lbl P D) :=
  .ofStep (fun s => ∃ g, s = init first g) (step apply)

/-! ## Invariant -/

/-- The frame's stamp is not newer than the invalidation of the preparation. -/
def Fresh (s : St P D) (f : Frame D) (p : Nat) : Prop :=
  ∀ q, s.preps[p]? = some q → ∀ v, q.invalidAt = some v → f.generation ≤ v

def Raw (f : Frame D) : Prop := f.data = f.original ∧ f.maps = []

/-- Mapped once, by a preparation that outlived the frame's stamp. -/
def Mapped (apply : P → D → Option D) (s : St P D) (f : Frame D) (p : Nat) : Prop :=
  f.maps = [p] ∧ ∃ q, s.preps[p]? = some q ∧ apply q.content f.original = some f.data ∧
    ∀ v, q.invalidAt = some v → f.generation ≤ v

def CbOk (apply : P → D → Option D) (s : St P D) : Cb D → Prop
  | .stamped f => Raw f ∧ f.generation ≤ s.generation
  | .loaded f _ => Raw f ∧ f.generation ≤ s.generation
  | .checked f p => Raw f ∧ f.generation ≤ s.generation ∧ Fresh s f p
  | .mapped f p => Mapped apply s f p ∧ f.generation ≤ s.generation
  | .prepared f => (∃ p, Mapped apply s f p) ∧ f.generation ≤ s.generation
  | .done => True

def PrepOk (g : Nat) (q : Prep P) : Prop :=
  (q.valid = true → q.invalidAt = none) ∧ (∀ v, q.invalidAt = some v → v ≤ g) ∧
    ∀ g', q.superseded = some g' → ∃ v, q.invalidAt = some v ∧ v < g'

def UpdOk (s : St P D) : Upd P → Prop
  | .bump _ (some p) => ∀ q, s.preps[p]? = some q → ∃ v, q.invalidAt = some v
  | _ => True

structure Inv (apply : P → D → Option D) (s : St P D) : Prop where
  published : s.published ≠ none
  prep : ∀ q ∈ s.preps, PrepOk s.generation q
  upd : UpdOk s s.upd
  cb : ∀ k ∈ s.cbs, CbOk apply s k
  admitted : ∀ f ∈ s.admitted, (∃ p, Mapped apply s f p) ∧ f.generation ≤ s.generation

/-! ## What a step may do to the preparations -/

/-- A preparation keeps its content, and is invalidated no earlier than now. -/
def Grows (s s' : St P D) : Prop :=
  s.generation ≤ s'.generation ∧
  ∀ (p : Nat) (q' : Prep P), s'.preps[p]? = some q' →
    (s.preps[p]? = none ∧ q'.invalidAt = none) ∨
    ∃ q, s.preps[p]? = some q ∧ q'.content = q.content ∧
      (q'.invalidAt = q.invalidAt ∨ q'.invalidAt = some s.generation)

/-- Published preparations are never taken back. -/
def Keeps (s s' : St P D) : Prop :=
  ∀ (p : Nat) (q : Prep P), s.preps[p]? = some q → ∃ q', s'.preps[p]? = some q'

theorem Grows.of_eq {s s' : St P D} (hg : s.generation ≤ s'.generation)
    (hp : s'.preps = s.preps) : Grows s s' :=
  ⟨hg, fun p q' h => .inr ⟨q', by rw [← hp]; exact h, rfl, .inl rfl⟩⟩

theorem Keeps.of_eq {s s' : St P D} (hp : s'.preps = s.preps) : Keeps s s' :=
  fun _ q h => ⟨q, by rw [hp]; exact h⟩

theorem Fresh.mono {s s' : St P D} {f : Frame D} {p : Nat} (hG : Grows s s')
    (hf : f.generation ≤ s.generation) (h : Fresh s f p) : Fresh s' f p := by
  intro q' hq' v hv
  rcases hG.2 p q' hq' with ⟨-, hn⟩ | ⟨q, hq, -, he | he⟩
  · rw [hn] at hv; cases hv
  · exact h q hq v (by rw [← he]; exact hv)
  · rw [he] at hv
    cases hv
    exact hf

theorem Mapped.mono {apply : P → D → Option D} {s s' : St P D} {f : Frame D} {p : Nat}
    (hG : Grows s s') (hK : Keeps s s') (hf : f.generation ≤ s.generation)
    (h : Mapped apply s f p) : Mapped apply s' f p := by
  obtain ⟨hm, q, hq, ha, hv⟩ := h
  obtain ⟨q', hq'⟩ := hK p q hq
  have hfr : Fresh s f p := fun r hr => by
    rw [hq] at hr
    cases hr
    exact hv
  refine ⟨hm, q', hq', ?_, hfr.mono hG hf q' hq'⟩
  rcases hG.2 p q' hq' with ⟨hn, -⟩ | ⟨r, hr, hc, -⟩
  · rw [hq] at hn; cases hn
  · rw [hq] at hr
    cases hr
    rw [hc]
    exact ha

theorem CbOk.mono {apply : P → D → Option D} {s s' : St P D} {k : Cb D} (hG : Grows s s')
    (hK : Keeps s s') (h : CbOk apply s k) : CbOk apply s' k := by
  have hle := hG.1
  cases k with
  | stamped f => exact ⟨h.1, Nat.le_trans h.2 hle⟩
  | loaded f p => exact ⟨h.1, Nat.le_trans h.2 hle⟩
  | checked f p => exact ⟨h.1, Nat.le_trans h.2.1 hle, h.2.2.mono hG h.2.1⟩
  | mapped f p => exact ⟨h.1.mono hG hK h.2, Nat.le_trans h.2 hle⟩
  | prepared f =>
    obtain ⟨⟨p, hp⟩, hf⟩ := h
    exact ⟨⟨p, hp.mono hG hK hf⟩, Nat.le_trans hf hle⟩
  | done => trivial

/-- Frames in hand and admitted frames survive any step that only grows the
preparations. -/
theorem Inv.frames {apply : P → D → Option D} {s s' : St P D} (I : Inv apply s) (hG : Grows s s')
    (hK : Keeps s s') :
    (∀ k ∈ s.cbs, CbOk apply s' k) ∧
      ∀ f ∈ s.admitted, (∃ p, Mapped apply s' f p) ∧ f.generation ≤ s'.generation := by
  refine ⟨fun k hk => (I.cb k hk).mono hG hK, fun f hf => ?_⟩
  obtain ⟨⟨p, hp⟩, hle⟩ := I.admitted f hf
  exact ⟨⟨p, hp.mono hG hK hle⟩, Nat.le_trans hle hG.1⟩

/-! ## Callback steps -/

theorem isValid_fresh {s : St P D} {p : Nat} (hp : ∀ q ∈ s.preps, PrepOk s.generation q)
    (h : isValid s p = true) (f : Frame D) : Fresh s f p := by
  intro q hq v hv
  simp only [isValid, hq, Option.map_some, Option.getD_some] at h
  have := (hp q (List.mem_of_getElem? hq)).1 h
  rw [this] at hv
  cases hv

theorem mapped_of_applyPrep {apply : P → D → Option D} {s : St P D} {p : Nat} {f f' : Frame D}
    (hr : Raw f) (hf : Fresh s f p) (h : applyPrep apply s p f = some f') :
    Mapped apply s f' p ∧ f'.generation = f.generation := by
  obtain ⟨hd, hm⟩ := hr
  simp only [applyPrep, Option.map_eq_some_iff, Option.bind_eq_some_iff] at h
  obtain ⟨d, ⟨q, hq, ha⟩, rfl⟩ := h
  refine ⟨⟨by simp [hm], q, hq, ?_, hf q hq⟩, rfl⟩
  rw [← hd]
  exact ha

theorem inv_setCb {apply : P → D → Option D} {s : St P D} {t : Nat} {k : Cb D} (I : Inv apply s)
    (hk : CbOk apply s k) : Inv apply (setCb s t k) := by
  refine ⟨I.published, I.prep, I.upd, fun x hx => ?_, I.admitted⟩
  rcases mem_of_set hx with hx | rfl
  · exact I.cb x hx
  · exact hk

theorem inv_cbStep {apply : P → D → Option D} {s s' : St P D} {t : Nat} {room : Bool} {k : Cb D}
    (I : Inv apply s) (hk : CbOk apply s k) (hst : cbStep apply s t room k = some s') :
    Inv apply s' := by
  cases k with
  | stamped f =>
    simp only [cbStep] at hst
    split at hst
    · rename_i hn
      exact absurd hn I.published
    · simp only [Option.some.injEq] at hst; subst hst
      exact inv_setCb I hk
  | loaded f p =>
    simp only [cbStep, Option.some.injEq] at hst; subst hst
    split
    · rename_i hv
      exact inv_setCb I ⟨hk.1, hk.2, isValid_fresh I.prep hv f⟩
    · exact inv_setCb I trivial
  | checked f p =>
    simp only [cbStep] at hst
    split at hst
    · simp only [Option.some.injEq] at hst; subst hst
      exact inv_setCb I trivial
    · rename_i f' hf'
      simp only [Option.some.injEq] at hst; subst hst
      obtain ⟨hm, hg⟩ := mapped_of_applyPrep hk.1 hk.2.2 hf'
      exact inv_setCb I ⟨hm, by rw [hg]; exact hk.2.1⟩
  | mapped f p =>
    simp only [cbStep, Option.some.injEq] at hst; subst hst
    split
    · exact inv_setCb I ⟨⟨p, hk.1⟩, hk.2⟩
    · exact inv_setCb I trivial
  | prepared f =>
    simp only [cbStep, Option.some.injEq] at hst; subst hst
    refine inv_setCb ?_ trivial
    split
    · refine ⟨I.published, I.prep, I.upd, I.cb, fun x hx => ?_⟩
      simp only [List.mem_append, List.mem_singleton] at hx
      rcases hx with hx | rfl
      · exact I.admitted x hx
      · exact hk
    · exact I
  | done => simp [cbStep] at hst

/-! ## Update steps -/

/-- Changing one preparation in place, content kept, invalidated now if at all. -/
theorem grows_modify {s s' : St P D} {p : Nat} {h : Prep P → Prep P}
    (hg : s.generation ≤ s'.generation) (hp : s'.preps = s.preps.modify p h)
    (hc : ∀ q, (h q).content = q.content)
    (hi : ∀ q, (h q).invalidAt = q.invalidAt ∨ (h q).invalidAt = some s.generation) :
    Grows s s' ∧ Keeps s s' := by
  refine ⟨⟨hg, fun r q' hq' => .inr ?_⟩, fun r q hq => ?_⟩
  · rw [hp, List.getElem?_modify] at hq'
    cases hr : s.preps[r]? with
    | none => simp [hr] at hq'
    | some q =>
      simp only [hr, Option.map_eq_map, Option.map_some, Option.some.injEq] at hq'
      refine ⟨q, rfl, ?_⟩
      split at hq' <;> subst hq'
      · exact ⟨hc q, hi q⟩
      · exact ⟨rfl, .inl rfl⟩
  · rw [hp, List.getElem?_modify, hq]
    exact ⟨_, rfl⟩

theorem clearValid_invalidAt (g : Nat) (q : Prep P) :
    (clearValid g q).invalidAt = q.invalidAt ∨ (clearValid g q).invalidAt = some g := by
  unfold clearValid
  cases q.invalidAt
  · exact .inr rfl
  · exact .inl rfl

theorem prepOk_mono {g g' : Nat} {q : Prep P} (h : g ≤ g') (hq : PrepOk g q) : PrepOk g' q :=
  ⟨hq.1, fun v hv => Nat.le_trans (hq.2.1 v hv) h, hq.2.2⟩

theorem prepOk_clearValid {g : Nat} {q : Prep P} (hq : PrepOk g q) :
    PrepOk g (clearValid g q) := by
  obtain ⟨-, h2, h3⟩ := hq
  refine ⟨nofun, fun v hv => ?_, fun g' hg' => ?_⟩
  · simp only [clearValid] at hv
    cases hi : q.invalidAt with
    | none => simp only [hi, Option.none_or, Option.some.injEq] at hv; omega
    | some w => simp only [hi, Option.some_or, Option.some.injEq] at hv; exact hv ▸ h2 w hi
  · obtain ⟨v, hv, hlt⟩ := h3 g' hg'
    exact ⟨v, by simp [clearValid, hv], hlt⟩

/-- The update's own bump is later than its invalidation. -/
theorem prepOk_supersede {g : Nat} {q : Prep P} (hq : PrepOk g q)
    (hi : ∃ v, q.invalidAt = some v) : PrepOk (g + 1) (supersede (g + 1) q) := by
  obtain ⟨h1, h2, h3⟩ := hq
  refine ⟨h1, fun v hv => Nat.le_succ_of_le (h2 v hv), fun g' hg' => ?_⟩
  obtain ⟨v, hv⟩ := hi
  cases hs : q.superseded with
  | none =>
    simp only [supersede, hs, Option.none_or, Option.some.injEq] at hg'
    exact ⟨v, hv, by have := h2 v hv; omega⟩
  | some w =>
    simp only [supersede, hs, Option.some_or, Option.some.injEq] at hg'
    exact hg' ▸ h3 w hs

theorem inv_updStep {apply : P → D → Option D} {s s' : St P D} (I : Inv apply s)
    (hst : updStep s s.upd = some s') : Inv apply s' := by
  have hupd := I.upd
  cases hu : s.upd with
  | idle => simp [hu, updStep] at hst
  | load next =>
    simp only [hu, updStep] at hst
    split at hst
    · rename_i hn
      exact absurd hn I.published
    · simp only [Option.some.injEq] at hst; subst hst
      exact ⟨I.published, I.prep, trivial, I.cb, I.admitted⟩
  | invalidate next p =>
    simp only [hu, updStep, Option.some.injEq] at hst; subst hst
    have hGK := fun h => @grows_modify P D s { s with
      preps := s.preps.modify p (clearValid s.generation), upd := .bump next (some p) } p
      (clearValid s.generation) (Nat.le_refl _) rfl (fun _ => rfl) h
    obtain ⟨hG, hK⟩ := hGK (clearValid_invalidAt s.generation)
    obtain ⟨hcb, hadm⟩ := I.frames hG hK
    refine ⟨I.published, fun q hq => ?_, fun q hq => ?_, hcb, hadm⟩
    · rcases mem_of_modify hq with hq | ⟨r, hr, rfl⟩
      · exact I.prep q hq
      · exact prepOk_clearValid (I.prep r (List.mem_of_getElem? hr))
    · simp only [List.getElem?_modify_eq] at hq
      obtain ⟨r, -, rfl⟩ := Option.map_eq_some_iff.mp hq
      cases hr : r.invalidAt with
      | none => exact ⟨s.generation, by simp [clearValid, hr]⟩
      | some v => exact ⟨v, by simp [clearValid, hr]⟩
  | bump next p =>
    simp only [hu, updStep, Option.some.injEq] at hst; subst hst
    cases p with
    | none =>
      have hG : Grows s { s with generation := s.generation + 1, upd := .publish next } :=
        .of_eq (Nat.le_succ _) rfl
      obtain ⟨hcb, hadm⟩ := I.frames hG (.of_eq rfl)
      exact ⟨I.published, fun q hq => prepOk_mono (Nat.le_succ _) (I.prep q hq), trivial, hcb, hadm⟩
    | some p =>
      simp only [hu, UpdOk] at hupd
      obtain ⟨hG, hK⟩ := @grows_modify P D s { s with
        generation := s.generation + 1,
        preps := s.preps.modify p (supersede (s.generation + 1)), upd := .publish next } p
        (supersede (s.generation + 1)) (Nat.le_succ _) rfl (fun _ => rfl) (fun _ => .inl rfl)
      obtain ⟨hcb, hadm⟩ := I.frames hG hK
      refine ⟨I.published, fun q hq => ?_, trivial, hcb, hadm⟩
      rcases mem_of_modify hq with hq | ⟨r, hr, rfl⟩
      · exact prepOk_mono (Nat.le_succ _) (I.prep q hq)
      · exact prepOk_supersede (I.prep r (List.mem_of_getElem? hr)) (hupd r hr)
  | publish next =>
    simp only [hu, updStep, Option.some.injEq] at hst; subst hst
    have hG : Grows s { s with preps := s.preps ++ [⟨next, true, none, none⟩],
                               published := some s.preps.length, upd := .idle } := by
      refine ⟨Nat.le_refl _, fun r q' hq' => ?_⟩
      by_cases hr : r < s.preps.length
      · rw [List.getElem?_append_left hr] at hq'
        exact .inr ⟨q', hq', rfl, .inl rfl⟩
      · have hn : s.preps[r]? = none := List.getElem?_eq_none_iff.mpr (by omega)
        have := List.mem_of_getElem? hq'
        rw [List.getElem?_append_right (by omega)] at hq'
        have := List.mem_of_getElem? hq'
        simp only [List.mem_singleton] at this
        exact .inl ⟨hn, by rw [this]⟩
    have hK : Keeps s { s with preps := s.preps ++ [⟨next, true, none, none⟩],
                               published := some s.preps.length, upd := .idle } := by
      intro r q hq
      refine ⟨q, ?_⟩
      rw [List.getElem?_append_left (List.getElem?_eq_some_iff.mp hq).1]
      exact hq
    obtain ⟨hcb, hadm⟩ := I.frames hG hK
    refine ⟨nofun, fun q hq => ?_, trivial, hcb, hadm⟩
    simp only [List.mem_append, List.mem_singleton] at hq
    rcases hq with hq | rfl
    · exact I.prep q hq
    · exact ⟨fun _ => rfl, nofun, nofun⟩

theorem inv_step {apply : P → D → Option D} {s s' : St P D} {l : Lbl P D} (I : Inv apply s)
    (hst : step apply s l = some s') : Inv apply s' := by
  cases l with
  | frame d =>
    simp only [step, Option.some.injEq] at hst; subst hst
    refine ⟨I.published, I.prep, I.upd, fun k hk => ?_, I.admitted⟩
    simp only [List.mem_append, List.mem_singleton] at hk
    rcases hk with hk | rfl
    · exact I.cb k hk
    · exact ⟨⟨rfl, rfl⟩, Nat.le_refl _⟩
  | cb t room =>
    obtain ⟨k, hk, hst⟩ := Option.bind_eq_some_iff.mp hst
    exact inv_cbStep I (I.cb k (List.mem_of_getElem? hk)) hst
  | reset =>
    simp only [step, Option.some.injEq] at hst; subst hst
    have hG : Grows s { s with generation := s.generation + 1 } := .of_eq (Nat.le_succ _) rfl
    obtain ⟨hcb, hadm⟩ := I.frames hG (.of_eq rfl)
    exact ⟨I.published, fun q hq => prepOk_mono (Nat.le_succ _) (I.prep q hq), I.upd, hcb, hadm⟩
  | beginUpdate next =>
    simp only [step] at hst
    split at hst
    · simp only [Option.some.injEq] at hst; subst hst
      exact ⟨I.published, I.prep, trivial, I.cb, I.admitted⟩
    · cases hst
  | update => exact inv_updStep I hst

theorem inv_inductive (apply : P → D → Option D) (first : P) :
    (lts apply first).Inductive (Inv apply) where
  init := by
    rintro s ⟨g, rfl⟩
    refine ⟨nofun, fun q hq => ?_, trivial, by simp [init], by simp [init]⟩
    simp only [init, List.mem_singleton] at hq
    subst hq
    exact ⟨fun _ => rfl, nofun, nofun⟩
  step _ _ _ I hst := inv_step I hst

/-! ## Headline property -/

/-- A frame handled as Ready under generation `g` went once through one
preparation, and that one was still valid when `g` began; a frame mapped by
the preparation that the update beginning `g` replaced is older than `g`,
so from then on it is discarded. -/
theorem ready_frame_mapped_once (apply : P → D → Option D) (first : P) (s : St P D)
    (h : (lts apply first).Reachable s) (f : Frame D) (hf : f ∈ s.admitted) :
    (∀ g r current, generationAction (f.generation, 0) (g, r) current = .ready →
      ∃ p q, f.maps = [p] ∧ s.preps[p]? = some q ∧ apply q.content f.original = some f.data ∧
        ∀ v, q.invalidAt = some v → g ≤ v) ∧
    (∀ p ∈ f.maps, ∀ q, s.preps[p]? = some q → ∀ g, q.superseded = some g →
      f.generation < g ∧
        ∀ handled current, g ≤ current.1 →
          generationAction (f.generation, 0) handled current = .discard) := by
  have I := (inv_inductive apply first).reachable s h
  obtain ⟨⟨p, hm, q, hq, ha, hv⟩, -⟩ := I.admitted f hf
  constructor
  · intro g r current hready
    obtain ⟨he, -⟩ := generationAction_ready.mp hready
    simp only [Prod.mk.injEq] at he
    exact ⟨p, q, hm, hq, ha, he.1 ▸ hv⟩
  · intro p' hp' q' hq' g hg
    rw [hm, List.mem_singleton] at hp'
    subst hp'
    rw [hq] at hq'
    cases hq'
    obtain ⟨v, hiv, hlt⟩ := (I.prep q (List.mem_of_getElem? hq)).2.2 g hg
    have hfv := hv v hiv
    exact ⟨by omega, fun handled current hc => generationAction_discard.mpr (.inl (by simp only; omega))⟩

/-! ## Non-vacuity: an update overtaking two callbacks -/

/-- Routing by addition; the profile rejects results above 100. -/
def addTo (p d : Nat) : Option Nat := if p + d ≤ 100 then some (p + d) else none

/-- The first frame is mapped and admitted before the update, the second is
stamped before it and finds the old preparation invalid, the third is
stamped and mapped after it. -/
def traceUpdate : List (Lbl Nat Nat) :=
  [.frame 1, .cb 0 true, .cb 0 true, .cb 0 true, .cb 0 true, .cb 0 true,
   .frame 2, .cb 1 true, .beginUpdate 20, .update, .update, .cb 1 true, .update, .update,
   .frame 3, .cb 2 true, .cb 2 true, .cb 2 true, .cb 2 true, .cb 2 true]

def updated : St Nat Nat :=
  { generation := 1, preps := [⟨10, false, some 0, some 1⟩, ⟨20, true, none, none⟩],
    published := some 1, cbs := [.done, .done, .done], upd := .idle,
    admitted := [⟨0, 11, 1, [0]⟩, ⟨1, 23, 3, [1]⟩] }

theorem traceUpdate_result : LTS.exec (step addTo) (init 10 0) traceUpdate = some updated := by
  decide

theorem updated_frame_discarded :
    generationAction (0, 0) (1, 0) (1, 0) = .discard ∧
      ∃ p q, [1] = [p] ∧ updated.preps[p]? = some q ∧ addTo q.content 3 = some 23 ∧
        ∀ v, q.invalidAt = some v → 1 ≤ v := by
  have hr : (lts addTo 10).Reachable updated :=
    LTS.reachable_of_exec traceUpdate ⟨0, rfl⟩ traceUpdate_result
  refine ⟨?_, ?_⟩
  · exact ((ready_frame_mapped_once addTo 10 updated hr ⟨0, 11, 1, [0]⟩ (by decide)).2 0 (by decide)
      ⟨10, false, some 0, some 1⟩ (by decide) 1 rfl).2 (1, 0) (1, 0) (by decide)
  · exact (ready_frame_mapped_once addTo 10 updated hr ⟨1, 23, 3, [1]⟩ (by decide)).1 1 0 (1, 0)
      (by decide)

end RtpOscMidi.L5.Routing
