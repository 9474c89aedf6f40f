import RtpOscMidi.L5Concurrency.RenderAhead

/-!
# Panics in render-ahead

`RenderAhead` with the two ways a panic reaches it, and with `drain_midi`
inside the render closure: it swaps the emergency flag, raises the MIDI
generation if the flag was set, and adopts the generation, in separate steps.
A panic request sets the flag or raises the generation, at any time.

Every frame carries the stamp of its render: how many times the flag had been
set when the render's `drain_midi` swapped it, and the generation the renderer
had adopted. `heard` is what the callback has observed of the panics, and
`aired` has every frame it has written with what it had observed then.

No stale frame is aired unless the two checks of a block overlap a
`drain_midi` that takes a flag the callback has observed (`raced`).
-/
namespace RtpOscMidi.L5.RenderPanic

open Core RenderAhead

/-- `flags`: how many times the flag had been set. -/
structure Stamp where
  flags : Nat
  generation : Nat
  deriving DecidableEq, Repr

/-- `drain_midi` between its shared accesses; `settled` is `taken` before the
swap.
mirrors src-tauri/src/audio/runtime_state.rs:665-691 -/
inductive Drain where
  | entry
  | increment (settled : Nat)
  | observe
  | drained
  deriving DecidableEq, Repr

structure PanicSt (α : Type) where
  base : St (α × Stamp)
  drain : Drain
  /-- the renderer's own copy of the generation -/
  midiGeneration : Nat
  /-- how many times the flag was set, and how many of these `drain_midi` took -/
  flags : Nat
  taken : Nat
  heard : Stamp
  raced : Bool
  aired : List (Out (α × Stamp) × Stamp)
  deriving DecidableEq, Repr

inductive PanicLbl (α : Type) where
  /-- a step that has nothing to do with panics -/
  | other (l : Lbl (α × Stamp))
  | panicFlag
  | panicGeneration
  | swap
  | increment
  | observe
  /-- the render closure returns a block, or none -/
  | rendered (samples : List α)
  | notRendered (samples : List α)
  | call
  deriving DecidableEq, Repr

/-- The labels that are the same with and without panics. -/
def unrelated {F : Type} : Lbl F → Bool
  | .bumpGeneration | .setEmergency _ | .rendered .. | .call => false
  | _ => true

variable {α : Type}

/-- Everything the calls have written to the device buffers. -/
def written {F : Type} (s : St F) : List (Out F) := s.output.flatten ++ s.call.data

/-- What the callback's next step observes. -/
def hear (s : PanicSt α) : Stamp :=
  match s.base.call with
  | .loadGeneration .. | .checkGeneration _ => { s.heard with generation := s.base.generation }
  | .loadEmergency .. | .checkEmergency _ =>
    if s.base.emergency then { s.heard with flags := s.flags } else s.heard
  | _ => s.heard

/-- The block's generation is read in the middle of a `drain_midi` that took
an observed flag. -/
def racedAt (s : PanicSt α) : Bool :=
  match s.base.call, s.drain with
  | .checkGeneration _, .increment settled => settled < s.heard.flags
  | .checkGeneration _, _ => false
  | _, _ => s.raced

/-- A step of the callback, with what it observes and what it writes. -/
def callPanic (c : Cfg) (s : PanicSt α) : Option (PanicSt α) :=
  (callStep c s.base s.base.call).map fun base =>
    { s with
      base, heard := hear s, raced := racedAt s,
      flags := match s.base.call with
        | .raiseEmergency _ => s.flags + 1
        | _ => s.flags
      aired := s.aired ++ ((written base).drop (written s.base).length).map (·, hear s) }

/-- The callback is between its two checks of a block. -/
def checking : Call (α × Stamp) → Bool
  | .checkEmergency _ => true
  | _ => false

def panicStep (c : Cfg) (s : PanicSt α) : PanicLbl α → Option (PanicSt α)
  | .other l => if unrelated l then (step c s.base l).map fun base => { s with base } else none
  | .panicFlag => some { s with base := { s.base with emergency := true }, flags := s.flags + 1 }
  | .panicGeneration =>
    some { s with base := { s.base with generation := s.base.generation + 1 } }
  | .swap =>
    match s.base.rend, s.drain with
    | .render _, .entry =>
      if s.base.emergency then
        some { s with
          base := { s.base with emergency := false }, drain := .increment s.taken,
          taken := s.flags, raced := s.raced || (checking s.base.call && s.taken < s.heard.flags) }
      else some { s with drain := .observe }
    | _, _ => none
  | .increment =>
    match s.drain with
    | .increment _ =>
      some { s with base := { s.base with generation := s.base.generation + 1 }, drain := .observe }
    | _ => none
  | .observe =>
    match s.drain with
    | .observe | .drained => some { s with midiGeneration := s.base.generation, drain := .drained }
    | _ => none
  | .rendered samples =>
    match s.drain with
    | .drained =>
      (step c s.base (.rendered (samples.map (·, ⟨s.taken, s.midiGeneration⟩))
        (some s.midiGeneration))).map fun base => { s with base, drain := .entry }
    | _ => none
  | .notRendered samples =>
    match s.drain with
    | .entry | .drained =>
      (step c s.base (.rendered (samples.map (·, ⟨s.taken, s.midiGeneration⟩)) none)).map fun base =>
        { s with base, drain := .entry }
    | _ => none
  | .call => callPanic c s

def panicLts (α : Type) (c : Cfg) : LTS (PanicSt α) (PanicLbl α) :=
  .ofStep (fun s => (∃ frames, channel c frames = .ok s.base) ∧ s.drain = .entry ∧
    s.midiGeneration = 0 ∧ s.flags = 0 ∧ s.taken = 0 ∧ s.heard = ⟨0, 0⟩ ∧ s.raced = false ∧
    s.aired = []) (panicStep c)

/-- The flag is not read clear for a block whose generation was read in the
middle of a `drain_midi` that took an observed flag, or before it. -/
def Unraced (s : PanicSt α) : PanicLbl α → Prop
  | .call => checking s.base.call = true → s.base.emergency = false → s.raced = false
  | _ => True

def stampOf : Out (α × Stamp) → Option Stamp
  | .silence => none
  | .sample x _ | .fade x _ _ _ => some x.2

def Stamp.Covers (σ heard : Stamp) : Prop :=
  heard.flags ≤ σ.flags ∧ heard.generation ≤ σ.generation

/-- What the callback wrote is no older than the panics it had observed. -/
def Fresh (a : Out (α × Stamp) × Stamp) : Prop := ∀ σ ∈ stampOf a.1, σ.Covers a.2

/-! ## Blocks have frames -/

section Positive

variable {F : Type} {c : Cfg} {s s' : St F}

def CallPositive : Call F → Prop
  | .loadGeneration _ total | .loadEmergency _ total _ | .storeFrames _ total _ => 0 < total
  | .pop j | .checkGeneration j | .checkEmergency j | .discard j _ | .play j => j.written < j.total
  | .returnAnchor _ _ _ frames | .returnClock _ _ _ frames _ => 0 < frames
  | .returnPush _ _ b => 0 < b.request.frames
  | _ => True

/-- No block and no request is empty, and the current block has something left. -/
structure Positive (s : St F) : Prop where
  frames : 0 < s.frames
  free : ∀ b ∈ s.free, 0 < b.request.frames
  ready : ∀ b ∈ s.ready, 0 < b.request.frames
  pending : ∀ b ∈ s.pending, 0 < b.request.frames
  rend : ∀ b ∈ s.rend.block, 0 < b.request.frames
  current : ∀ b ∈ s.current, s.offset < b.request.frames
  call : CallPositive s.call

theorem positive_window {now : Nat} {b : Block F} (P : Positive s) (hb : 0 < b.request.frames) :
    Positive (window s now b) := by
  unfold window
  split
  · exact { P with pending := by simpa using hb, rend := by simp [Rend.block] }
  · exact { P with rend := by simpa [Rend.block] using hb }

theorem positive_takeBlock {now : Nat} {b : Block F} (P : Positive s) (hb : 0 < b.request.frames) :
    Positive (takeBlock s now b) := by
  unfold takeBlock
  split
  · exact { P with rend := by simpa [Rend.block] using hb }
  · exact positive_window P hb

theorem positive_rendStep (I : Inv c s) (P : Positive s) (hst : rendStep c s s.rend = some s') :
    Positive s' := by
  have hr := P.rend
  cases hu : s.rend with
  | idle done => simp [hu, rendStep] at hst
  | phase now | gate now | full now =>
    rw [hu] at hst
    simp only [rendStep, Option.some.injEq] at hst; subst hst
    split <;> exact { P with rend := by simp [Rend.block] }
  | take now =>
    rw [hu] at hst
    simp only [rendStep] at hst
    split at hst
    · next b hb =>
      simp only [Option.some.injEq] at hst; subst hst
      exact positive_takeBlock { P with pending := by simp } (P.pending b hb)
    · split at hst
      · next b free hf =>
        simp only [Option.some.injEq] at hst; subst hst
        have hfree := P.free
        rw [hf, List.forall_mem_cons] at hfree
        exact positive_takeBlock { P with free := hfree.2 } hfree.1
      · simp only [Option.some.injEq] at hst; subst hst
        exact { P with rend := by simp [Rend.block] }
  | primeFrames now index b =>
    rw [hu] at hst
    simp only [rendStep, Option.some.injEq] at hst; subst hst
    exact { P with rend := by simpa [Rend.block] using P.frames }
  | primeAnchor now index b =>
    rw [hu] at hst hr
    have hb := hr b rfl
    have hretimed : ∀ us, Positive
        (window s now { b with request := { b.request with sourceEndUs := us } }) :=
      fun us => positive_window P hb
    simp only [rendStep, Option.some.injEq] at hst; subst hst
    exact hretimed _
  | render b => simp [hu, rendStep] at hst
  | checkGeneration b g | checkEmergency b g =>
    rw [hu] at hst hr
    have hb := hr b rfl
    simp only [rendStep, Option.some.injEq] at hst; subst hst
    split
    · exact { P with pending := by simpa [reject] using hb, rend := by simp [reject, Rend.block] }
    · exact { P with rend := by simpa [Rend.block] using hb }
  | addFrames b =>
    rw [hu] at hst hr
    simp only [rendStep, Option.some.injEq] at hst; subst hst
    exact { P with rend := hr }
  | push b =>
    rw [hu] at hst hr
    have hb := hr b rfl
    simp only [rendStep, Option.some.injEq] at hst; subst hst
    split
    · refine { P with ready := ?_, rend := by simp [Rend.block] }
      exact List.forall_mem_append.mpr ⟨P.ready, List.forall_mem_singleton.mpr hb⟩
    · exact { P with rend := hr }
  | subFrames b => exact (hu ▸ I.rend : RendOk (.subFrames b)).elim

theorem positive_finish {j : Job F} (P : Positive { s with call := .idle 0 }) :
    Positive (finish s j) := by
  simp only [finish]
  split <;> exact { P with }

theorem positive_loop {j : Job F} (P : Positive { s with call := .idle 0 }) : Positive (loop s j) := by
  unfold loop
  split
  · split
    · exact { P with call := ‹_› }
    · exact { P with call := ‹_› }
  · exact positive_finish P

theorem positive_afterReturn {j : Job F} {stale : Bool} (P : Positive { s with call := .idle 0 }) :
    Positive (afterReturn c s j stale) := by
  unfold afterReturn
  cases stale with
  | false => exact positive_loop P
  | true =>
    simp only [if_true]
    split
    · exact positive_finish { P with }
    · exact positive_loop { P with }

theorem positive_callStep (I : Inv c s) (P : Positive s) (hst : callStep c s s.call = some s') :
    Positive s' := by
  have hc := P.call
  have hcur := I.at_.current
  have hcount := I.at_.count
  cases hu : s.call with
  | idle missing => simp [hu, callStep] at hst
  | phase now total | fault total | raiseEmergency total =>
    rw [hu] at hst
    simp only [callStep, Option.some.injEq, refuse] at hst; subst hst
    try split
    all_goals exact { P with call := trivial }
  | enter now total =>
    rw [hu] at hst
    simp only [callStep, Option.some.injEq, refuse] at hst; subst hst
    split
    · exact { P with call := trivial }
    split
    · exact { P with call := trivial }
    split
    · exact { P with call := trivial }
    · exact { P with call := by simp only [CallPositive]; omega }
  | loadGeneration now total | loadEmergency now total g =>
    rw [hu] at hst hc
    simp only [callStep, Option.some.injEq] at hst; subst hst
    split <;> exact { P with call := hc }
  | storeFrames now total resetting =>
    rw [hu] at hst hc
    simp only [callStep, Option.some.injEq] at hst; subst hst
    exact positive_loop { P with frames := hc, call := trivial }
  | pop j =>
    rw [hu] at hst hc
    have hnone : s.current = none := (hu ▸ I.call : CallOk c s.current (.pop j))
    simp only [callStep] at hst
    split at hst
    · next b ready hb =>
      simp only [Option.some.injEq] at hst; subst hst
      have hready := P.ready
      rw [hb, List.forall_mem_cons] at hready
      exact { P with ready := hready.2, current := by simpa using hready.1, call := hc }
    · simp only [Option.some.injEq] at hst; subst hst
      exact positive_finish { P with current := by simp [hnone], call := trivial }
  | checkGeneration j =>
    rw [hu] at hst hc
    simp only [callStep, Option.map_eq_some_iff] at hst
    obtain ⟨b, hb, rfl⟩ := hst
    split <;> exact { P with call := hc }
  | checkEmergency j =>
    rw [hu] at hst hc
    simp only [callStep, Option.some.injEq] at hst; subst hst
    split <;> exact { P with call := hc }
  | discard j why =>
    rw [hu] at hst hc
    simp only [callStep, Option.map_eq_some_iff] at hst
    obtain ⟨b, hb, rfl⟩ := hst
    exact { P with current := by simp, call := trivial }
  | play j =>
    rw [hu] at hst hc
    simp only [callStep, Option.map_eq_some_iff] at hst
    obtain ⟨b, hb, rfl⟩ := hst
    split
    · exact { P with current := by simp, call := trivial }
    · next hne =>
      have hlt := P.current b hb
      refine positive_loop { P with current := ?_, call := trivial }
      simp only [hb, Option.mem_def, Option.some.injEq, forall_eq']
      omega
  | returnFrames j stale b =>
    rw [hu] at hst
    simp only [callStep, Option.some.injEq] at hst; subst hst
    exact { P with call := P.frames }
  | returnAnchor j stale b frames =>
    rw [hu] at hst hc
    simp only [callStep, Option.some.injEq] at hst; subst hst
    exact { P with call := hc }
  | returnClock j stale b frames previous =>
    rw [hu] at hst hc
    simp only [callStep, Option.some.injEq] at hst; subst hst
    exact { P with call := hc }
  | returnPush j stale b =>
    rw [hu] at hst hc hcur hcount
    have hnone : s.current = none := hcur (by simp [Call.block])
    simp only [callStep, Option.some.injEq] at hst; subst hst
    split
    · refine positive_afterReturn { P with free := ?_, current := by simp [hnone], call := trivial }
      exact List.forall_mem_append.mpr ⟨P.free, List.forall_mem_singleton.mpr hc⟩
    · simp only [Call.block, Option.toList_some, List.length_singleton] at hcount
      omega

theorem positive_step {l : Lbl F} (I : Inv c s) (P : Positive s) (hst : step c s l = some s') :
    Positive s' := by
  cases l with
  | bumpGeneration | setEmergency on | setGate closed | setPhase phase | setAnchor us =>
    simp only [step, Option.some.injEq] at hst; subst hst
    exact { P with }
  | setFrames frames =>
    simp only [step, Option.some.injEq] at hst; subst hst
    split
    · next h => exact { P with frames := h.1 }
    · exact P
  | setFatal code =>
    simp only [step] at hst
    split at hst
    · cases hst
    · simp only [Option.some.injEq] at hst; subst hst
      exact { P with }
  | renderNext now =>
    simp only [step] at hst
    split at hst
    · simp only [Option.some.injEq] at hst; subst hst
      exact { P with rend := by simp [Rend.block] }
    · cases hst
  | rend => exact positive_rendStep I P hst
  | rendered samples generation =>
    have hr := P.rend
    simp only [step] at hst
    split at hst
    · next b hu =>
      rw [hu] at hr
      have hb := hr b rfl
      split at hst
      · split at hst
        · simp only [Option.some.injEq] at hst; subst hst
          exact { P with rend := by simpa [Rend.block] using hb }
        · simp only [Option.some.injEq] at hst; subst hst
          exact { P with pending := by simpa using hb, rend := by simp [Rend.block] }
      · cases hst
    · cases hst
  | copyInto len now =>
    simp only [step] at hst
    split at hst
    · simp only [Option.some.injEq] at hst; subst hst
      exact { P with call := trivial }
    · cases hst
  | call => exact positive_callStep I P hst

theorem positive_init {frames : Nat} (h : channel c frames = .ok s) : Positive s := by
  simp only [channel] at h
  split at h
  · cases h
  · next hok =>
    simp only [not_or] at hok
    have hpos : 0 < frames := Nat.pos_of_ne_zero hok.2.1
    simp only [Except.ok.injEq] at h; subst h
    refine ⟨hpos, ?_, by simp, by simp, by simp [Rend.block], by simp, trivial⟩
    simp only [List.mem_map]
    intro b h
    obtain ⟨i, _, hb⟩ := h
    subst hb
    exact hpos

end Positive

/-! ## Invariant -/

/-- `taken` as it was before a `drain_midi` in progress. -/
def settled (s : PanicSt α) : Nat :=
  match s.drain with
  | .increment n => n
  | _ => s.taken

/-- A block of the current generation has the stamp of the flags settled by now. -/
def Stamped (generation settled : Nat) (b : Block (α × Stamp)) : Prop :=
  ∀ x ∈ b.samples, x.2.generation = b.generation ∧ b.generation ≤ generation ∧
    (b.generation = generation → x.2.flags = settled)

def RendSafe (taken generation : Nat) : Rend (α × Stamp) → Prop
  | .checkGeneration b g | .checkEmergency b g =>
    ∀ x ∈ b.samples, x.2 = ⟨taken, g⟩ ∧ g ≤ generation
  | .addFrames b | .push b => ∀ x ∈ b.samples, x.2 = ⟨taken, b.generation⟩ ∧ b.generation ≤ generation
  | _ => True

def LastFresh (heard : Stamp) (last : Option ((α × Stamp) × Gain)) : Prop :=
  ∀ x ∈ last, x.1.2.Covers heard

/-- What a call may still write is fresh, or will be thrown away. -/
def CallSafe (taken : Nat) (heard : Stamp) (raced : Bool) (s : St (α × Stamp)) : Prop :=
  match s.call with
  | .loadEmergency _ _ g => LastFresh heard s.last ∧ g ≤ heard.generation
  | .checkEmergency _ => ∀ b ∈ s.current, ∀ x ∈ b.samples, x.2.generation = heard.generation ∧
      (raced = false → heard.flags ≤ x.2.flags ∨ taken < heard.flags)
  | .play _ => ∀ b ∈ s.current, ∀ x ∈ b.samples, x.2.Covers heard
  | .discard _ _ => True
  | .returnFrames _ stale _ | .returnAnchor _ stale _ _ | .returnClock _ stale _ _ _
  | .returnPush _ stale _ => stale = false → LastFresh heard s.last
  | _ => LastFresh heard s.last

structure Safe (s : PanicSt α) : Prop where
  emergency : s.base.emergency = true ↔ s.taken < s.flags
  takenFlags : s.taken ≤ s.flags
  heardFlags : s.heard.flags ≤ s.flags
  heardGeneration : s.heard.generation ≤ s.base.generation
  midiGeneration : s.midiGeneration ≤ s.base.generation
  seen : s.base.seenGeneration ≤ s.heard.generation
  drain : (∀ b, s.base.rend ≠ .render b) → s.drain = .entry
  ready : ∀ b ∈ s.base.ready, Stamped s.base.generation (settled s) b
  current : ∀ b ∈ s.base.current, Stamped s.base.generation (settled s) b
  rend : RendSafe s.taken s.base.generation s.base.rend
  call : CallSafe s.taken s.heard s.raced s.base
  aired : ∀ a ∈ s.aired, Fresh a

theorem Stamped.raise {generation settled settled' : Nat} {b : Block (α × Stamp)}
    (h : Stamped generation settled b) : Stamped (generation + 1) settled' b := by
  intro x hx
  obtain ⟨hg, hle, _⟩ := h x hx
  exact ⟨hg, by omega, by omega⟩

theorem RendSafe.raise {taken generation : Nat} {r : Rend (α × Stamp)}
    (h : RendSafe taken generation r) : RendSafe taken (generation + 1) r := by
  cases r with
  | checkGeneration b g | checkEmergency b g | addFrames b | push b =>
    intro x hx
    obtain ⟨hs, hle⟩ := h x hx
    exact ⟨hs, by omega⟩
  | _ => trivial

/-! ## Application and renderer steps -/

/-- The steps of the renderer itself. -/
theorem safe_rendStep {c : Cfg} {s : PanicSt α} {base : St (α × Stamp)} (I : Inv c s.base)
    (S : Safe s) (hst : rendStep c s.base s.base.rend = some base) : Safe { s with base } := by
  have hr := S.rend
  have hdrain : s.drain = .entry := by
    refine S.drain fun b hb => ?_
    simp [hb, rendStep] at hst
  have hwindow : ∀ (t : St (α × Stamp)) now b, Safe { s with base := { t with rend := .idle false } } →
      Safe { s with base := window t now b } := by
    intro t now b h
    unfold window
    split
    · exact { h with }
    · exact { h with drain := fun _ => hdrain }
  have htake : ∀ (t : St (α × Stamp)) now b, Safe { s with base := { t with rend := .idle false } } →
      Safe { s with base := takeBlock t now b } := by
    intro t now b h
    unfold takeBlock
    split
    · exact { h with drain := fun _ => hdrain }
    · exact hwindow t now b h
  cases hu : s.base.rend with
  | idle done => simp [hu, rendStep] at hst
  | phase now | gate now | full now =>
    rw [hu] at hst
    simp only [rendStep, Option.some.injEq] at hst; subst hst
    split <;> exact { S with drain := fun _ => hdrain, rend := trivial }
  | take now =>
    rw [hu] at hst
    have hidle : Safe { s with base := { s.base with rend := .idle false } } :=
      { S with drain := fun _ => hdrain, rend := trivial }
    simp only [rendStep] at hst
    split at hst
    · simp only [Option.some.injEq] at hst; subst hst
      exact htake _ _ _ { hidle with }
    · split at hst
      · simp only [Option.some.injEq] at hst; subst hst
        exact htake _ _ _ { hidle with }
      · simp only [Option.some.injEq] at hst; subst hst
        exact hidle
  | primeFrames now index b =>
    rw [hu] at hst
    simp only [rendStep, Option.some.injEq] at hst; subst hst
    exact { S with drain := fun _ => hdrain, rend := trivial }
  | primeAnchor now index b =>
    rw [hu] at hst
    simp only [rendStep, Option.some.injEq] at hst; subst hst
    exact hwindow _ _ _ { S with drain := fun _ => hdrain, rend := trivial }
  | render b => simp [hu, rendStep] at hst
  | checkGeneration b g | checkEmergency b g =>
    rw [hu] at hst hr
    simp only [rendStep, Option.some.injEq] at hst; subst hst
    split
    · exact { S with drain := fun _ => hdrain, rend := trivial }
    · exact { S with drain := fun _ => hdrain, rend := hr }
  | addFrames b =>
    rw [hu] at hst hr
    simp only [rendStep, Option.some.injEq] at hst; subst hst
    exact { S with drain := fun _ => hdrain, rend := hr }
  | push b =>
    rw [hu] at hst hr
    simp only [rendStep, Option.some.injEq] at hst; subst hst
    split
    · have hb : Stamped s.base.generation (settled s) b := by
        intro x hx
        obtain ⟨hs, hle⟩ := hr x hx
        rw [hs]
        exact ⟨rfl, hle, fun _ => by simp only [settled, hdrain]⟩
      refine { S with ready := ?_, drain := fun _ => hdrain, rend := trivial }
      exact List.forall_mem_append.mpr ⟨S.ready, List.forall_mem_singleton.mpr hb⟩
    · exact { S with drain := fun _ => hdrain, rend := trivial }
  | subFrames b => exact (hu ▸ I.rend : RendOk (.subFrames b)).elim

theorem safe_other {c : Cfg} {s : PanicSt α} {base : St (α × Stamp)} {l : Lbl (α × Stamp)}
    (I : Inv c s.base) (S : Safe s) (hl : unrelated l = true) (hst : step c s.base l = some base) :
    Safe { s with base } := by
  have hc := S.call
  cases l with
  | bumpGeneration | setEmergency on | rendered samples generation | call => cases hl
  | setGate closed | setPhase phase | setAnchor us =>
    simp only [step, Option.some.injEq] at hst; subst hst
    exact { S with }
  | setFrames frames =>
    simp only [step, Option.some.injEq] at hst; subst hst
    split <;> exact { S with }
  | setFatal code =>
    simp only [step] at hst
    split at hst
    · cases hst
    · simp only [Option.some.injEq] at hst; subst hst
      exact { S with }
  | renderNext now =>
    simp only [step] at hst
    split at hst
    · next hu =>
      simp only [Option.some.injEq] at hst; subst hst
      have hdrain : s.drain = .entry := S.drain fun b hb => by rw [hu] at hb; cases hb
      exact { S with drain := fun _ => hdrain, rend := trivial }
    · cases hst
  | rend => exact safe_rendStep I S hst
  | copyInto len now =>
    simp only [step] at hst
    split at hst
    · next hu =>
      simp only [Option.some.injEq] at hst; subst hst
      rw [CallSafe, hu] at hc
      exact { S with call := hc }
    · cases hst

/-! ## Callback steps -/

/-- What a step of the callback does to the blocks it can reach, and what it
writes, once it has observed `heard`. -/
structure Outcome (taken : Nat) (heard : Stamp) (raced : Bool) (s s' : St (α × Stamp)) : Prop where
  rend : s'.rend = s.rend
  generation : s'.generation = s.generation
  ready : ∀ b ∈ s'.ready, b ∈ s.ready
  current : ∀ b ∈ s'.current, b ∈ s.current ∨ b ∈ s.ready
  seen : s'.seenGeneration ≤ heard.generation
  call : CallSafe taken heard raced s'
  writes : ∃ out, written s' = written s ++ out ∧ ∀ o ∈ out, ∀ σ ∈ stampOf o, σ.Covers heard

section Calls

variable {c : Cfg} {taken : Nat} {heard : Stamp} {raced : Bool} {s t : St (α × Stamp)}
  {j : Job (α × Stamp)}

theorem stampOf_fadeOut {last : Option ((α × Stamp) × Gain)} {missing : Nat}
    (h : LastFresh heard last) : ∀ o ∈ fadeOut last missing, ∀ σ ∈ stampOf o, σ.Covers heard := by
  intro o ho σ hσ
  obtain ⟨k, _, rfl⟩ := List.mem_map.mp ho
  cases last with
  | none => cases hσ
  | some x =>
    obtain ⟨x, gain⟩ := x
    cases hσ
    exact h _ rfl

theorem stampOf_playFrom {recovering : Bool} {total : Nat} {xs : List (α × Stamp)}
    (h : ∀ x ∈ xs, x.2.Covers heard) :
    ∀ k, ∀ o ∈ playFrom recovering total k xs, ∀ σ ∈ stampOf o, σ.Covers heard := by
  induction xs with
  | nil => exact fun _ _ ho => absurd ho List.not_mem_nil
  | cons x xs ih =>
    intro k o ho σ hσ
    rw [List.forall_mem_cons] at h
    rcases List.mem_cons.mp ho with rfl | ho
    · cases hσ
      exact h.1
    · exact ih h.2 (k + 1) o ho σ hσ

/-- After something was played the last sample is one of it. -/
theorem last_playFrom {last : Option ((α × Stamp) × Gain)} {recovering : Bool} {total k : Nat}
    {xs : List (α × Stamp)} (hne : xs ≠ []) (h : ∀ x ∈ xs, x.2.Covers heard) :
    LastFresh heard (lastOf last (playFrom recovering total k xs)) := by
  have hfresh := @stampOf_playFrom α heard recovering total xs h k
  unfold lastOf
  cases hl : (playFrom recovering total k xs).getLast? with
  | none =>
    rw [List.getLast?_eq_none_iff] at hl
    cases xs with
    | nil => exact absurd rfl hne
    | cons x xs => cases hl
  | some o =>
    have ho := hfresh o (List.mem_of_getLast? hl)
    have hshape : ∃ x gain, o = .sample x gain := by
      have := List.mem_of_getLast? hl
      clear hl hfresh ho hne h
      induction xs generalizing k with
      | nil => cases this
      | cons x xs ih =>
        rcases List.mem_cons.mp this with rfl | hm
        · exact ⟨_, _, rfl⟩
        · exact ih hm
    obtain ⟨x, gain, rfl⟩ := hshape
    intro y hy
    cases hy
    exact ho _ rfl

/-- A call that writes nothing more than the rest of its buffer. -/
theorem outcome_finish (O : Outcome taken heard raced t { s with call := .pop j }) :
    Outcome taken heard raced t (finish s j) := by
  have hlast : LastFresh heard s.last := O.call
  obtain ⟨out, hw, hout⟩ := O.writes
  have hw : s.output.flatten ++ j.data = written t ++ out := hw
  simp only [finish]
  split
  · refine { O with
      call := (fun _ h => by cases h)
      writes := ⟨out ++ fadeOut s.last (j.total - j.written), ?_, ?_⟩ }
    · show (s.output ++ [j.data ++ fadeOut s.last (j.total - j.written)]).flatten ++ [] = _
      rw [← List.append_assoc, ← hw]
      simp
    · exact List.forall_mem_append.mpr ⟨hout, stampOf_fadeOut hlast⟩
  · refine { O with call := hlast, writes := ⟨out, ?_, hout⟩ }
    show (s.output ++ [j.data]).flatten ++ [] = _
    rw [← hw]
    simp

theorem outcome_loop (O : Outcome taken heard raced t { s with call := .pop j }) :
    Outcome taken heard raced t (loop s j) := by
  unfold loop
  split
  · split
    · exact O
    · exact { O with call := O.call, writes := O.writes }
  · exact outcome_finish O

theorem outcome_afterReturn {stale : Bool}
    (O : Outcome taken heard raced t { s with last := none, call := .pop j })
    (h : stale = false → Outcome taken heard raced t { s with call := .pop j }) :
    Outcome taken heard raced t (afterReturn c s j stale) := by
  unfold afterReturn
  cases stale with
  | false => exact outcome_loop (h rfl)
  | true =>
    simp only [if_true]
    split
    · exact outcome_finish { O with call := nofun, writes := O.writes }
    · exact outcome_loop { O with call := nofun, writes := O.writes }

end Calls

theorem stampOf_silence {heard : Stamp} (total : Nat) :
    ∀ o ∈ (List.replicate total Out.silence : List (Out (α × Stamp))), ∀ σ ∈ stampOf o, σ.Covers heard := by
  intro o ho σ hσ
  rw [List.eq_of_mem_replicate ho] at hσ
  cases hσ

section Calls

variable {taken : Nat} {heard : Stamp} {raced : Bool} {s s' : St (α × Stamp)}

/-- A step that moves no block and writes nothing. -/
theorem outcome_stay (hr : s'.rend = s.rend) (hg : s'.generation = s.generation)
    (hready : s'.ready = s.ready) (hcurrent : s'.current = s.current) (hout : s'.output = s.output)
    (hdata : s'.call.data = s.call.data) (hseen : s'.seenGeneration ≤ heard.generation)
    (hcall : CallSafe taken heard raced s') : Outcome taken heard raced s s' :=
  ⟨hr, hg, fun _ h => hready ▸ h, fun _ h => .inl (hcurrent ▸ h), hseen, hcall, [],
    by rw [written, written, hout, hdata, List.append_nil], nofun⟩

theorem outcome_refuse {total missing : Nat} (hdata : s.call.data = [])
    (hlast : LastFresh heard s.last) (hseen : s.seenGeneration ≤ heard.generation) :
    Outcome taken heard raced s (refuse s total missing) := by
  refine ⟨rfl, rfl, fun _ h => h, fun _ h => .inl h, hseen, hlast,
    List.replicate total Out.silence, ?_, stampOf_silence total⟩
  show (s.output ++ [List.replicate total Out.silence]).flatten ++ [] = s.output.flatten ++ s.call.data ++ _
  rw [hdata]
  simp

end Calls

/-- What the frames of the current block are worth once its generation was
found current. -/
theorem checked_block {s : PanicSt α} {b : Block (α × Stamp)} (S : Safe s)
    (hb : s.base.current = some b) (hg : b.generation = s.base.generation) :
    ∀ x ∈ b.samples, x.2.generation = s.base.generation ∧
      ((match s.drain with
        | .increment n => decide (n < s.heard.flags)
        | _ => false) = false → s.heard.flags ≤ x.2.flags ∨ s.taken < s.heard.flags) := by
  intro x hx
  obtain ⟨hxg, _, hflags⟩ := S.current b hb x hx
  have hf := hflags hg
  refine ⟨hxg.trans hg, fun hn => ?_⟩
  unfold settled at hf
  split at hf
  · next n hd =>
    simp only [hd, decide_eq_false_iff_not] at hn
    omega
  · omega

/-- One step of the callback, for each of its program counters. -/
theorem outcome_callStep {c : Cfg} {s : PanicSt α} {base : St (α × Stamp)} (I : Inv c s.base)
    (P : Positive s.base) (S : Safe s)
    (hraced : checking s.base.call = true → s.base.emergency = false → s.raced = false)
    (hst : callStep c s.base s.base.call = some base) :
    Outcome s.taken (hear s) (racedAt s) s.base base := by
  have hc := S.call
  have hseen := S.seen
  have hgen := S.heardGeneration
  cases hu : s.base.call with
  | idle missing => simp [hu, callStep] at hst
  | phase now total =>
    rw [CallSafe, hu] at hc
    rw [hu] at hst
    have hh : hear s = s.heard := by simp only [hear, hu]
    simp only [callStep, Option.some.injEq] at hst; subst hst
    rw [hh]
    split
    · exact outcome_refuse (by rw [hu]; rfl) hc hseen
    · exact outcome_stay rfl rfl rfl rfl rfl (by rw [hu]; rfl) hseen hc
  | enter now total =>
    rw [CallSafe, hu] at hc
    rw [hu] at hst
    have hh : hear s = s.heard := by simp only [hear, hu]
    have hrefuse : ∀ n, Outcome s.taken s.heard (racedAt s) s.base (refuse s.base total n) :=
      fun n => outcome_refuse (by rw [hu]; rfl) hc hseen
    simp only [callStep, Option.some.injEq] at hst; subst hst
    rw [hh]
    split
    · exact { hrefuse 0 with call := hc, writes := (hrefuse 0).writes }
    split
    · exact outcome_stay rfl rfl rfl rfl rfl (by rw [hu]; rfl) hseen hc
    split
    · exact hrefuse 0
    · exact outcome_stay rfl rfl rfl rfl rfl (by rw [hu]; rfl) hseen hc
  | fault total =>
    rw [CallSafe, hu] at hc
    rw [hu] at hst
    have hh : hear s = s.heard := by simp only [hear, hu]
    simp only [callStep, Option.some.injEq] at hst; subst hst
    rw [hh]
    exact outcome_stay rfl rfl rfl rfl rfl (by rw [hu]; rfl) hseen hc
  | raiseEmergency total =>
    rw [CallSafe, hu] at hc
    rw [hu] at hst
    have hh : hear s = s.heard := by simp only [hear, hu]
    have hrefuse : Outcome s.taken s.heard (racedAt s) s.base (refuse s.base total total) :=
      outcome_refuse (by rw [hu]; rfl) hc hseen
    simp only [callStep, Option.some.injEq] at hst; subst hst
    rw [hh]
    exact { hrefuse with call := hc, writes := hrefuse.writes }
  | loadGeneration now total =>
    rw [CallSafe, hu] at hc
    rw [hu] at hst
    have hh : hear s = { s.heard with generation := s.base.generation } := by simp only [hear, hu]
    simp only [callStep, Option.some.injEq] at hst; subst hst
    rw [hh]
    split
    · exact outcome_stay rfl rfl rfl rfl rfl (by rw [hu]; rfl) (Nat.le_refl _) (fun _ h => by cases h)
    · next heq =>
      -- the generation is the one the last call saw: nothing new is observed
      have hsame : ({ s.heard with generation := s.base.generation } : Stamp) = s.heard := by
        have : s.base.generation = s.heard.generation := by
          simp only [ne_eq, Decidable.not_not] at heq
          omega
        rw [this]
      rw [hsame]
      refine outcome_stay rfl rfl rfl rfl rfl (by rw [hu]; rfl) hseen ⟨hc, ?_⟩
      simp only [ne_eq, Decidable.not_not] at heq
      omega
  | loadEmergency now total g =>
    rw [CallSafe, hu] at hc
    obtain ⟨hlast, hg⟩ := hc
    rw [hu] at hst
    simp only [callStep, Option.some.injEq] at hst; subst hst
    split
    · next he =>
      have hh : hear s = { s.heard with flags := s.flags } := by simp only [hear, hu, he, if_true]
      rw [hh]
      exact outcome_stay rfl rfl rfl rfl rfl (by rw [hu]; rfl) hg (fun _ h => by cases h)
    · next he =>
      have hh : hear s = s.heard := by simp only [hear, hu, he]; rfl
      rw [hh]
      exact outcome_stay rfl rfl rfl rfl rfl (by rw [hu]; rfl) hg hlast
  | storeFrames now total resetting =>
    rw [CallSafe, hu] at hc
    rw [hu] at hst
    have hh : hear s = s.heard := by simp only [hear, hu]
    simp only [callStep, Option.some.injEq] at hst; subst hst
    rw [hh]
    exact outcome_loop (outcome_stay rfl rfl rfl rfl rfl (by rw [hu]; rfl) hseen hc)
  | pop j =>
    rw [CallSafe, hu] at hc
    rw [hu] at hst
    have hh : hear s = s.heard := by simp only [hear, hu]
    simp only [callStep] at hst
    rw [hh]
    split at hst
    · next b ready hb =>
      simp only [Option.some.injEq] at hst; subst hst
      refine ⟨rfl, rfl, fun x hx => hb ▸ List.mem_cons_of_mem _ hx, ?_, hseen, hc, [], ?_, (by simp)⟩
      · intro x hx
        cases hx
        exact .inr (hb ▸ List.mem_cons_self)
      · simp [written, hu, Call.data]
    · simp only [Option.some.injEq] at hst; subst hst
      exact outcome_finish (outcome_stay rfl rfl rfl rfl rfl (by rw [hu]) hseen hc)
  | checkGeneration j =>
    rw [CallSafe, hu] at hc
    rw [hu] at hst
    have hh : hear s = { s.heard with generation := s.base.generation } := by simp only [hear, hu]
    simp only [callStep, Option.map_eq_some_iff] at hst
    obtain ⟨b, hb, rfl⟩ := hst
    rw [hh]
    split
    · exact outcome_stay rfl rfl rfl rfl rfl (by rw [hu]; rfl) (Nat.le_trans hseen hgen) trivial
    · next heq =>
      simp only [ne_eq, Decidable.not_not] at heq
      refine outcome_stay rfl rfl rfl rfl rfl (by rw [hu]; rfl) (Nat.le_trans hseen hgen) ?_
      intro b' hb' x hx
      cases hb.symm.trans hb'
      obtain ⟨hxg, hxf⟩ := checked_block S hb heq x hx
      refine ⟨hxg, fun hn => hxf ?_⟩
      simp only [racedAt, hu] at hn
      split at hn <;> simp_all
  | checkEmergency j =>
    rw [CallSafe, hu] at hc
    rw [hu] at hst
    simp only [callStep, Option.some.injEq] at hst; subst hst
    by_cases he : s.base.emergency = true
    · have hh : hear s = { s.heard with flags := s.flags } := by simp only [hear, hu, he, if_true]
      rw [hh, if_pos he]
      exact outcome_stay rfl rfl rfl rfl rfl (by rw [hu]; rfl) hseen trivial
    · have hh : hear s = s.heard := by simp only [hear, hu, he]; rfl
      rw [hh, if_neg he]
      refine outcome_stay rfl rfl rfl rfl rfl (by rw [hu]; rfl) hseen ?_
      intro b hb x hx
      obtain ⟨hxg, hxf⟩ := hc b hb x hx
      have hn : s.raced = false := hraced (by rw [hu]; rfl) (Bool.eq_false_iff.mpr he)
      -- the flag is clear, so every set flag was taken
      have htaken := S.emergency.not.mp he
      have := S.heardFlags
      exact ⟨by have := hxf hn; omega, by omega⟩
  | discard j why =>
    rw [hu] at hst
    have hh : hear s = s.heard := by simp only [hear, hu]
    simp only [callStep, Option.map_eq_some_iff] at hst
    obtain ⟨b, hb, rfl⟩ := hst
    rw [hh]
    exact ⟨rfl, rfl, fun _ h => h, (by simp), hseen, (fun h => by cases h), [],
      by simp [written, hu, Call.data], (by simp)⟩
  | play j =>
    have hpos := P.call
    rw [CallSafe, hu] at hc
    rw [hu] at hst hpos
    have hh : hear s = s.heard := by simp only [hear, hu]
    simp only [callStep, Option.map_eq_some_iff] at hst
    obtain ⟨b, hb, rfl⟩ := hst
    rw [hh]
    obtain ⟨_, hlen, _⟩ := I.at_.reading b hb
    have hlt := P.current b hb
    have hpos : j.written < j.total := hpos
    generalize htake : min (b.request.frames - s.base.offset) (j.total - j.written) = take
    generalize hxs : (b.samples.drop s.base.offset).take take = xs
    have hmem : ∀ x ∈ xs, x.2.Covers s.heard := by
      intro x hx
      rw [← hxs] at hx
      exact hc b hb x (List.mem_of_mem_drop (List.mem_of_mem_take hx))
    -- something is left of the block and of the buffer
    have hne : xs ≠ [] := by
      rw [← hxs, ← List.length_pos_iff, List.length_take, List.length_drop, hlen]
      omega
    have hlast : LastFresh s.heard
        (lastOf s.base.last (playFrom s.base.recovering j.total j.written xs)) :=
      last_playFrom hne hmem
    have hwrites : ∃ out, s.base.output.flatten ++ (j.data ++ playFrom s.base.recovering j.total
        j.written xs) = written s.base ++ out ∧ ∀ o ∈ out, ∀ σ ∈ stampOf o, σ.Covers s.heard := by
      refine ⟨playFrom s.base.recovering j.total j.written xs, ?_, stampOf_playFrom hmem j.written⟩
      simp [written, hu, Call.data]
    split
    · exact ⟨rfl, rfl, fun _ h => h, (by simp), hseen, fun _ => hlast, hwrites⟩
    · exact outcome_loop ⟨rfl, rfl, fun _ h => h, fun _ h => .inl h, hseen, hlast, hwrites⟩
  | returnFrames j stale b | returnAnchor j stale b frames | returnClock j stale b frames previous =>
    rw [CallSafe, hu] at hc
    rw [hu] at hst
    have hh : hear s = s.heard := by simp only [hear, hu]
    simp only [callStep, Option.some.injEq] at hst; subst hst
    rw [hh]
    exact outcome_stay rfl rfl rfl rfl rfl (by rw [hu]; rfl) hseen hc
  | returnPush j stale b =>
    have hcount := I.at_.count
    rw [CallSafe, hu] at hc
    rw [hu] at hst hcount
    have hh : hear s = s.heard := by simp only [hear, hu]
    simp only [callStep, Option.some.injEq] at hst; subst hst
    rw [hh]
    split
    · refine outcome_afterReturn ?_ fun hs => ?_
      · exact outcome_stay rfl rfl rfl rfl rfl (by rw [hu]; rfl) hseen (fun _ h => by cases h)
      · exact outcome_stay rfl rfl rfl rfl rfl (by rw [hu]; rfl) hseen (hc hs)
    · simp only [Call.block, Option.toList_some, List.length_singleton] at hcount
      omega

theorem emergency_callStep {F : Type} {c : Cfg} {s s' : St F} (hst : callStep c s s.call = some s')
    (h : ∀ total, s.call ≠ .raiseEmergency total) : s'.emergency = s.emergency := by
  have hfinish : ∀ (t : St F) j, (finish t j).emergency = t.emergency := by
    intro t j
    simp only [finish]
    split <;> rfl
  have hloop : ∀ (t : St F) j, (loop t j).emergency = t.emergency := by
    intro t j
    unfold loop
    split
    · rfl
    · exact hfinish t j
  have hafter : ∀ (t : St F) j stale, (afterReturn c t j stale).emergency = t.emergency := by
    intro t j stale
    unfold afterReturn
    split
    · dsimp only
      split
      · exact hfinish _ _
      · exact hloop _ _
    · exact hloop t j
  cases hu : s.call with
  | idle missing => simp [hu, callStep] at hst
  | raiseEmergency total => exact absurd hu (h total)
  | phase now total | enter now total | loadGeneration now total | loadEmergency now total g =>
    simp only [hu, callStep, Option.some.injEq, refuse] at hst; subst hst
    repeat' split
    all_goals rfl
  | fault total | checkEmergency j | returnFrames j stale b | returnAnchor j stale b frames
  | returnClock j stale b frames previous =>
    simp only [hu, callStep, Option.some.injEq] at hst; subst hst
    rfl
  | storeFrames now total resetting =>
    simp only [hu, callStep, Option.some.injEq] at hst; subst hst
    exact hloop _ _
  | pop j =>
    simp only [hu, callStep] at hst
    split at hst
    · simp only [Option.some.injEq] at hst; subst hst; rfl
    · simp only [Option.some.injEq] at hst; subst hst; exact hfinish _ _
  | checkGeneration j | discard j why =>
    simp only [hu, callStep, Option.map_eq_some_iff] at hst
    obtain ⟨b, hb, rfl⟩ := hst
    try split
    all_goals rfl
  | play j =>
    simp only [hu, callStep, Option.map_eq_some_iff] at hst
    obtain ⟨b, hb, rfl⟩ := hst
    split
    · rfl
    · exact hloop _ _
  | returnPush j stale b =>
    simp only [hu, callStep, Option.some.injEq] at hst; subst hst
    split
    · exact hafter _ _ _
    · exact hfinish _ _

theorem safe_call {c : Cfg} {s s' : PanicSt α} (I : Inv c s.base) (P : Positive s.base)
    (S : Safe s) (hraced : Unraced s .call) (hst : callPanic c s = some s') : Safe s' := by
  obtain ⟨base, hcall, rfl⟩ := Option.map_eq_some_iff.mp hst
  have O := outcome_callStep I P S hraced hcall
  obtain ⟨out, hw, hout⟩ := O.writes
  have hgen := S.heardGeneration
  have hflags := S.heardFlags
  have hem : (base.emergency = true ↔ s.taken < (match s.base.call with
      | .raiseEmergency _ => s.flags + 1
      | _ => s.flags)) ∧ s.flags ≤ (match s.base.call with
      | .raiseEmergency _ => s.flags + 1
      | _ => s.flags) := by
    have hsame := S.emergency
    have htaken := S.takenFlags
    split
    · next hu =>
      simp only [hu, callStep, Option.some.injEq, refuse] at hcall
      subst hcall
      simp only [true_iff]
      omega
    · next hne =>
      refine ⟨?_, Nat.le_refl _⟩
      rw [emergency_callStep hcall fun total hu => hne total hu]
      exact hsame
  have hheard : (hear s).flags ≤ s.flags ∧ (hear s).generation ≤ s.base.generation := by
    unfold hear
    split
    · exact ⟨hflags, Nat.le_refl _⟩
    · exact ⟨hflags, Nat.le_refl _⟩
    · split
      · exact ⟨Nat.le_refl _, hgen⟩
      · exact ⟨hflags, hgen⟩
    · split
      · exact ⟨Nat.le_refl _, hgen⟩
      · exact ⟨hflags, hgen⟩
    · exact ⟨hflags, hgen⟩
  refine {
    emergency := hem.1, takenFlags := Nat.le_trans S.takenFlags hem.2
    heardFlags := Nat.le_trans hheard.1 hem.2
    heardGeneration := O.generation ▸ hheard.2, midiGeneration := O.generation ▸ S.midiGeneration
    seen := O.seen, drain := ?_, ready := ?_, current := ?_, rend := ?_, call := O.call, aired := ?_ }
  · exact fun h => S.drain (O.rend ▸ h)
  · intro b hb
    rw [O.generation]
    exact S.ready b (O.ready b hb)
  · intro b hb
    rw [O.generation]
    rcases O.current b hb with h | h
    · exact S.current b h
    · exact S.ready b h
  · show RendSafe s.taken base.generation base.rend
    rw [O.generation, O.rend]
    exact S.rend
  · dsimp only
    rw [hw, List.drop_left]
    refine List.forall_mem_append.mpr ⟨S.aired, ?_⟩
    intro a ha
    obtain ⟨o, ho, rfl⟩ := List.mem_map.mp ha
    exact hout o ho

theorem safe_step {c : Cfg} {s s' : PanicSt α} {l : PanicLbl α} (I : Inv c s.base)
    (P : Positive s.base) (S : Safe s) (hraced : Unraced s l) (hst : panicStep c s l = some s') :
    Safe s' := by
  have hle := S.takenFlags
  have hheard := S.heardFlags
  have hgen := S.heardGeneration
  have hmidi := S.midiGeneration
  cases l with
  | other l =>
    simp only [panicStep] at hst
    split at hst
    · next hl =>
      obtain ⟨base, hb, rfl⟩ := Option.map_eq_some_iff.mp hst
      exact safe_other I S hl hb
    · cases hst
  | panicFlag =>
    simp only [panicStep, Option.some.injEq] at hst; subst hst
    exact { S with emergency := by simp only [true_iff]; omega, takenFlags := by dsimp only; omega,
                   heardFlags := by dsimp only; omega }
  | panicGeneration =>
    simp only [panicStep, Option.some.injEq] at hst; subst hst
    exact { S with heardGeneration := by dsimp only; omega, midiGeneration := by dsimp only; omega,
                   ready := fun b hb => (S.ready b hb).raise,
                   current := fun b hb => (S.current b hb).raise, rend := S.rend.raise }
  | swap =>
    simp only [panicStep] at hst
    split at hst
    · next b hu hd =>
      have hset : settled s = s.taken := by simp only [settled, hd]
      split at hst
      · next he =>
        simp only [Option.some.injEq] at hst; subst hst
        have hc := S.call
        refine { S with emergency := by simp, takenFlags := Nat.le_refl _,
                        drain := fun h => absurd hu (h b), ready := ?_, current := ?_,
                        rend := by rw [hu]; trivial, call := ?_ }
        · exact fun b hb => hset ▸ S.ready b hb
        · exact fun b hb => hset ▸ S.current b hb
        · cases hcall : s.base.call with
          | checkEmergency j =>
            rw [CallSafe, hcall] at hc
            intro b hb x hx
            obtain ⟨hg, hf⟩ := hc b hb x hx
            refine ⟨hg, fun hn => .inl ?_⟩
            simp only [checking, Bool.true_and, Bool.or_eq_false_iff, decide_eq_false_iff_not] at hn
            have := hf hn.1
            show s.heard.flags ≤ x.2.flags
            omega
          | _ =>
            rw [CallSafe, hcall] at hc
            exact hc
      · next he =>
        simp only [Option.some.injEq] at hst; subst hst
        exact { S with drain := fun h => absurd hu (h b), ready := fun b hb => hset ▸ S.ready b hb,
                       current := fun b hb => hset ▸ S.current b hb }
    · cases hst
  | increment =>
    simp only [panicStep] at hst
    split at hst
    · next n hd =>
      simp only [Option.some.injEq] at hst; subst hst
      refine { S with heardGeneration := by dsimp only; omega, midiGeneration := by dsimp only; omega,
                      drain := ?_, ready := fun b hb => (S.ready b hb).raise,
                      current := fun b hb => (S.current b hb).raise, rend := S.rend.raise }
      intro h
      have := S.drain h
      rw [hd] at this
      cases this
    · cases hst
  | observe =>
    have hdrain : s.drain = .observe ∨ s.drain = .drained → Safe { s with
        midiGeneration := s.base.generation, drain := .drained } := by
      intro hd
      have hset : settled s = s.taken := by rcases hd with hd | hd <;> simp only [settled, hd]
      refine { S with midiGeneration := Nat.le_refl _, drain := ?_,
                      ready := fun b hb => hset ▸ S.ready b hb,
                      current := fun b hb => hset ▸ S.current b hb }
      intro h
      have := S.drain h
      rcases hd with hd | hd <;> rw [hd] at this <;> cases this
    simp only [panicStep] at hst
    split at hst
    · next hd => simp only [Option.some.injEq] at hst; subst hst; exact hdrain (.inl hd)
    · next hd => simp only [Option.some.injEq] at hst; subst hst; exact hdrain (.inr hd)
    · cases hst
  | rendered samples =>
    simp only [panicStep] at hst
    split at hst
    · next hd =>
      have hset : settled s = s.taken := by simp only [settled, hd]
      obtain ⟨base, hb, rfl⟩ := Option.map_eq_some_iff.mp hst
      simp only [step] at hb
      split at hb
      · split at hb
        · simp only [Option.some.injEq] at hb; subst hb
          refine { S with drain := fun _ => rfl, ready := fun b hb => hset ▸ S.ready b hb,
                          current := fun b hb => hset ▸ S.current b hb, rend := ?_ }
          intro x hx
          obtain ⟨y, _, rfl⟩ := List.mem_map.mp hx
          exact ⟨rfl, hmidi⟩
        · cases hb
      · cases hb
    · cases hst
  | notRendered samples =>
    have hdrain : s.drain = .entry ∨ s.drain = .drained → ∀ base,
        step c s.base (.rendered (samples.map (·, ⟨s.taken, s.midiGeneration⟩)) none) = some base →
        Safe { s with base, drain := .entry } := by
      intro hd base hb
      have hset : settled s = s.taken := by rcases hd with hd | hd <;> simp only [settled, hd]
      simp only [step] at hb
      split at hb
      · split at hb
        · simp only [Option.some.injEq] at hb; subst hb
          exact { S with drain := fun _ => rfl, ready := fun b hb => hset ▸ S.ready b hb,
                         current := fun b hb => hset ▸ S.current b hb, rend := trivial }
        · cases hb
      · cases hb
    simp only [panicStep] at hst
    split at hst
    · next hd =>
      obtain ⟨base, hb, rfl⟩ := Option.map_eq_some_iff.mp hst
      exact hdrain (.inl hd) base hb
    · next hd =>
      obtain ⟨base, hb, rfl⟩ := Option.map_eq_some_iff.mp hst
      exact hdrain (.inr hd) base hb
    · cases hst
  | call => exact safe_call I P S hraced hst

/-- Steps of `panicStep` are steps of `RenderAhead` or leave its state alone. -/
theorem base_step {c : Cfg} {s s' : PanicSt α} {l : PanicLbl α} (hst : panicStep c s l = some s') :
    s'.base = s.base ∨ ∃ l', step c s.base l' = some s'.base := by
  cases l with
  | other l =>
    simp only [panicStep] at hst
    split at hst
    · obtain ⟨base, hb, rfl⟩ := Option.map_eq_some_iff.mp hst
      exact .inr ⟨l, hb⟩
    · cases hst
  | panicFlag =>
    simp only [panicStep, Option.some.injEq] at hst; subst hst
    exact .inr ⟨.setEmergency true, rfl⟩
  | panicGeneration =>
    simp only [panicStep, Option.some.injEq] at hst; subst hst
    exact .inr ⟨.bumpGeneration, rfl⟩
  | swap =>
    simp only [panicStep] at hst
    split at hst
    · split at hst
      · simp only [Option.some.injEq] at hst; subst hst
        exact .inr ⟨.setEmergency false, rfl⟩
      · simp only [Option.some.injEq] at hst; subst hst
        exact .inl rfl
    · cases hst
  | increment =>
    simp only [panicStep] at hst
    split at hst
    · simp only [Option.some.injEq] at hst; subst hst
      exact .inr ⟨.bumpGeneration, rfl⟩
    · cases hst
  | observe =>
    simp only [panicStep] at hst
    split at hst
    · simp only [Option.some.injEq] at hst; subst hst; exact .inl rfl
    · simp only [Option.some.injEq] at hst; subst hst; exact .inl rfl
    · cases hst
  | rendered samples =>
    simp only [panicStep] at hst
    split at hst
    · obtain ⟨base, hb, rfl⟩ := Option.map_eq_some_iff.mp hst
      exact .inr ⟨_, hb⟩
    · cases hst
  | notRendered samples =>
    simp only [panicStep] at hst
    split at hst
    · obtain ⟨base, hb, rfl⟩ := Option.map_eq_some_iff.mp hst
      exact .inr ⟨_, hb⟩
    · obtain ⟨base, hb, rfl⟩ := Option.map_eq_some_iff.mp hst
      exact .inr ⟨_, hb⟩
    · cases hst
  | call =>
    obtain ⟨base, hb, rfl⟩ := Option.map_eq_some_iff.mp hst
    exact .inr ⟨.call, hb⟩

/-- The pool's own invariant carries over. -/
theorem base_inductive (α : Type) (c : Cfg) :
    (panicLts α c).Inductive fun s => Inv c s.base ∧ Positive s.base where
  init := by
    intro s ⟨⟨frames, h⟩, _⟩
    exact ⟨(inv_inductive (α × Stamp) c).init s.base ⟨frames, h⟩, positive_init h⟩
  step := by
    intro s l s' ⟨I, P⟩ hst
    rcases base_step hst with h | ⟨l', h⟩
    · rw [h]
      exact ⟨I, P⟩
    · exact ⟨inv_step I h, positive_step I P h⟩

theorem safe_init {c : Cfg} {s : PanicSt α} (h : (panicLts α c).init s) : Safe s := by
  obtain ⟨⟨frames, hch⟩, hd, hm, hf, ht, hh, hr, ha⟩ := h
  simp only [channel] at hch
  split at hch
  · cases hch
  · simp only [Except.ok.injEq] at hch
    refine ⟨?_, by omega, by rw [hh]; exact Nat.zero_le _, by rw [hh]; exact Nat.zero_le _, by omega,
      ?_, fun _ => hd, ?_, ?_, ?_, ?_, by simp [ha]⟩
    all_goals rw [← hch]
    · simp [hf, ht]
    · exact Nat.zero_le _
    · intro b hb; cases hb
    · intro b hb; cases hb
    · trivial
    · intro b hb; cases hb

/-- The steps that meet `Unraced` keep everything aired fresh. -/
theorem safe_inductive (α : Type) (c : Cfg) :
    ((panicLts α c).restrict Unraced).InductiveUnder (fun s => Inv c s.base ∧ Positive s.base) Safe where
  init _ h := safe_init h
  step _ _ _ J S hst := safe_step J.1 J.2 S hst.1 hst.2

/-! ## Headline property -/

/-- No stale audio after a panic: whatever the callback has written, sample or
fade, comes from a render no older than the panics it had observed, as long as
no flag is read clear for a block whose generation was read before the end of
a `drain_midi` that took an observed flag. -/
theorem no_stale_audio (α : Type) (c : Cfg) (s : PanicSt α)
    (h : ((panicLts α c).restrict Unraced).Reachable s) : ∀ a ∈ s.aired, Fresh a :=
  ((safe_inductive α c).reachable ((base_inductive α c).restrict Unraced) s h).aired

/-! ## A panic between two blocks -/

instance (a : Out (α × Stamp) × Stamp) : Decidable (Fresh a) :=
  inferInstanceAs (Decidable (∀ σ ∈ stampOf a.1, a.2.flags ≤ σ.flags ∧ a.2.generation ≤ σ.generation))

instance (s : PanicSt α) : (l : PanicLbl α) → Decidable (Unraced s l)
  | .call => inferInstanceAs (Decidable (checking s.base.call = true → s.base.emergency = false →
      s.raced = false))
  | .other _ | .panicFlag | .panicGeneration | .swap | .increment | .observe | .rendered _
  | .notRendered _ => isTrue trivial

def quiet : PanicSt Nat :=
  { base := { phase := 0, anchorUs := 0, frames := 2, generation := 0, emergency := false,
              gateClosed := false, fatal := 0, queueFrames := 0, ready := [],
              free := [⟨[], ⟨2, 0⟩, 0, some 0⟩, ⟨[], ⟨2, 0⟩, 0, some 1⟩],
              pending := none, waitingForSource := false, rend := .idle false, current := none,
              offset := 0, last := none, recovering := false, lastEndpoint := 0,
              seenGeneration := 0, call := .idle 0, verdicts := [], log := [], output := [] }
    drain := .entry, midiGeneration := 0, flags := 0, taken := 0, heard := ⟨0, 0⟩, raced := false,
    aired := [] }

theorem quiet_init : (panicLts Nat cfg2).init quiet := ⟨⟨2, rfl⟩, rfl, rfl, rfl, rfl, rfl, rfl, rfl⟩

def rends (n : Nat) : List (PanicLbl Nat) := List.replicate n (.other .rend)

def calls (n : Nat) : List (PanicLbl Nat) := List.replicate n .call

/-- `render_next_at` up to the render closure. -/
def toRender : List (PanicLbl Nat) := .other (.renderNext 100000) :: rends 6

/-- One block is queued, the next is about to be rendered, and the flag is set. -/
def traceQueued : List (PanicLbl Nat) :=
  List.flatten [[.other (.setAnchor 100000), .other (.setPhase 1)], toRender,
    [.swap, .observe, .rendered [1, 2]], rends 4, toRender, [.other (.setPhase 2), .panicFlag]]

/-- The callback sees the flag set and reads the block's generation;
`drain_midi` swaps the flag; the callback reads it clear. -/
def traceRaced : List (PanicLbl Nat) :=
  List.flatten [traceQueued, [.other (.copyInto 2 102000)], calls 7, [.swap, .increment], calls 2]

/-- `copy_into` observes the panic and plays the block rendered before it. -/
theorem stale_block_played : ∃ s, (panicLts Nat cfg2).Reachable s ∧
    s.aired.any (fun a => decide ¬Fresh a) = true :=
  LTS.reachable_of_any traceRaced quiet_init (by decide +kernel)

/-- The callback sees the flag set and throws the block away; `drain_midi`
takes the flag, and the next call plays the block rendered after that. -/
def traceAnswered : List (PanicLbl Nat) :=
  List.flatten [traceQueued, [.other (.copyInto 2 102000)], calls 14,
    [.swap, .increment, .observe, .rendered [3, 4]], rends 4, [.other (.copyInto 2 104000)], calls 12]

theorem answered_panic_fresh : ∃ s : PanicSt Nat, (∀ a ∈ s.aired, Fresh a) ∧
    (⟨.sample (3, ⟨1, 1⟩) (some (1, 2)), ⟨1, 1⟩⟩ ∈ s.aired) := by
  have hrun : ∃ s, ((panicLts Nat cfg2).restrict Unraced).Reachable s ∧
      decide (((.sample (3, ⟨1, 1⟩) (some (1, 2)), ⟨1, 1⟩) : Out (Nat × Stamp) × Stamp) ∈ s.aired) =
        true :=
    LTS.reachable_of_anyOk traceAnswered quiet_init (by decide +kernel)
  obtain ⟨s, hr, hs⟩ := hrun
  exact ⟨s, no_stale_audio Nat cfg2 s hr, of_decide_eq_true hs⟩

end RtpOscMidi.L5.RenderPanic
