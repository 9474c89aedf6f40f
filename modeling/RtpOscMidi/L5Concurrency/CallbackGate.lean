import RtpOscMidi.Core.LTS
import RtpOscMidi.Core.Lists
import RtpOscMidi.Core.Words

/-!
# Audio maintenance

`begin_maintenance` takes the plugin away from the audio callback: it sets
the maintenance flag, closes the callback gate of the current stream and
waits until the callbacks inside have left. The guard it returns opens that
gate again and clears the flag when it is dropped, on whatever thread and
whatever has become of the stream.

The closed bit of a gate and the number of callbacks inside it are one word
(of the 64-bit targets). A step is one atomic access of one of any number of
callbacks or of calls of `begin_maintenance`; a stream may be started and
taken out of the engine between any two steps, and every stream has its own
gate. Whether the parameters drain in time and whether a wait for the gate
times out is up to the run. `stop_locked` closes gates too, but it first
waits for the maintenance flag under the control lock that the callers of
`begin_maintenance` hold; it is no part of this model.
-/
namespace RtpOscMidi.L5.CallbackGate

open Core

/-- mirrors src-tauri/src/audio/callback_gate.rs:6 -/
abbrev closedBit : UInt64 := topBit

/-- A callback around the gate of stream `g`.
mirrors src-tauri/src/audio/callback_gate.rs:18-34,56-60 -/
inductive Callback where
  /-- before the load of `try_enter` -/
  | load (g : Nat)
  | exchange (g : Nat) (state : UInt64)
  | inside (g : Nat)
  | refused
  | left
  deriving DecidableEq, Repr

/-- Why `begin_maintenance` failed. -/
inductive Failure where
  | alreadyActive
  | parameters
  | timedOut
  deriving DecidableEq, Repr

/-- A call of `begin_maintenance` and the guard it returns.
mirrors src-tauri/src/audio/game_mode.rs:23-30,130-163 -/
inductive Maintenance where
  | swap
  | runtime
  | waitForParameters (g : Nat)
  | close (g : Nat)
  | poll (g : Nat)
  /-- timed out, before `reopen` -/
  | giveUp (g : Nat)
  /-- before the flag is cleared and `e` returned -/
  | fail (g : Nat) (e : Failure)
  | failed (e : Failure)
  /-- the guard, with the telemetry it captured -/
  | guarded (telemetry : Option Nat)
  /-- the guard dropped, its gate open again -/
  | release
  | finished
  deriving DecidableEq, Repr

/-- `runtime` is the current stream. -/
structure St where
  gates : List UInt64
  runtime : Option Nat
  maintenance : Bool
  callbacks : List Callback
  calls : List Maintenance
  deriving DecidableEq, Repr

def init : St := ⟨[], none, false, [], []⟩

inductive Lbl where
  /-- a stream is started -/
  | start
  /-- the runtime is taken out of the engine -/
  | take
  /-- a callback of stream `g` -/
  | callback (g : Nat)
  | callbackStep (i : Nat)
  /-- the weak compare-exchange of callback `i` fails although it matches -/
  | spurious (i : Nat)
  | begin
  | step (i : Nat)
  /-- the parameters failed or did not drain in time -/
  | parametersFail (i : Nat)
  /-- the deadline has passed after a load that found the gate in use -/
  | timeout (i : Nat)
  | drop (i : Nat)
  deriving DecidableEq, Repr

/-- One access of a callback: the gates and where it stands.
mirrors src-tauri/src/audio/callback_gate.rs:18-34,56-60 -/
def callbackStep (gates : List UInt64) : Callback → Option (List UInt64 × Callback)
  | .load g => gates[g]?.map fun w => (gates, .exchange g w)
  | .exchange g state =>
    if state &&& closedBit ≠ 0 then some (gates, .refused)
    else gates[g]?.map fun w =>
      if w = state then (gates.set g (state + 1), .inside g) else (gates, .exchange g w)
  | .inside g => gates[g]?.map fun w => (gates.set g (w - 1), .left)
  | .refused | .left => none

/-- mirrors src-tauri/src/audio/game_mode.rs:25-29,130-163,
src-tauri/src/audio/callback_gate.rs:37-53 -/
def maintenanceStep (s : St) : Maintenance → Option (St × Maintenance)
  | .swap =>
    some ({ s with maintenance := true }, if s.maintenance then .failed .alreadyActive else .runtime)
  | .runtime =>
    some (s, match s.runtime with
      | some g => .waitForParameters g
      | none => .guarded none)
  | .waitForParameters g => some (s, .close g)
  | .close g => s.gates[g]?.map fun w =>
      ({ s with gates := s.gates.set g (w ||| closedBit) }, .poll g)
  | .poll g => s.gates[g]?.map fun w => (s, if w = closedBit then .guarded (some g) else .poll g)
  | .giveUp g => s.gates[g]?.map fun w =>
      ({ s with gates := s.gates.set g (w &&& ~~~closedBit) }, .fail g .timedOut)
  | .fail _ e => some ({ s with maintenance := false }, .failed e)
  | .release => some ({ s with maintenance := false }, .finished)
  | .failed _ | .guarded _ | .finished => none

/-- The first access of the guard's drop.
mirrors src-tauri/src/audio/game_mode.rs:23-30 -/
def dropGuard (gates : List UInt64) : Option Nat → Option (List UInt64)
  | none => some gates
  | some g => gates[g]?.map fun w => gates.set g (w &&& ~~~closedBit)

def step (s : St) : Lbl → Option St
  | .start => some { s with gates := s.gates ++ [0], runtime := some s.gates.length }
  | .take => some { s with runtime := none }
  | .callback g =>
    if g < s.gates.length then some { s with callbacks := s.callbacks ++ [.load g] } else none
  | .callbackStep i => do
    let c ← s.callbacks[i]?
    let (gates, c') ← callbackStep s.gates c
    some { s with gates, callbacks := s.callbacks.set i c' }
  | .spurious i =>
    match s.callbacks[i]? with
    | some (.exchange g state) =>
      if state &&& closedBit ≠ 0 then none
      else s.gates[g]?.map fun w => { s with callbacks := s.callbacks.set i (.exchange g w) }
    | _ => none
  | .begin => some { s with calls := s.calls ++ [.swap] }
  | .step i => do
    let c ← s.calls[i]?
    let (s', c') ← maintenanceStep s c
    some { s' with calls := s.calls.set i c' }
  | .parametersFail i =>
    match s.calls[i]? with
    | some (.waitForParameters g) => some { s with calls := s.calls.set i (.fail g .parameters) }
    | _ => none
  | .timeout i =>
    match s.calls[i]? with
    | some (.poll g) =>
      if s.gates[g]? = some closedBit then none
      else some { s with calls := s.calls.set i (.giveUp g) }
    | _ => none
  | .drop i =>
    match s.calls[i]? with
    | some (.guarded telemetry) =>
      (dropGuard s.gates telemetry).map fun gates =>
        { s with gates, calls := s.calls.set i .release }
    | _ => none

def system : LTS St Lbl := LTS.ofStep (· = init) step

/-! ## What the words count -/

def Callback.insideOf (g : Nat) (c : Callback) : Bool := c = .inside g

/-- Callbacks inside the gate of stream `g`. -/
def St.active (s : St) (g : Nat) : Nat := s.callbacks.countP (Callback.insideOf g)

/-- Between the close of gate `g` and its reopening. -/
def Maintenance.closes (g : Nat) : Maintenance → Bool
  | .poll h | .giveUp h => h = g
  | .guarded (some h) => h = g
  | _ => false

/-- Between the flag set and the flag cleared. -/
def Maintenance.holdsFlag : Maintenance → Bool
  | .swap | .failed _ | .finished => false
  | _ => true

def Callback.stream : Callback → Option Nat
  | .load g | .exchange g _ | .inside g => some g
  | _ => none

def Maintenance.stream : Maintenance → Option Nat
  | .waitForParameters g | .close g | .poll g | .giveUp g | .fail g _ => some g
  | .guarded telemetry => telemetry
  | _ => none

/-- Fewer than 2^63 - 1 callbacks are inside a gate at the same time. -/
def Few (s : St) (_ : Lbl) : Prop := ∀ g < s.gates.length, s.active g < 2 ^ 63 - 1

theorem insideOf_inside (g : Nat) : (Callback.inside g).insideOf g = true := by
  simp [Callback.insideOf]

theorem insideOf_ne {g h : Nat} (hne : h ≠ g) : (Callback.inside g).insideOf h = false := by
  simp [Callback.insideOf, Ne.symm hne]

theorem closes_holdsFlag {g : Nat} {c : Maintenance} (h : c.closes g = true) :
    c.holdsFlag = true := by
  cases c <;> simp_all [Maintenance.closes, Maintenance.holdsFlag]

theorem closes_stream {g : Nat} {c : Maintenance} (h : c.closes g = true) : c.stream = some g := by
  unfold Maintenance.closes at h
  split at h
  · simpa [Maintenance.stream] using h
  · simpa [Maintenance.stream] using h
  · simpa [Maintenance.stream] using h
  · cases h

structure Inv (s : St) : Prop where
  flag : s.calls.countP Maintenance.holdsFlag = s.maintenance.toNat
  word : ∀ (g : Nat) (w : UInt64), s.gates[g]? = some w →
    w.toNat = 2 ^ 63 * s.calls.countP (Maintenance.closes g) + s.active g ∧ s.active g < 2 ^ 63
  guarded : ∀ g, .guarded (some g) ∈ s.calls → s.active g = 0
  callbacks : ∀ c ∈ s.callbacks, ∀ g ∈ c.stream, g < s.gates.length
  calls : ∀ c ∈ s.calls, ∀ g ∈ c.stream, g < s.gates.length
  runtime : ∀ g ∈ s.runtime, g < s.gates.length

section Invariant

variable {s s' : St} {i g : Nat}

theorem inv_init : Inv init where
  flag := rfl
  word _ _ h := by cases h
  guarded _ h := by cases h
  callbacks _ h := by cases h
  calls _ h := by cases h
  runtime _ h := by cases h

theorem Inv.flag_le (I : Inv s) : s.calls.countP Maintenance.holdsFlag ≤ 1 := by
  rw [I.flag]
  cases s.maintenance <;> simp

/-- The call that holds the flag is the only one that can close a gate. -/
theorem Inv.alone {c : Maintenance} (I : Inv s) (hc : s.calls[i]? = some c)
    (hf : c.holdsFlag = true) (g : Nat) :
    s.calls.countP (Maintenance.closes g) = (c.closes g).toNat := by
  have h₁ : _ + c.holdsFlag.toNat = _ + 0 := countP_set_add Maintenance.holdsFlag .finished hc
  have h₂ : _ + (c.closes g).toNat = _ + 0 := countP_set_add (Maintenance.closes g) .finished hc
  have hle : (s.calls.set i .finished).countP (Maintenance.closes g) ≤
      (s.calls.set i .finished).countP Maintenance.holdsFlag :=
    List.countP_mono_left fun _ _ h => closes_holdsFlag h
  have hflag := I.flag_le
  rw [hf, Bool.toNat_true] at h₁
  omega

theorem Inv.closed_of_guarded (I : Inv s) (hg : .guarded (some g) ∈ s.calls) {w : UInt64}
    (hw : s.gates[g]? = some w) : w = closedBit := by
  obtain ⟨i, hi⟩ := List.mem_iff_getElem?.mp hg
  have hc := I.alone hi rfl g
  obtain ⟨hword, -⟩ := I.word g w hw
  rw [hc, I.guarded g hg] at hword
  rw [← UInt64.toNat_inj, hword, toNat_topBit]
  simp [Maintenance.closes]

/-! ### Callbacks -/

/-- A callback moves; nobody is admitted to or leaves a gate. -/
theorem Inv.moveCallback {c c' : Callback} (I : Inv s) (hc : s.callbacks[i]? = some c)
    (hin : ∀ g, c'.insideOf g = c.insideOf g) (hs : ∀ g ∈ c'.stream, g < s.gates.length) :
    Inv { s with callbacks := s.callbacks.set i c' } := by
  have hactive : ∀ g, (s.callbacks.set i c').countP (Callback.insideOf g) = s.active g := by
    intro g
    have := countP_set_add (Callback.insideOf g) c' hc
    rw [hin g] at this
    exact Nat.add_right_cancel this
  refine ⟨I.flag, fun g w hw => ?_, fun g hg => ?_, fun d hd => ?_, I.calls, I.runtime⟩
  · show _ = _ + (s.callbacks.set i c').countP _ ∧ (s.callbacks.set i c').countP _ < _
    rw [hactive g]
    exact I.word g w hw
  · exact (hactive g).trans (I.guarded g hg)
  · rcases mem_of_set hd with hd | rfl
    · exact I.callbacks d hd
    · exact hs

/-- A callback is admitted or leaves: `w` becomes `w'`. -/
theorem Inv.moveWord {c c' : Callback} {w w' : UInt64} {n : Nat} (I : Inv s)
    (hc : s.callbacks[i]? = some c) (hw : s.gates[g]? = some w)
    (hactive : (s.callbacks.set i c').countP (Callback.insideOf g) = n)
    (hother : ∀ h, h ≠ g → c'.insideOf h = c.insideOf h)
    (hword : w'.toNat = 2 ^ 63 * s.calls.countP (Maintenance.closes g) + n) (hn : n < 2 ^ 63)
    (hguard : .guarded (some g) ∈ s.calls → n = 0)
    (hs : ∀ h ∈ c'.stream, h < s.gates.length) :
    Inv { s with gates := s.gates.set g w', callbacks := s.callbacks.set i c' } := by
  have hg : g < s.gates.length := (List.getElem?_eq_some_iff.mp hw).1
  have hsame : ∀ h, h ≠ g → (s.callbacks.set i c').countP (Callback.insideOf h) = s.active h := by
    intro h hne
    have := countP_set_add (Callback.insideOf h) c' hc
    rw [hother h hne] at this
    exact Nat.add_right_cancel this
  have hlen : (s.gates.set g w').length = s.gates.length := List.length_set
  refine ⟨I.flag, fun h v hv => ?_, fun h hh => ?_, fun d hd h hh => ?_, fun d hd h hh => ?_,
    fun h hh => ?_⟩
  · show _ = _ + (s.callbacks.set i c').countP _ ∧ (s.callbacks.set i c').countP _ < _
    have hv : (s.gates.set g w')[h]? = some v := hv
    by_cases hhg : h = g
    · subst hhg
      rw [List.getElem?_set_self hg, Option.some.injEq] at hv
      rw [← hv, hactive]
      exact ⟨hword, hn⟩
    · rw [List.getElem?_set_ne (Ne.symm hhg)] at hv
      rw [hsame h hhg]
      exact I.word h v hv
  · show (s.callbacks.set i c').countP _ = 0
    by_cases hhg : h = g
    · subst hhg
      rw [hactive]
      exact hguard hh
    · rw [hsame h hhg]
      exact I.guarded h hh
  · show h < (s.gates.set g w').length
    rw [hlen]
    rcases mem_of_set hd with hd | rfl
    · exact I.callbacks d hd h hh
    · exact hs h hh
  · show h < (s.gates.set g w').length
    rw [hlen]
    exact I.calls d hd h hh
  · show h < (s.gates.set g w').length
    rw [hlen]
    exact I.runtime h hh

theorem inv_callbackStep {c c' : Callback} {gates : List UInt64} (I : Inv s)
    (hfew : ∀ g < s.gates.length, s.active g < 2 ^ 63 - 1) (hc : s.callbacks[i]? = some c)
    (hst : callbackStep s.gates c = some (gates, c')) :
    Inv { s with gates, callbacks := s.callbacks.set i c' } := by
  have hmem := I.callbacks c (List.mem_of_getElem? hc)
  cases c with
  | load g =>
    obtain ⟨w, hw, hst⟩ := Option.map_eq_some_iff.mp hst
    cases hst
    exact I.moveCallback hc (fun _ => rfl) hmem
  | exchange g state =>
    simp only [callbackStep] at hst
    split at hst
    · cases hst
      exact I.moveCallback hc (fun _ => rfl) fun _ h => by cases h
    · rename_i hopen
      obtain ⟨w, hw, hst⟩ := Option.map_eq_some_iff.mp hst
      split at hst
      · rename_i he
        subst he
        cases hst
        have hlt : w.toNat < 2 ^ 63 := by
          rw [and_topBit_ne_zero] at hopen
          omega
        obtain ⟨hword, -⟩ := I.word g w hw
        have hfew := hfew g (List.getElem?_eq_some_iff.mp hw).1
        have hadd : (w + 1).toNat = w.toNat + 1 := by
          rw [UInt64.toNat_add, UInt64.toNat_one]
          omega
        have hcount : _ + 0 = _ + ((Callback.inside g).insideOf g).toNat :=
          countP_set_add (Callback.insideOf g) (.inside g) hc
        rw [insideOf_inside, Bool.toNat_true] at hcount
        refine I.moveWord hc hw hcount (fun h hne => insideOf_ne hne) ?_ ?_ (fun hguard => ?_) hmem
        · rw [hadd, hword]
          exact Nat.add_assoc _ _ _
        · show s.active g + 1 < 2 ^ 63
          omega
        · have hclosed := I.closed_of_guarded hguard hw
          rw [hclosed, toNat_topBit] at hlt
          omega
      · cases hst
        exact I.moveCallback hc (fun _ => rfl) hmem
  | inside g =>
    obtain ⟨w, hw, hst⟩ := Option.map_eq_some_iff.mp hst
    cases hst
    obtain ⟨hword, hlt⟩ := I.word g w hw
    have hcount : _ + ((Callback.inside g).insideOf g).toNat = s.active g + 0 :=
      countP_set_add (Callback.insideOf g) .left hc
    rw [insideOf_inside, Bool.toNat_true] at hcount
    have hsub : (w - 1).toNat = w.toNat - 1 := by
      refine UInt64.toNat_sub_of_le w 1 ?_
      rw [UInt64.le_iff_toNat_le, UInt64.toNat_one]
      omega
    refine I.moveWord hc hw (n := s.active g - 1) (by omega) (fun h hne => (insideOf_ne hne).symm)
      ?_ ?_ (fun hguard => ?_) fun _ h => by cases h
    · rw [hsub, hword]
      omega
    · omega
    · rw [I.guarded g hguard]
  | refused => cases hst
  | left => cases hst

/-! ### Calls of `begin_maintenance` -/

/-- A call moves and no gate does. -/
theorem Inv.moveCall {c c' : Maintenance} {m : Bool} (I : Inv s) (hc : s.calls[i]? = some c)
    (hflag : c'.holdsFlag.toNat + s.maintenance.toNat = c.holdsFlag.toNat + m.toNat)
    (hcloses : ∀ g, c'.closes g = c.closes g) (hguard : ∀ g, c' = .guarded (some g) → s.active g = 0)
    (hs : ∀ g ∈ c'.stream, g < s.gates.length) :
    Inv { s with maintenance := m, calls := s.calls.set i c' } := by
  have hset := countP_set_add Maintenance.holdsFlag c' hc
  have hcount : ∀ g, (s.calls.set i c').countP (Maintenance.closes g) =
      s.calls.countP (Maintenance.closes g) := by
    intro g
    have := countP_set_add (Maintenance.closes g) c' hc
    rw [hcloses g] at this
    exact Nat.add_right_cancel this
  refine ⟨?_, fun g w hw => ?_, fun g hg => ?_, I.callbacks, fun d hd => ?_, I.runtime⟩
  · show (s.calls.set i c').countP _ = m.toNat
    have := I.flag
    omega
  · show _ = _ * (s.calls.set i c').countP _ + _ ∧ _
    rw [hcount g]
    exact I.word g w hw
  · rcases mem_of_set hg with hg | hg
    · exact I.guarded g hg
    · exact hguard g hg.symm
  · rcases mem_of_set hd with hd | rfl
    · exact I.calls d hd
    · exact hs

/-- The call that holds the flag closes or opens the gate of stream `g`. -/
theorem Inv.moveGate {c c' : Maintenance} {w w' : UInt64} (I : Inv s) (hc : s.calls[i]? = some c)
    (hw : s.gates[g]? = some w) (hf : c.holdsFlag = true) (hf' : c'.holdsFlag = true)
    (hother : ∀ h, h ≠ g → c'.closes h = c.closes h)
    (hword : w'.toNat = 2 ^ 63 * (c'.closes g).toNat + w.toNat % 2 ^ 63)
    (hguard : ∀ g, c' ≠ .guarded (some g)) (hs : ∀ h ∈ c'.stream, h < s.gates.length) :
    Inv { s with gates := s.gates.set g w', calls := s.calls.set i c' } := by
  have hg : g < s.gates.length := (List.getElem?_eq_some_iff.mp hw).1
  have hlen : (s.gates.set g w').length = s.gates.length := List.length_set
  have hset := countP_set_add Maintenance.holdsFlag c' hc
  have hcount := fun h => countP_set_add (Maintenance.closes h) c' hc
  refine ⟨?_, fun h v hv => ?_, fun h hh => ?_, fun d hd h hh => ?_, fun d hd h hh => ?_,
    fun h hh => ?_⟩
  · show (s.calls.set i c').countP _ = s.maintenance.toNat
    have := I.flag
    rw [hf, hf'] at hset
    omega
  · show _ = _ * (s.calls.set i c').countP _ + _ ∧ _
    have hv : (s.gates.set g w')[h]? = some v := hv
    by_cases hhg : h = g
    · subst hhg
      rw [List.getElem?_set_self hg, Option.some.injEq] at hv
      have halone := I.alone hc hf h
      obtain ⟨hold, hlt⟩ := I.word h w hw
      have hnew : (s.calls.set i c').countP (Maintenance.closes h) = (c'.closes h).toNat := by
        have := hcount h
        omega
      rw [← hv, hnew, hword, hold, Nat.mul_add_mod, Nat.mod_eq_of_lt hlt]
      exact ⟨rfl, hlt⟩
    · rw [List.getElem?_set_ne (Ne.symm hhg)] at hv
      have := hcount h
      rw [hother h hhg] at this
      rw [Nat.add_right_cancel this]
      exact I.word h v hv
  · rcases mem_of_set hh with hh | hh
    · exact I.guarded h hh
    · exact absurd hh.symm (hguard h)
  · show h < (s.gates.set g w').length
    rw [hlen]
    exact I.callbacks d hd h hh
  · show h < (s.gates.set g w').length
    rw [hlen]
    rcases mem_of_set hd with hd | rfl
    · exact I.calls d hd h hh
    · exact hs h hh
  · show h < (s.gates.set g w').length
    rw [hlen]
    exact I.runtime h hh

theorem inv_maintenanceStep {c c' : Maintenance} (I : Inv s) (hc : s.calls[i]? = some c)
    (hst : maintenanceStep s c = some (s', c')) :
    Inv { s' with calls := s.calls.set i c' } := by
  have hmem := I.calls c (List.mem_of_getElem? hc)
  have hflag := I.flag
  cases c with
  | swap =>
    simp only [maintenanceStep, Option.some.injEq, Prod.mk.injEq] at hst
    obtain ⟨rfl, rfl⟩ := hst
    cases hm : s.maintenance with
    | true =>
      exact I.moveCall hc (by rw [hm]; rfl) (fun _ => rfl) (fun _ h => by cases h) fun _ h => by cases h
    | false =>
      exact I.moveCall hc (by rw [hm]; rfl) (fun _ => rfl) (fun _ h => by cases h) fun _ h => by cases h
  | runtime =>
    simp only [maintenanceStep, Option.some.injEq, Prod.mk.injEq] at hst
    obtain ⟨rfl, rfl⟩ := hst
    split
    · rename_i g hr
      exact I.moveCall hc rfl (fun _ => rfl) (fun _ h => by cases h) fun h hh =>
        I.runtime h (hr.trans hh)
    · exact I.moveCall hc rfl (fun _ => rfl) (fun _ h => by cases h) fun _ h => by cases h
  | waitForParameters g =>
    cases hst
    exact I.moveCall hc rfl (fun _ => rfl) (fun _ h => by cases h) hmem
  | close g =>
    obtain ⟨w, hw, hst⟩ := Option.map_eq_some_iff.mp hst
    cases hst
    refine I.moveGate hc hw rfl rfl (fun h hne => ?_) ?_ (fun _ h => by cases h) hmem
    · simp [Maintenance.closes, Ne.symm hne]
    · rw [toNat_or_topBit]
      simp [Maintenance.closes]
  | poll g =>
    obtain ⟨w, hw, hst⟩ := Option.map_eq_some_iff.mp hst
    cases hst
    obtain ⟨hword, -⟩ := I.word g w hw
    rw [I.alone hc rfl g] at hword
    split
    · rename_i he
      refine I.moveCall hc rfl (fun _ => rfl) (fun h e => ?_) hmem
      cases e
      rw [he, toNat_topBit] at hword
      simp only [Maintenance.closes, decide_true, Bool.toNat_true] at hword
      omega
    · exact I.moveCall hc rfl (fun _ => rfl) (fun _ h => by cases h) hmem
  | giveUp g =>
    obtain ⟨w, hw, hst⟩ := Option.map_eq_some_iff.mp hst
    cases hst
    refine I.moveGate hc hw rfl rfl (fun h hne => ?_) ?_ (fun _ h => by cases h) hmem
    · simp [Maintenance.closes, Ne.symm hne]
    · rw [toNat_and_not_topBit]
      simp [Maintenance.closes]
  | fail g e =>
    cases hst
    have hone : s.maintenance.toNat = 1 := by
      have h₁ := countP_set_add Maintenance.holdsFlag .finished hc
      have h₂ := I.flag_le
      simp only [Maintenance.holdsFlag, Bool.toNat_true, Bool.toNat_false] at h₁
      omega
    exact I.moveCall hc (by rw [hone]; rfl) (fun _ => rfl) (fun _ h => by cases h) fun _ h => by cases h
  | release =>
    cases hst
    have hone : s.maintenance.toNat = 1 := by
      have h₁ := countP_set_add Maintenance.holdsFlag .finished hc
      have h₂ := I.flag_le
      simp only [Maintenance.holdsFlag, Bool.toNat_true, Bool.toNat_false] at h₁
      omega
    exact I.moveCall hc (by rw [hone]; rfl) (fun _ => rfl) (fun _ h => by cases h) fun _ h => by cases h
  | failed e => cases hst
  | guarded t => cases hst
  | finished => cases hst

end Invariant

/-! ## Every step keeps the invariant -/

section Steps

variable {s s' : St} {l : Lbl} {i j g : Nat}

theorem inv_start (I : Inv s) :
    Inv { s with gates := s.gates ++ [0], runtime := some s.gates.length } := by
  have hlt : ∀ h, h < s.gates.length → h < (s.gates ++ [0]).length := by
    intro h hh
    rw [List.length_append]
    omega
  refine ⟨I.flag, fun h w hw => ?_, I.guarded, fun c hc h hh => hlt h (I.callbacks c hc h hh),
    fun c hc h hh => hlt h (I.calls c hc h hh), fun h hh => ?_⟩
  · have hw : (s.gates ++ [0])[h]? = some w := hw
    rcases Nat.lt_or_ge h s.gates.length with hh | hh
    · rw [List.getElem?_append_left hh] at hw
      exact I.word h w hw
    · -- the new gate: nobody knows it yet
      have hactive : s.active h = 0 := List.countP_eq_zero.mpr fun c hc hin => by
        have hs : c = .inside h := by simpa [Callback.insideOf] using hin
        have := I.callbacks c hc h (by rw [hs]; rfl)
        omega
      have hcloses : s.calls.countP (Maintenance.closes h) = 0 :=
        List.countP_eq_zero.mpr fun c hc hin => by
          have := I.calls c hc h (closes_stream hin)
          omega
      have hzero : w = 0 := by
        rw [List.getElem?_append_right hh] at hw
        exact List.mem_singleton.mp (List.mem_of_getElem? hw)
      show w.toNat = 2 ^ 63 * s.calls.countP (Maintenance.closes h) + s.active h ∧
        s.active h < 2 ^ 63
      rw [hactive, hcloses, hzero]
      decide
  · rw [← Option.mem_some.mp hh]
    show s.gates.length < (s.gates ++ [0]).length
    simp

theorem inv_step (I : Inv s) (hfew : Few s l) (hst : step s l = some s') : Inv s' := by
  cases l with
  | start =>
    cases hst
    exact inv_start I
  | take =>
    cases hst
    exact { I with runtime := fun _ h => by cases h }
  | callback g =>
    simp only [step] at hst
    split at hst
    · rename_i hg
      cases hst
      have hactive : ∀ h,
          (s.callbacks ++ [Callback.load g]).countP (Callback.insideOf h) = s.active h := by
        intro h
        exact countP_concat _ _ _
      refine ⟨I.flag, fun h w hw => ?_, fun h hh => ?_, fun c hc h hh => ?_, I.calls, I.runtime⟩
      · show _ = _ + (s.callbacks ++ [Callback.load g]).countP _ ∧
          (s.callbacks ++ [Callback.load g]).countP _ < _
        rw [hactive h]
        exact I.word h w hw
      · exact (hactive h).trans (I.guarded h hh)
      · rcases List.mem_append.mp hc with hc | hc
        · exact I.callbacks c hc h hh
        · rw [List.mem_singleton.mp hc] at hh
          cases hh
          exact hg
    · cases hst
  | callbackStep i =>
    obtain ⟨c, hc, hst⟩ := Option.bind_eq_some_iff.mp hst
    obtain ⟨⟨gates, c'⟩, hstep, hst⟩ := Option.bind_eq_some_iff.mp hst
    cases hst
    exact inv_callbackStep I hfew hc hstep
  | spurious i =>
    simp only [step] at hst
    split at hst
    · rename_i g state hc
      split at hst
      · cases hst
      · obtain ⟨w, hw, hst⟩ := Option.map_eq_some_iff.mp hst
        cases hst
        exact I.moveCallback hc (fun _ => rfl) (I.callbacks (.exchange g state) (List.mem_of_getElem? hc))
    · cases hst
  | begin =>
    cases hst
    have hcount : ∀ p : Maintenance → Bool, p .swap = false →
        (s.calls ++ [Maintenance.swap]).countP p = s.calls.countP p := by
      intro p hp
      rw [countP_concat, hp]
      rfl
    refine ⟨(hcount _ rfl).trans I.flag, fun h w hw => ?_, fun h hh => ?_, I.callbacks,
      fun c hc h hh => ?_, I.runtime⟩
    · show _ = _ * (s.calls ++ [Maintenance.swap]).countP _ + _ ∧ _
      rw [hcount _ rfl]
      exact I.word h w hw
    · rcases List.mem_append.mp hh with hh | hh
      · exact I.guarded h hh
      · cases List.mem_singleton.mp hh
    · rcases List.mem_append.mp hc with hc | hc
      · exact I.calls c hc h hh
      · rw [List.mem_singleton.mp hc] at hh
        cases hh
  | step i =>
    obtain ⟨c, hc, hst⟩ := Option.bind_eq_some_iff.mp hst
    obtain ⟨⟨t, c'⟩, hstep, hst⟩ := Option.bind_eq_some_iff.mp hst
    cases hst
    exact inv_maintenanceStep I hc hstep
  | parametersFail i =>
    simp only [step] at hst
    split at hst
    · rename_i g hc
      cases hst
      exact I.moveCall hc rfl (fun _ => rfl) (fun _ h => by cases h)
        (I.calls (.waitForParameters g) (List.mem_of_getElem? hc))
    · cases hst
  | timeout i =>
    simp only [step] at hst
    split at hst
    · rename_i g hc
      split at hst
      · cases hst
      · cases hst
        exact I.moveCall hc rfl (fun _ => rfl) (fun _ h => by cases h)
          (I.calls (.poll g) (List.mem_of_getElem? hc))
    · cases hst
  | drop i =>
    simp only [step] at hst
    split at hst
    · rename_i telemetry hc
      obtain ⟨gates, hg, hst⟩ := Option.map_eq_some_iff.mp hst
      cases hst
      cases telemetry with
      | none =>
        cases hg
        exact I.moveCall hc rfl (fun _ => rfl) (fun _ h => by cases h) fun _ h => by cases h
      | some g =>
        obtain ⟨w, hw, hg⟩ := Option.map_eq_some_iff.mp hg
        subst hg
        refine I.moveGate hc hw rfl rfl (fun h hne => ?_) ?_ (fun _ h => by cases h)
          fun _ h => by cases h
        · simp [Maintenance.closes, Ne.symm hne]
        · rw [toNat_and_not_topBit]
          simp [Maintenance.closes]
    · cases hst

theorem inv_inductive : (system.restrict Few).Inductive Inv where
  init s h := by
    subst h
    exact inv_init
  step _ _ _ I hst := inv_step I hst.1 hst.2

/-! ## Exclusion -/

/-- Two calls never hold the maintenance flag together. -/
theorem Inv.exclusive {c d : Maintenance} (I : Inv s) (hi : s.calls[i]? = some c)
    (hj : s.calls[j]? = some d) (hc : c.holdsFlag = true) (hd : d.holdsFlag = true) : i = j := by
  by_contra hne
  have hset : _ + c.holdsFlag.toNat = _ + 0 := countP_set_add Maintenance.holdsFlag .finished hi
  have hmem : d ∈ s.calls.set i .finished := by
    refine List.mem_of_getElem? (i := j) ?_
    rw [List.getElem?_set_ne hne]
    exact hj
  have hpos : 0 < (s.calls.set i .finished).countP Maintenance.holdsFlag :=
    List.countP_pos_iff.mpr ⟨d, hmem, hd⟩
  have hle := I.flag_le
  rw [hc, Bool.toNat_true] at hset
  omega

theorem Inv.closed_iff (I : Inv s) {w : UInt64} (hw : s.gates[g]? = some w) :
    2 ^ 63 ≤ w.toNat ↔ ∃ c ∈ s.calls, c.closes g = true := by
  obtain ⟨hword, hlt⟩ := I.word g w hw
  rw [← List.countP_pos_iff]
  omega

/-- Only its own steps move a call. -/
theorem calls_step (hst : step s l = some s') (hi : i < s.calls.length) :
    s'.calls[i]? = s.calls[i]? ∨ l = .step i ∨ l = .parametersFail i ∨ l = .timeout i ∨
      l = .drop i := by
  have hset : ∀ {k : Nat} {c : Maintenance}, k ≠ i → (s.calls.set k c)[i]? = s.calls[i]? :=
    fun hk => List.getElem?_set_ne hk
  cases l with
  | start =>
    cases hst
    exact .inl rfl
  | take =>
    cases hst
    exact .inl rfl
  | callback g =>
    simp only [step] at hst
    split at hst <;> cases hst
    exact .inl rfl
  | callbackStep k =>
    obtain ⟨c, hc, hst⟩ := Option.bind_eq_some_iff.mp hst
    obtain ⟨gc, hstep, hst⟩ := Option.bind_eq_some_iff.mp hst
    cases hst
    exact .inl rfl
  | spurious k =>
    simp only [step] at hst
    split at hst
    · split at hst
      · cases hst
      · obtain ⟨w, hw, hst⟩ := Option.map_eq_some_iff.mp hst
        cases hst
        exact .inl rfl
    · cases hst
  | begin =>
    cases hst
    exact .inl (List.getElem?_append_left hi)
  | step k =>
    by_cases hk : k = i
    · exact .inr (.inl (hk ▸ rfl))
    · obtain ⟨c, hc, hst⟩ := Option.bind_eq_some_iff.mp hst
      obtain ⟨tc, hstep, hst⟩ := Option.bind_eq_some_iff.mp hst
      cases hst
      exact .inl (hset hk)
  | parametersFail k =>
    by_cases hk : k = i
    · exact .inr (.inr (.inl (hk ▸ rfl)))
    · simp only [step] at hst
      split at hst <;> cases hst
      exact .inl (hset hk)
  | timeout k =>
    by_cases hk : k = i
    · exact .inr (.inr (.inr (.inl (hk ▸ rfl))))
    · simp only [step] at hst
      split at hst
      · split at hst <;> cases hst
        exact .inl (hset hk)
      · cases hst
  | drop k =>
    by_cases hk : k = i
    · exact .inr (.inr (.inr (.inr (hk ▸ rfl))))
    · simp only [step] at hst
      split at hst
      · obtain ⟨gates, hg, hst⟩ := Option.map_eq_some_iff.mp hst
        cases hst
        exact .inl (hset hk)
      · cases hst

/-- A guard stays until it is dropped. -/
theorem guarded_step {t : Option Nat} (hi : s.calls[i]? = some (.guarded t))
    (hst : step s l = some s') (hl : l ≠ .drop i) : s'.calls[i]? = some (.guarded t) := by
  rcases calls_step hst (List.getElem?_eq_some_iff.mp hi).1 with h | rfl | rfl | rfl | rfl
  · exact h.trans hi
  · simp [step, hi, maintenanceStep] at hst
  · simp [step, hi] at hst
  · simp [step, hi] at hst
  · exact absurd rfl hl

/-- What a call of `begin_maintenance` leaves behind when it fails. -/
def FailsWith (s s' : St) (e : Failure) : Prop :=
  (e = .alreadyActive ∧ s.maintenance = true ∧ s' = { s with calls := s'.calls }) ∨
    (s'.maintenance = false ∧ ∀ w ∈ s'.gates, w.toNat < 2 ^ 63)

/-- A failed call leaves the flag clear and every gate open. -/
theorem Inv.open_of_clear (I : Inv s) (hm : s.maintenance = false) {w : UInt64}
    (hw : w ∈ s.gates) : w.toNat < 2 ^ 63 := by
  obtain ⟨g, hg⟩ := List.mem_iff_getElem?.mp hw
  obtain ⟨hword, hlt⟩ := I.word g w hg
  have hle : s.calls.countP (Maintenance.closes g) ≤ s.calls.countP Maintenance.holdsFlag :=
    List.countP_mono_left fun _ _ h => closes_holdsFlag h
  have hflag := I.flag
  rw [hm, Bool.toNat_false] at hflag
  omega

theorem fails_with {c : Maintenance} {e : Failure} (I : Inv s) (hfew : Few s l)
    (hst : step s l = some s') (hi : s.calls[i]? = some c) (hne : c ≠ .failed e)
    (hi' : s'.calls[i]? = some (.failed e)) : FailsWith s s' e := by
  have I' := inv_step I hfew hst
  have hlt := (List.getElem?_eq_some_iff.mp hi).1
  have hself : ∀ {c : Maintenance}, (s.calls.set i c)[i]? = some c :=
    fun {c} => List.getElem?_set_self hlt
  rcases calls_step hst hlt with h | rfl | rfl | rfl | rfl
  · exact absurd (Option.some.inj ((h.trans hi).symm.trans hi')) hne
  · obtain ⟨c, hc, hst⟩ := Option.bind_eq_some_iff.mp hst
    obtain ⟨⟨t, c'⟩, hstep, hst⟩ := Option.bind_eq_some_iff.mp hst
    cases hst
    have hc' : c' = .failed e := Option.some.inj (hself.symm.trans hi')
    subst hc'
    cases c with
    | swap =>
      simp only [maintenanceStep, Option.some.injEq, Prod.mk.injEq] at hstep
      obtain ⟨rfl, h⟩ := hstep
      cases hm : s.maintenance with
      | true =>
        simp only [hm, if_true, Maintenance.failed.injEq] at h
        refine .inl ⟨h.symm, hm, ?_⟩
        rw [← hm]
      | false => simp [hm] at h
    | runtime =>
      simp only [maintenanceStep, Option.some.injEq, Prod.mk.injEq] at hstep
      obtain ⟨rfl, h⟩ := hstep
      split at h <;> cases h
    | poll g =>
      obtain ⟨w, hw, h⟩ := Option.map_eq_some_iff.mp hstep
      simp only [Prod.mk.injEq] at h
      obtain ⟨-, h⟩ := h
      split at h <;> cases h
    | fail g e' =>
      cases hstep
      exact .inr ⟨rfl, fun w hw => I'.open_of_clear rfl hw⟩
    | waitForParameters g => cases hstep
    | close g =>
      obtain ⟨w, hw, h⟩ := Option.map_eq_some_iff.mp hstep
      cases h
    | giveUp g =>
      obtain ⟨w, hw, h⟩ := Option.map_eq_some_iff.mp hstep
      cases h
    | release => cases hstep
    | failed e' => cases hstep
    | guarded t => cases hstep
    | finished => cases hstep
  · simp only [step] at hst
    split at hst <;> cases hst
    cases hself.symm.trans hi'
  · simp only [step] at hst
    split at hst
    · split at hst <;> cases hst
      cases hself.symm.trans hi'
    · cases hst
  · simp only [step] at hst
    split at hst
    · obtain ⟨gates, hg, hst⟩ := Option.map_eq_some_iff.mp hst
      cases hst
      cases hself.symm.trans hi'
    · cases hst

end Steps

/-- Until a guard is dropped its gate is closed, nobody is inside and nobody
enters; a word is the closed bit of a call at work on the gate and the number
of callbacks inside, of which none leaves at zero; a call that fails leaves
everything open and clear, or another call in possession; two calls never
hold the flag together. -/
theorem maintenance_excludes {s : St} (hr : (system.restrict Few).Reachable s) :
    (∀ (i g : Nat), s.calls[i]? = some (.guarded (some g)) →
      s.gates[g]? = some closedBit ∧ s.active g = 0 ∧
      ∀ l s', Few s l → step s l = some s' → l ≠ .drop i →
        s'.calls[i]? = some (.guarded (some g)) ∧ s'.active g = 0) ∧
    (∀ (g : Nat) (w : UInt64), s.gates[g]? = some w →
      w.toNat % 2 ^ 63 = s.active g ∧ (2 ^ 63 ≤ w.toNat ↔ ∃ c ∈ s.calls, c.closes g = true) ∧
      ((.inside g) ∈ s.callbacks → 0 < w.toNat % 2 ^ 63)) ∧
    (∀ l s' (i : Nat) c e, Few s l → step s l = some s' → s.calls[i]? = some c →
      c ≠ .failed e → s'.calls[i]? = some (.failed e) → FailsWith s s' e) ∧
    ∀ (i j : Nat) c d, s.calls[i]? = some c → s.calls[j]? = some d → c.holdsFlag = true →
      d.holdsFlag = true → i = j := by
  have I := inv_inductive.reachable s hr
  refine ⟨?_, ?_, ?_, ?_⟩
  · intro i g hi
    have hmem := List.mem_of_getElem? hi
    have hlt := I.calls _ hmem g rfl
    have hw : s.gates[g]? = some s.gates[g] := List.getElem?_eq_getElem hlt
    refine ⟨I.closed_of_guarded hmem hw ▸ hw, I.guarded g hmem, fun l s' hfew hst hl => ?_⟩
    have hi' := guarded_step hi hst hl
    exact ⟨hi', (inv_step I hfew hst).guarded g (List.mem_of_getElem? hi')⟩
  · intro g w hw
    obtain ⟨hword, hlt⟩ := I.word g w hw
    have hmod : w.toNat % 2 ^ 63 = s.active g := by
      rw [hword, Nat.mul_add_mod, Nat.mod_eq_of_lt hlt]
    refine ⟨hmod, I.closed_iff hw, fun hin => ?_⟩
    rw [hmod]
    exact List.countP_pos_iff.mpr ⟨_, hin, insideOf_inside g⟩
  · intro l s' i c e hfew hst hi hne hi'
    exact fails_with I hfew hst hi hne hi'
  · intro i j c d hi hj hc hd
    exact I.exclusive hi hj hc hd

/-! ## Runs -/

instance (s : St) (l : Lbl) : Decidable (Few s l) :=
  inferInstanceAs (Decidable (∀ g < s.gates.length, s.active g < 2 ^ 63 - 1))

/-- A callback is inside when the gate is closed; it leaves before the guard
is there, and the next one is refused. -/
theorem callback_drained : ∃ s, (system.restrict Few).Reachable s ∧
    s.callbacks = [.left, .refused] ∧ s.gates[0]? = some closedBit ∧ s.active 0 = 0 := by
  have hrun : ∃ s, (system.restrict Few).Reachable s ∧ decide (s.callbacks = [.left, .refused] ∧
      s.calls[0]? = some (.guarded (some 0))) = true :=
    LTS.reachable_of_anyOk
      ([.start, .callback 0, .callbackStep 0, .callbackStep 0, .begin] ++
        List.replicate 5 (.step 0) ++ [.callbackStep 0, .callback 0, .callbackStep 1,
        .callbackStep 1, .step 0]) rfl (by decide +kernel)
  obtain ⟨s, hr, h⟩ := hrun
  obtain ⟨hc, hg⟩ := of_decide_eq_true h
  obtain ⟨hw, ha, -⟩ := (maintenance_excludes hr).1 0 0 hg
  exact ⟨s, hr, hc, hw, ha⟩

/-- Any number of callbacks gets into an open gate. -/
theorem enters : ∀ n ≤ 2 ^ 63, ∃ s, system.Reachable s ∧ s.calls = [] ∧
    s.gates = [UInt64.ofNat n] := by
  intro n
  induction n with
  | zero =>
    intro _
    exact ⟨_, LTS.reachable_of_exec [.start] rfl rfl, rfl, rfl⟩
  | succ n ih =>
    intro hn
    obtain ⟨s, hr, hc, hg⟩ := ih (by omega)
    have hlast : ∀ c : Callback, (s.callbacks ++ [c])[s.callbacks.length]? = some c := fun c => by
      simp
    have hset : ∀ c d : Callback, (s.callbacks ++ [c]).set s.callbacks.length d =
        s.callbacks ++ [d] := fun c d => by simp
    have hopen : ¬(UInt64.ofNat n &&& closedBit ≠ 0) := by
      rw [and_topBit_ne_zero, UInt64.toNat_ofNat']
      omega
    have hadd : UInt64.ofNat n + 1 = UInt64.ofNat (n + 1) := by
      rw [UInt64.ofNat_add]
      rfl
    have h₁ : step s (.callback 0) = some { s with callbacks := s.callbacks ++ [.load 0] } := by
      simp [step, hg]
    have h₂ : step { s with callbacks := s.callbacks ++ [.load 0] }
        (.callbackStep s.callbacks.length) =
        some { s with callbacks := s.callbacks ++ [.exchange 0 (UInt64.ofNat n)] } := by
      simp [step, callbackStep, hg]
    have h₃ : step { s with callbacks := s.callbacks ++ [.exchange 0 (UInt64.ofNat n)] }
        (.callbackStep s.callbacks.length) =
        some { s with gates := [UInt64.ofNat (n + 1)], callbacks := s.callbacks ++ [.inside 0] } := by
      simp only [step, hlast, Option.bind_eq_bind, Option.bind_some, callbackStep, if_neg hopen, hg,
        List.getElem?_cons_zero, Option.map_some, if_true, List.set_cons_zero, hadd, hset]
    exact ⟨_, ((hr.step h₁).step h₂).step h₃, hc, rfl⟩

/-- A second call fails while the first one keeps its gate closed and the
flag set; and the 2^63rd callback to get in closes the gate. -/
theorem second_call_fails :
    (∃ s l s', (system.restrict Few).Reachable s ∧ Few s l ∧ step s l = some s' ∧
      s.calls[1]? = some .swap ∧ s'.calls[1]? = some (.failed .alreadyActive) ∧
      s'.maintenance = true ∧ s'.gates = [closedBit]) ∧
    ∃ s, system.Reachable s ∧ s.calls = [] ∧ s.gates = [closedBit] := by
  constructor
  · have hrun : ∃ s, (system.restrict Few).Reachable s ∧ decide (Few s (.step 1) ∧
        s.calls[1]? = some .swap ∧ (step s (.step 1)).any (fun s' =>
          decide (s'.calls[1]? = some (.failed .alreadyActive) ∧ s'.maintenance = true ∧
            s'.gates = [closedBit])) = true) = true :=
      LTS.reachable_of_anyOk ([.start, .begin] ++ List.replicate 5 (.step 0) ++ [.begin]) rfl
        (by decide +kernel)
    obtain ⟨s, hr, h⟩ := hrun
    obtain ⟨hfew, hswap, hany⟩ := of_decide_eq_true h
    obtain ⟨s', hst, h'⟩ := (Option.any_eq_true _ _).mp hany
    exact ⟨s, .step 1, s', hr, hfew, hst, hswap, of_decide_eq_true h'⟩
  · exact enters (2 ^ 63) (Nat.le_refl _)

end RtpOscMidi.L5.CallbackGate
