import RtpOscMidi.Core.LTS
import RtpOscMidi.Core.Lists
import RtpOscMidi.Core.Words

/-!
# Publication of equalizer settings

`PublishedEq` is a sequence lock over sixteen atomics: a publisher, holding
the writer mutex, makes the sequence number odd, stores the sixteen values
and makes it even again; `load` reads the number, the values and the number
once more, and drops what it read when the two numbers differ. The audio
thread loads at the start of every block and ramps towards a target whose
revision it does not have yet.

A step is one atomic access (the fences add nothing under sequential
consistency) of one of any number of `publish` and `load` calls, or a sample
of an equalizer. A double is its bits; the coefficients are computed before a
publication starts, so a publication is given by its target, and the
interpolation of the ramp is a parameter (`lerp`). The filters themselves
read nothing that is published and are left out.

`published` records every publication that was completed, the initial
settings first, `Loading.since` how many were complete at the first read of
a load, and `adoptions` what an equalizer took over.
-/
namespace RtpOscMidi.L5.EqualizerSeqlock

open Core

/-- A double, by its bits. -/
abbrev F64 := UInt64

/-- mirrors src-tauri/src/audio/equalizer.rs:15-21 -/
structure BiquadCoefficients where
  b0 : F64
  b1 : F64
  b2 : F64
  a1 : F64
  a2 : F64
  deriving DecidableEq, Repr

/-- mirrors src-tauri/src/audio/equalizer.rs:7-9 -/
abbrev bandCount : Nat := 3
abbrev coefficientsPerBand : Nat := 5
abbrev snapshotValues : Nat := 1 + bandCount * coefficientsPerBand

/-- mirrors src-tauri/src/audio/equalizer.rs:42-45 -/
structure EqTarget where
  mix : F64
  bands : Fin bandCount → BiquadCoefficients

instance : DecidableEq EqTarget := fun a b =>
  decidable_of_iff (a.mix = b.mix ∧ a.bands = b.bands) (by cases a; cases b; simp)

abbrev Values := Fin snapshotValues → UInt64

/-- Value `1 + band * 5 + j` is coefficient `j` of the band.
mirrors src-tauri/src/audio/equalizer.rs:75-87 -/
def EqTarget.encode (t : EqTarget) : Values := fun i =>
  if i.val = 0 then t.mix
  else
    let band := t.bands ⟨(i.val - 1) / coefficientsPerBand % bandCount, Nat.mod_lt _ (by decide)⟩
    ![band.b0, band.b1, band.b2, band.a1, band.a2] (Fin.ofNat coefficientsPerBand (i.val - 1))

/-- mirrors src-tauri/src/audio/equalizer.rs:89-105 -/
def EqTarget.decode (values : Values) : EqTarget where
  mix := values 0
  bands band :=
    let offset := 1 + band.val * coefficientsPerBand
    { b0 := values (Fin.ofNat snapshotValues offset)
      b1 := values (Fin.ofNat snapshotValues (offset + 1))
      b2 := values (Fin.ofNat snapshotValues (offset + 2))
      a1 := values (Fin.ofNat snapshotValues (offset + 3))
      a2 := values (Fin.ofNat snapshotValues (offset + 4)) }

theorem decode_encode (t : EqTarget) : EqTarget.decode t.encode = t := by
  obtain ⟨mix, bands⟩ := t
  simp only [EqTarget.decode, EqTarget.mk.injEq]
  refine ⟨rfl, funext fun band => ?_⟩
  fin_cases band <;> rfl

/-! ## The sequence lock -/

/-- `writer` is the `publish` call that holds the mutex.
mirrors src-tauri/src/audio/equalizer.rs:110-114 -/
structure PublishedEq where
  sequence : UInt32
  values : Values
  writer : Option Nat

/-- Where a call of `publish` stands.
mirrors src-tauri/src/audio/equalizer.rs:126-136 -/
inductive Publish where
  | lock (t : EqTarget)
  | load (t : EqTarget)
  | mark (t : EqTarget) (odd : UInt32)
  | store (t : EqTarget) (odd : UInt32) (slot : Fin snapshotValues)
  | finish (t : EqTarget) (odd : UInt32)
  | unlock
  | done
  deriving DecidableEq

/-- mirrors src-tauri/src/audio/equalizer.rs:126-136 -/
def publishStep (i : Nat) (p : PublishedEq) : Publish → Option (PublishedEq × Publish)
  | .lock t => if p.writer = none then some ({ p with writer := some i }, .load t) else none
  | .load t => some (p, .mark t ((p.sequence + 1) ||| 1))
  | .mark t odd => some ({ p with sequence := odd }, .store t odd 0)
  | .store t odd slot =>
    some ({ p with values := Function.update p.values slot (t.encode slot) },
      if h : slot.val + 1 < snapshotValues then .store t odd ⟨slot.val + 1, h⟩ else .finish t odd)
  | .finish _ odd => some ({ p with sequence := odd + 1 }, .unlock)
  | .unlock => some ({ p with writer := none }, .done)
  | .done => none

/-- What the step of a `publish` call completes. -/
def Publish.completes : Publish → List EqTarget
  | .finish t _ => [t]
  | _ => []

/-- Where a call of `load` stands; `values` is what was read so far.
mirrors src-tauri/src/audio/equalizer.rs:138-147 -/
inductive Load where
  | before
  | read (before : UInt32) (slot : Fin snapshotValues) (values : Values)
  | after (before : UInt32) (values : Values)
  | done (result : Option (UInt32 × EqTarget))
  deriving DecidableEq

/-- mirrors src-tauri/src/audio/equalizer.rs:138-147 -/
def loadStep (p : PublishedEq) : Load → Load
  | .before => if p.sequence &&& 1 ≠ 0 then .done none else .read p.sequence 0 fun _ => 0
  | .read before slot values =>
    let values := Function.update values slot (p.values slot)
    if h : slot.val + 1 < snapshotValues then .read before ⟨slot.val + 1, h⟩ values
    else .after before values
  | .after before values =>
    .done (if before = p.sequence then some (p.sequence, EqTarget.decode values) else none)
  | .done result => .done result

structure Loading where
  load : Load
  since : Nat
  deriving DecidableEq

/-- One step of a load after `completed` publications. -/
def Loading.step (p : PublishedEq) (completed : Nat) (x : Loading) : Loading where
  load := loadStep p x.load
  since := match x.load with
    | .before => completed
    | _ => x.since

/-! ## The equalizer -/

/-- mirrors src-tauri/src/audio/equalizer.rs:179-186 -/
structure StereoEqualizer where
  revision : UInt32
  current : EqTarget
  target : EqTarget
  remainingSamples : Nat
  smoothingSamples : Nat
  deriving DecidableEq

/-- `rounded` is the sample rate times 20 ms, rounded.
mirrors src-tauri/src/audio/equalizer.rs:189-199 -/
def StereoEqualizer.new (revision : UInt32) (target : EqTarget) (rounded : Nat) :
    StereoEqualizer where
  revision := revision
  current := target
  target := target
  remainingSamples := 0
  smoothingSamples := max rounded 1

/-- What `begin_block` does with what it loaded.
mirrors src-tauri/src/audio/equalizer.rs:201-210 -/
def StereoEqualizer.adopt (eq : StereoEqualizer) : Option (UInt32 × EqTarget) → StereoEqualizer
  | none => eq
  | some (revision, target) =>
    if revision ≠ eq.revision then
      { eq with revision, target, remainingSamples := eq.smoothingSamples }
    else eq

section Ramp

variable (lerp : F64 → F64 → Nat → F64)

/-- mirrors src-tauri/src/audio/equalizer.rs:32-38 -/
def BiquadCoefficients.lerpTowards (c target : BiquadCoefficients) (denominator : Nat) :
    BiquadCoefficients where
  b0 := lerp c.b0 target.b0 denominator
  b1 := lerp c.b1 target.b1 denominator
  b2 := lerp c.b2 target.b2 denominator
  a1 := lerp c.a1 target.a1 denominator
  a2 := lerp c.a2 target.a2 denominator

/-- mirrors src-tauri/src/audio/equalizer.rs:225-238 -/
def StereoEqualizer.advanceSmoothing (eq : StereoEqualizer) : StereoEqualizer :=
  if eq.remainingSamples = 0 then eq
  else if eq.remainingSamples - 1 = 0 then
    { eq with current := eq.target, remainingSamples := 0 }
  else
    { eq with
      current :=
        { mix := lerp eq.current.mix eq.target.mix eq.remainingSamples
          bands := fun band =>
            (eq.current.bands band).lerpTowards lerp (eq.target.bands band) eq.remainingSamples }
      remainingSamples := eq.remainingSamples - 1 }

end Ramp

/-- An equalizer, the load of the block it is in, and the publications it
took over. -/
structure Listener where
  eq : StereoEqualizer
  block : Option Loading
  adoptions : List Nat
  deriving DecidableEq

/-- Whether `begin_block` takes over what it loaded. -/
def StereoEqualizer.takes (eq : StereoEqualizer) : Option (UInt32 × EqTarget) → Bool
  | none => false
  | some (revision, _) => revision ≠ eq.revision

/-- The end of `begin_block`; `since` numbers the publication it loaded. -/
def Listener.finish (x : Listener) (result : Option (UInt32 × EqTarget)) (since : Nat) :
    Listener where
  eq := x.eq.adopt result
  block := none
  adoptions := x.adoptions ++ if x.eq.takes result then [since] else []

/-- One access of `begin_block`; with the last one it returns.
mirrors src-tauri/src/audio/equalizer.rs:201-210 -/
def Listener.blockStep (p : PublishedEq) (completed : Nat) (x : Listener) : Option Listener :=
  x.block.map fun loading =>
    let loading := loading.step p completed
    match loading.load with
    | .done result => x.finish result loading.since
    | _ => { x with block := some loading }

/-! ## The system -/

structure St where
  shared : PublishedEq
  calls : List Publish
  loads : List Loading
  listeners : List Listener
  published : List EqTarget

/-- Publications completed after the initial one. -/
def St.completed (s : St) : Nat := s.published.length - 1

inductive Lbl where
  /-- `publish` is called for settings that give the target `t` -/
  | publish (t : EqTarget)
  | publishStep (i : Nat)
  | load
  | loadStep (i : Nat)
  /-- an equalizer is made from what load `i` returned -/
  | create (i : Nat) (rounded : Nat)
  | beginBlock (j : Nat)
  | blockStep (j : Nat)
  /-- a sample is processed -/
  | advance (j : Nat)
  deriving DecidableEq

/-- mirrors src-tauri/src/audio/equalizer.rs:117-124 -/
def init (t : EqTarget) : St := ⟨⟨0, t.encode, none⟩, [], [], [], [t]⟩

section System

variable (lerp : F64 → F64 → Nat → F64)

def step (s : St) : Lbl → Option St
  | .publish t => some { s with calls := s.calls ++ [.lock t] }
  | .publishStep i => do
    let c ← s.calls[i]?
    let (shared, c') ← publishStep i s.shared c
    some { s with
      shared
      calls := s.calls.set i c'
      published := s.published ++ c.completes }
  | .load => some { s with loads := s.loads ++ [⟨.before, s.completed⟩] }
  | .loadStep i => do
    let x ← s.loads[i]?
    some { s with loads := s.loads.set i (x.step s.shared s.completed) }
  | .create i rounded => do
    let x ← s.loads[i]?
    match x.load with
    | .done (some (revision, target)) => some { s with
        listeners := s.listeners ++ [⟨.new revision target rounded, none, [x.since]⟩] }
    | _ => none
  | .beginBlock j => do
    let x ← s.listeners[j]?
    if x.block = none then
      some { s with
        listeners := s.listeners.set j { x with block := some ⟨.before, s.completed⟩ } }
    else none
  | .blockStep j => do
    let x ← s.listeners[j]?
    let x' ← x.blockStep s.shared s.completed
    some { s with listeners := s.listeners.set j x' }
  | .advance j => do
    let x ← s.listeners[j]?
    if x.block = none then
      some { s with listeners := s.listeners.set j { x with eq := x.eq.advanceSmoothing lerp } }
    else none

def system : LTS St Lbl := LTS.ofStep (fun s => ∃ t, s = init t) (step lerp)

end System

/-- Between the first and the last read of a load. -/
def Loading.reading (x : Loading) : Bool :=
  match x.load with
  | .read .. | .after .. => true
  | _ => false

/-- Fewer than 2^31 publications during each load. -/
def FewPublications (s : St) (_ : Lbl) : Prop :=
  (∀ x ∈ s.loads, x.reading = true → s.completed < x.since + 2 ^ 31) ∧
    ∀ x ∈ s.listeners, ∀ y ∈ x.block, y.reading = true → s.completed < y.since + 2 ^ 31

/-! ## The accesses of a block -/

/-- Accesses a load still makes. -/
def Load.left : Load → Nat
  | .before => snapshotValues + 2
  | .read _ slot _ => snapshotValues - slot.val + 1
  | .after .. => 1
  | .done _ => 0

theorem left_loadStep (p : PublishedEq) (x : Load) : (loadStep p x).left ≤ x.left - 1 := by
  cases x with
  | before =>
    simp only [loadStep]
    split <;> simp [Load.left]
  | read b slot values =>
    simp only [loadStep]
    split
    · simp only [Load.left]
      omega
    · simp only [Load.left]
      omega
  | after b values => simp [loadStep, Load.left]
  | done r => simp [loadStep, Load.left]

/-- Accesses left of the block an equalizer is in. -/
def Listener.left (x : Listener) : Nat := (x.block.map fun y => y.load.left).getD 0

def isDone : Load → Bool
  | .done _ => true
  | _ => false

theorem left_pos {x : Load} (h : ∀ r, x ≠ .done r) : 0 < x.left := by
  cases x <;> simp_all [Load.left]

/-- A block that has started takes its next step in every state, and no more
than 18 of them. -/
theorem blockStep_left {p : PublishedEq} {n : Nat} {x : Listener} {y : Loading}
    (hy : x.block = some y) (hl : 0 < y.load.left) :
    ∃ x', x.blockStep p n = some x' ∧ x'.left < x.left ∧ ∀ z ∈ x'.block, 0 < z.load.left := by
  have hleft : x.left = y.load.left := by simp [Listener.left, hy]
  have hstep := left_loadStep p y.load
  simp only [Listener.blockStep, hy, Option.map_some, Option.some.injEq, exists_eq_left']
  split
  · rw [hleft]
    exact ⟨hl, fun z hz => by cases hz⟩
  · rename_i hd
    have hpos : 0 < (loadStep p y.load).left := left_pos hd
    have hx' : ∀ z : Loading, ({ x with block := some z } : Listener).left = z.load.left := by
      intro z
      simp [Listener.left]
    rw [hx', hleft]
    have hlt : (loadStep p y.load).left < y.load.left := by omega
    exact ⟨hlt, fun z hz => Option.mem_some.mp hz ▸ hpos⟩

/-- The block an equalizer is in has not returned. -/
def Listener.running (x : Listener) : Prop := ∀ y ∈ x.block, 0 < y.load.left

/-! ## The sequence number -/

/-- The number is that of publication `n`. -/
def IsRevision (w : UInt32) (n : Nat) : Prop := w.toNat = 2 * n % 2 ^ 32

theorem IsRevision.even {w : UInt32} {n : Nat} (h : IsRevision w n) : w.toNat % 2 = 0 := by
  unfold IsRevision at h
  omega

theorem IsRevision.mark {w : UInt32} {n : Nat} (h : IsRevision w n) :
    ((w + 1) ||| 1).toNat = (2 * n + 1) % 2 ^ 32 := by
  have hodd : (w + 1).toNat = (2 * n + 1) % 2 ^ 32 := by
    unfold IsRevision at h
    rw [UInt32.toNat_add, h, UInt32.toNat_one]
    omega
  rw [UInt32.toNat_or, UInt32.toNat_one, hodd]
  exact or_one_of_odd (by omega)

theorem isRevision_finish {odd : UInt32} {n : Nat} (h : odd.toNat = (2 * n + 1) % 2 ^ 32) :
    IsRevision (odd + 1) (n + 1) := by
  unfold IsRevision
  rw [UInt32.toNat_add, h, UInt32.toNat_one]
  omega

/-- Two publications less than 2^31 apart have different numbers. -/
theorem IsRevision.unique {w : UInt32} {a b : Nat} (ha : IsRevision w a) (hb : IsRevision w b)
    (hle : a ≤ b) (hlt : b < a + 2 ^ 31) : a = b := by
  unfold IsRevision at ha hb
  omega

theorem IsRevision.dvd {w : UInt32} {a b : Nat} (ha : IsRevision w a) (hb : IsRevision w b)
    (hle : a ≤ b) : 2 ^ 31 ∣ b - a := by
  unfold IsRevision at ha hb
  omega

theorem IsRevision.of_dvd {w w' : UInt32} {a b : Nat} (ha : IsRevision w a)
    (hb : IsRevision w' b) (hle : a ≤ b) (hd : 2 ^ 31 ∣ b - a) : w = w' := by
  unfold IsRevision at ha hb
  rw [← UInt32.toNat_inj]
  omega

/-! ## The invariant -/

/-- No publication is half done: the last one is there, whole. -/
def Quiet (h : List EqTarget) (p : PublishedEq) : Prop :=
  IsRevision p.sequence (h.length - 1) ∧ ∃ t, h.getLast? = some t ∧ p.values = t.encode

/-- The number is odd, and the first `stored` values are those of `t`. -/
def Storing (h : List EqTarget) (p : PublishedEq) (t : EqTarget) (odd : UInt32) (stored : Nat) :
    Prop :=
  p.sequence = odd ∧ odd.toNat = (2 * (h.length - 1) + 1) % 2 ^ 32 ∧
    ∀ i, i.val < stored → p.values i = t.encode i

/-- What holds while a `publish` call owns the mutex. -/
def Phase (h : List EqTarget) (p : PublishedEq) : Publish → Prop
  | .load _ | .unlock => Quiet h p
  | .mark _ odd => Quiet h p ∧ odd.toNat = (2 * (h.length - 1) + 1) % 2 ^ 32
  | .store t odd slot => Storing h p t odd slot.val
  | .finish t odd => Storing h p t odd snapshotValues
  | .lock _ | .done => False

/-- The load began when publication `n` was the last one. -/
def Began (h : List EqTarget) (before : UInt32) (n : Nat) : Prop :=
  n < h.length ∧ IsRevision before n

/-- As long as the number has not moved, the values read are there. -/
def Reads (h : List EqTarget) (p : PublishedEq) (before : UInt32) (n read : Nat)
    (values : Values) : Prop :=
  p.sequence = before → n + 1 = h.length → ∀ i, i.val < read → values i = p.values i

/-- `r` and `t` are the number and the target of publication `n`. -/
def IsPublication (h : List EqTarget) (n : Nat) (r : UInt32) (t : EqTarget) : Prop :=
  h[n]? = some t ∧ IsRevision r n

def LoadHolds (h : List EqTarget) (p : PublishedEq) (x : Loading) : Prop :=
  match x.load with
  | .before | .done none => True
  | .read before slot values =>
    Began h before x.since ∧ Reads h p before x.since slot.val values
  | .after before values =>
    Began h before x.since ∧ Reads h p before x.since snapshotValues values
  | .done (some (r, t)) => IsPublication h x.since r t

/-- The last adoption of an equalizer is its target. -/
structure ListenerHolds (h : List EqTarget) (p : PublishedEq) (x : Listener) : Prop where
  adopted : ∃ a, x.adoptions.getLast? = some a ∧ IsPublication h a x.eq.revision x.eq.target
  increasing : x.adoptions.Pairwise (· < ·)
  block : ∀ y ∈ x.block, LoadHolds h p y
  since : ∀ y ∈ x.block, y.load ≠ .before → ∀ a ∈ x.adoptions, a ≤ y.since
  past : ∀ a ∈ x.adoptions, a < h.length
  running : x.running
  ramp : x.eq.remainingSamples = 0 → x.eq.current = x.eq.target
  smoothing : 0 < x.eq.smoothingSamples

/-- A `publish` call holds the mutex. -/
def Publish.holds : Publish → Bool
  | .lock _ | .done => false
  | _ => true

structure Inv (s : St) : Prop where
  published : s.published ≠ []
  owner : ∀ i c, s.calls[i]? = some c → (c.holds = true ↔ s.shared.writer = some i)
  idle : s.shared.writer = none → Quiet s.published s.shared
  phase : ∀ i, s.shared.writer = some i → ∃ c, s.calls[i]? = some c ∧ Phase s.published s.shared c
  loads : ∀ x ∈ s.loads, LoadHolds s.published s.shared x
  listeners : ∀ x ∈ s.listeners, ListenerHolds s.published s.shared x

/-- An even number is the last publication's. -/
theorem Inv.quiet {s : St} (I : Inv s) (he : s.shared.sequence.toNat % 2 = 0) :
    Quiet s.published s.shared := by
  cases hw : s.shared.writer with
  | none => exact I.idle hw
  | some i =>
    obtain ⟨c, -, hp⟩ := I.phase i hw
    have hodd : ∀ {t odd n}, ¬Storing s.published s.shared t odd n := by
      intro t odd n h
      rw [h.1, h.2.1] at he
      omega
    cases c with
    | load t => exact hp
    | mark t odd => exact hp.1
    | unlock => exact hp
    | store t odd slot => exact absurd hp hodd
    | finish t odd => exact absurd hp hodd
    | lock t => exact hp.elim
    | done => exact hp.elim

end RtpOscMidi.L5.EqualizerSeqlock
