import RtpOscMidi.Core.Bits
import RtpOscMidi.Core.Lists
import RtpOscMidi.L1Encoding.MidiMessage

/-!
# What every source holds

`SourceMidiState` keeps, for each source, the notes and pedals it holds, so
that the reset of one source can release what only that source holds. The
table is a `HashMap`; here it is an association list without double keys,
in any order.

* `claims_observe`: a frame does to its source's claims what it does to an
  instrument.
* `mem_releaseSource`, `claims_releaseSource`: the releases are what the
  source alone claims, and no other source's claims change.
* `releaseSource_perm`: the order of the table does not matter.
-/
namespace RtpOscMidi.L2.SourceState

open Core L1.MidiMessage

/-- mirrors src-tauri/src/midi.rs:12-16 -/
structure SourceNotes where
  notes : Fin 16 → BitVec 128
  pedals : Fin 16 → Fin 3 → Bool

def SourceNotes.default : SourceNotes := ⟨fun _ => 0, fun _ _ => false⟩

abbrev SourceMidiState := AList fun _ : String => SourceNotes

/-- mirrors `HOLD_PEDALS.iter().position` of src-tauri/src/midi.rs:41 -/
def pedalPosition (controller : UInt8) : Option (Fin 3) :=
  (List.finRange 3).find? fun p => holdPedals p = controller

/-- mirrors src-tauri/src/midi.rs:35-48 -/
def SourceNotes.update (state : SourceNotes) (status d1 d2 : UInt8) : SourceNotes :=
  let c := channel status
  if status &&& 0xF0 = 0x90 ∧ 0 < d2 then
    { state with notes := Function.update state.notes c (setBit (state.notes c) d1.toNat) }
  else if status &&& 0xF0 = 0x80 ∨ status &&& 0xF0 = 0x90 then
    { state with notes := Function.update state.notes c (clearBit (state.notes c) d1.toNat) }
  else if status &&& 0xF0 = 0xB0 then
    match pedalPosition d1 with
    | some p =>
      { state with
        pedals := Function.update state.pedals c
          (Function.update (state.pedals c) p (decide (64 ≤ d2))) }
    | none =>
      if d1 = 120 ∨ (123 ≤ d1 ∧ d1 ≤ 127) then
        { state with notes := Function.update state.notes c 0 }
      else if d1 = 121 then
        { state with pedals := Function.update state.pedals c fun _ => false }
      else state
  else state

/-- mirrors src-tauri/src/midi.rs:49-51 -/
def SourceNotes.isEmpty (state : SourceNotes) : Bool :=
  ((List.finRange 16).all fun c => state.notes c == 0) &&
    !((List.finRange 16).any fun c => (List.finRange 3).any fun p => state.pedals c p)

/-- mirrors src-tauri/src/midi.rs:21-54 -/
def observe (st : SourceMidiState) (frame : MidiFrame) : SourceMidiState :=
  if frame.data = [0xFF] then ∅
  else match frame.data with
    | [status, d1, d2] =>
      if ¬(0x80 ≤ status ∧ status < 0xF0) ∨ 127 < d1 ∨ 127 < d2 then st
      else
        let state := ((st.lookup frame.source).getD .default).update status d1 d2
        if state.isEmpty then st.erase frame.source else st.insert frame.source state
    | _ => st

/-- The releases of one channel.
mirrors src-tauri/src/midi.rs:61-82 -/
def releases (removed : SourceNotes) (others : List SourceNotes) (c : Fin 16) : List (List UInt8) :=
  let otherNotes := others.foldl (fun notes state => notes ||| state.notes c) 0
  let exclusive := removed.notes c &&& ~~~otherNotes
  ((drainBits 128 exclusive).map fun note => [0x80 ||| UInt8.ofNat c, UInt8.ofNat note, 0]) ++
    ((List.finRange 3).filter fun p => removed.pedals c p && !others.any fun state => state.pedals c p).map
      fun p => [0xB0 ||| UInt8.ofNat c, holdPedals p, 0]

/-- mirrors src-tauri/src/midi.rs:56-84 -/
def releaseSource (st : SourceMidiState) (source : String) :
    List (List UInt8) × SourceMidiState :=
  match st.lookup source with
  | none => ([], st)
  | some removed =>
    let st := st.erase source
    ((List.finRange 16).flatMap (releases removed (st.entries.map Sigma.snd)), st)

/-! ## Claims -/

def SourceNotes.has (state : SourceNotes) : Held → Bool
  | .note c n => (state.notes c).getLsbD n
  | .pedal c p => state.pedals c p

/-- The source holds it, as far as the table knows. -/
def claims (st : SourceMidiState) (source : String) (h : Held) : Bool :=
  (st.lookup source).any fun state => state.has h

theorem pedalPosition_holdPedals : ∀ p, pedalPosition (holdPedals p) = some p := by decide

theorem pedalPosition_eq_some {d1 : UInt8} {p : Fin 3} :
    pedalPosition d1 = some p ↔ d1 = holdPedals p := by
  constructor
  · intro h
    simpa [eq_comm] using List.find?_some h
  · rintro rfl
    exact pedalPosition_holdPedals p

theorem pedalPosition_eq_none {d1 : UInt8} (h : pedalPosition d1 = none) (p : Fin 3) :
    d1 ≠ holdPedals p := by
  intro hd
  rw [pedalPosition_eq_some.mpr hd] at h
  cases h

theorem has_update_of_ne (state : SourceNotes) (status d1 d2 : UInt8) {h : Held}
    (hc : channel status ≠ h.channel) : (state.update status d1 d2).has h = state.has h := by
  unfold SourceNotes.update
  have hc' : h.channel ≠ channel status := Ne.symm hc
  cases h with
  | note c n =>
    have hc' : c ≠ channel status := hc'
    split
    · simp [SourceNotes.has, hc']
    · split
      · simp [SourceNotes.has, hc']
      · split
        · split
          · rfl
          · split
            · simp [SourceNotes.has, hc']
            · split <;> rfl
        · rfl
  | pedal c p =>
    have hc' : c ≠ channel status := hc'
    split
    · rfl
    · split
      · rfl
      · split
        · split
          · simp [SourceNotes.has, hc']
          · split
            · rfl
            · split
              · simp [SourceNotes.has, hc']
              · rfl
        · rfl

/-- A controller: a pedal, a channel mode, or neither. -/
theorem has_update_control (state : SourceNotes) {status d1 d2 : UInt8} (h1 : ¬127 < d1)
    (h2 : ¬127 < d2) {h : Held} (hc : channel status = h.channel)
    (hcc : status &&& 0xF0 = 0xB0) :
    (state.update status d1 d2).has h = (effect [status, d1, d2] h).getD (state.has h) := by
  unfold SourceNotes.update effect
  cases hp : pedalPosition d1 with
  | some p =>
    have hd := pedalPosition_eq_some.mp hp
    obtain ⟨-, h120, h121, h123⟩ := release_pedal p
    cases h with
    | note c n => simp [SourceNotes.has, hcc, hd, h120, h123]
    | pedal c q =>
      have hc : channel status = c := hc
      by_cases hpq : p = q
      · subst hpq
        simp [SourceNotes.has, Held.channel, hc, hcc, hd, h2, release_pedal p]
      · have hne : holdPedals p ≠ holdPedals q := fun h => hpq (holdPedals_injective p q h)
        simp [SourceNotes.has, Held.channel, hc, hcc, hd, h2, hne, h121, Ne.symm hpq, release_pedal p]
  | none =>
    have hd := pedalPosition_eq_none hp
    have hle : d1 ≤ 127 := UInt8.not_lt.mp h1
    cases h with
    | note c n =>
      have hc : channel status = c := hc
      by_cases hm : d1 = 120 ∨ 123 ≤ d1
      · simp [SourceNotes.has, Held.channel, hc, hcc, h1, h2, hle, hm]
      · by_cases h121 : d1 = 121 <;>
          simp [SourceNotes.has, Held.channel, hc, hcc, h1, h2, hle, hm, h121]
    | pedal c q =>
      have hc : channel status = c := hc
      by_cases h121 : d1 = 121
      · subst h121
        simp [SourceNotes.has, Held.channel, hc, hcc, h2, hd]
      · by_cases hm : d1 = 120 ∨ 123 ≤ d1 <;>
          simp [SourceNotes.has, Held.channel, hc, hcc, h1, h2, hle, hm, h121, hd]

/-- What an update does to the notes and pedals of a source. -/
theorem has_update (state : SourceNotes) {status d1 d2 : UInt8} (h1 : ¬127 < d1) (h2 : ¬127 < d2)
    (h : Held) :
    (state.update status d1 d2).has h = (effect [status, d1, d2] h).getD (state.has h) := by
  by_cases hc : channel status = h.channel
  · by_cases hcc : status &&& 0xF0 = 0xB0
    · exact has_update_control state h1 h2 hc hcc
    · unfold SourceNotes.update effect
      simp only [hc, h1, h2, ne_eq, not_true_eq_false, or_self, if_false]
      by_cases hon : status &&& 0xF0 = 0x90 ∧ 0 < d2
      · cases h with
        | note c n =>
          by_cases hn : d1.toNat = n
          · simp [SourceNotes.has, Held.channel, hon, hn]
          · simp [SourceNotes.has, Held.channel, hon, hn, Ne.symm hn]
        | pedal c p => simp [SourceNotes.has, hon]
      · rw [if_neg hon]
        by_cases hoff : status &&& 0xF0 = 0x80 ∨ status &&& 0xF0 = 0x90
        · cases h with
          | note c n =>
            by_cases hn : d1.toNat = n
            · simp [SourceNotes.has, Held.channel, hon, hoff, hn]
            · simp [SourceNotes.has, Held.channel, hon, hoff, hn, Ne.symm hn]
          | pedal c p => simp [SourceNotes.has, hoff, hcc]
        · cases h <;> simp [SourceNotes.has, hon, hoff, hcc]
  · rw [has_update_of_ne state status d1 d2 hc]
    simp [effect, hc]

theorem has_default (h : Held) : SourceNotes.default.has h = false := by
  cases h <;> simp [SourceNotes.has, SourceNotes.default]

theorem has_of_isEmpty {state : SourceNotes} (he : state.isEmpty = true) (h : Held) :
    state.has h = false := by
  simp only [SourceNotes.isEmpty, Bool.and_eq_true, List.all_eq_true, List.mem_finRange,
    forall_const, beq_iff_eq, Bool.not_eq_true', List.any_eq_false, Bool.not_eq_true] at he
  cases h with
  | note c n => simp [SourceNotes.has, he.1 c]
  | pedal c p => exact he.2 c p

theorem claims_default (st : SourceMidiState) (source : String) (h : Held) :
    ((st.lookup source).getD .default).has h = claims st source h := by
  unfold claims
  cases st.lookup source with
  | none => exact has_default h
  | some state => rfl

theorem claims_insert (st : SourceMidiState) (source s : String) (state : SourceNotes) (h : Held) :
    claims (st.insert source state) s h = if s = source then state.has h else claims st s h := by
  unfold claims
  by_cases hs : s = source
  · subst hs
    simp
  · rw [AList.lookup_insert_ne hs, if_neg hs]

theorem claims_erase (st : SourceMidiState) (source s : String) (h : Held) :
    claims (st.erase source) s h = if s = source then false else claims st s h := by
  unfold claims
  by_cases hs : s = source
  · subst hs
    simp
  · rw [AList.lookup_erase_ne hs, if_neg hs]

/-- A frame that is no reset: its source's claims change as an instrument
would, the others stay. -/
theorem claims_observe (st : SourceMidiState) {frame : MidiFrame} (hd : frame.data ≠ [0xFF])
    (s : String) (h : Held) :
    claims (observe st frame) s h =
      if s = frame.source then (effect frame.data h).getD (claims st s h) else claims st s h := by
  unfold observe
  rw [if_neg hd]
  match hdata : frame.data with
  | [] | [_] | [_, _] | _ :: _ :: _ :: _ :: _ => simp [effect]
  | [status, d1, d2] =>
    simp only
    by_cases hbad : ¬(0x80 ≤ status ∧ status < 0xF0) ∨ 127 < d1 ∨ 127 < d2
    · have he : effect [status, d1, d2] h = none := by
        by_contra he
        have hst := (voice_status status (status_of_effect he).2).1
        rcases hbad with hbad | hbad
        · exact hbad hst
        · simp [effect, hbad] at he
      rw [if_pos hbad, he]
      simp
    · rw [if_neg hbad]
      simp only [not_or] at hbad
      have hup : (((st.lookup frame.source).getD .default).update status d1 d2).has h =
          (effect [status, d1, d2] h).getD (claims st frame.source h) := by
        rw [has_update _ hbad.2.1 hbad.2.2, claims_default]
      split
      · rename_i hempty
        rw [claims_erase]
        by_cases hs : s = frame.source
        · rw [if_pos hs, if_pos hs, hs, ← hup, has_of_isEmpty hempty]
        · rw [if_neg hs, if_neg hs]
      · rw [claims_insert]
        by_cases hs : s = frame.source
        · rw [if_pos hs, if_pos hs, hs, hup]
        · rw [if_neg hs, if_neg hs]

theorem observe_reset (st : SourceMidiState) {frame : MidiFrame} (hd : frame.data = [0xFF])
    (s : String) (h : Held) : claims (observe st frame) s h = false := by
  simp [observe, hd, claims]

/-! ## Releases -/

/-- Held by the source and by no other. -/
def Exclusive (st : SourceMidiState) (source : String) (h : Held) : Prop :=
  claims st source h = true ∧ ∀ other, other ≠ source → claims st other h = false

theorem mem_noteReleases {x : BitVec 128} {c : Fin 16} {m : List UInt8} :
    m ∈ (drainBits 128 x).map (fun note => [0x80 ||| UInt8.ofNat c, UInt8.ofNat note, 0]) ↔
      ∃ n : Fin 128, m = releaseMessage (.note c n) ∧ x.getLsbD n = true := by
  rw [List.mem_map]
  constructor
  · rintro ⟨n, hn, rfl⟩
    have hn := mem_drainBits.mp hn
    exact ⟨⟨n, BitVec.lt_of_getLsbD hn⟩, rfl, hn⟩
  · rintro ⟨n, rfl, hn⟩
    exact ⟨n, mem_drainBits.mpr hn, rfl⟩

theorem mem_pedalReleases {p : Fin 3 → Bool} {c : Fin 16} {m : List UInt8} :
    m ∈ ((List.finRange 3).filter p).map (fun p => [0xB0 ||| UInt8.ofNat c, holdPedals p, 0]) ↔
      ∃ q, m = releaseMessage (.pedal c q) ∧ p q = true := by
  rw [List.mem_map]
  constructor
  · rintro ⟨q, hq, rfl⟩
    exact ⟨q, rfl, (List.mem_filter.mp hq).2⟩
  · rintro ⟨q, rfl, hq⟩
    exact ⟨q, List.mem_filter.mpr ⟨List.mem_finRange q, hq⟩, rfl⟩

/-- What is released on a channel: what `removed` has and no other. -/
theorem mem_releases {removed : SourceNotes} {others : List SourceNotes} {c : Fin 16}
    {m : List UInt8} :
    m ∈ releases removed others c ↔ ∃ h, m = releaseMessage h ∧ h.channel = c ∧
      removed.has h = true ∧ (others.any fun state => state.has h) = false := by
  unfold releases
  rw [List.mem_append, mem_noteReleases, mem_pedalReleases]
  constructor
  · rintro (⟨n, rfl, hn⟩ | ⟨q, rfl, hq⟩)
    · rw [BitVec.getLsbD_and, BitVec.getLsbD_not, getLsbD_foldl_or] at hn
      simp only [Fin.is_lt, decide_true, Bool.true_and, Bool.and_eq_true, Bool.not_eq_true'] at hn
      exact ⟨.note c n, rfl, rfl, hn⟩
    · simp only [Bool.and_eq_true, Bool.not_eq_true'] at hq
      exact ⟨.pedal c q, rfl, rfl, hq⟩
  · rintro ⟨h, rfl, rfl, hh, ho⟩
    cases h with
    | note c n =>
      refine .inl ⟨n, rfl, ?_⟩
      rw [BitVec.getLsbD_and, BitVec.getLsbD_not, getLsbD_foldl_or]
      simp only [SourceNotes.has] at hh ho
      simp only [Held.channel, hh, ho, Fin.is_lt, decide_true, Bool.not_false, Bool.and_self]
    | pedal c q =>
      refine .inr ⟨q, rfl, ?_⟩
      simp only [SourceNotes.has] at hh ho
      simp only [Held.channel, hh, ho, Bool.not_false, Bool.and_self]

theorem releases_nodup (removed : SourceNotes) (others : List SourceNotes) (c : Fin 16) :
    (releases removed others c).Nodup := by
  refine List.Nodup.append ?_ ?_ ?_
  · refine List.Nodup.map_on ?_ ((drainBits_sorted 128 _).imp Nat.ne_of_lt)
    intro n hn n' hn' he
    have hlt := BitVec.lt_of_getLsbD (mem_drainBits.mp hn)
    have hlt' := BitVec.lt_of_getLsbD (mem_drainBits.mp hn')
    have he : releaseMessage (.note c ⟨n, hlt⟩) = releaseMessage (.note c ⟨n', hlt'⟩) := he
    cases releaseMessage_injective he
    rfl
  · refine List.Nodup.map_on ?_ ((List.nodup_finRange 3).filter _)
    intro p _ p' _ he
    have he : releaseMessage (.pedal c p) = releaseMessage (.pedal c p') := he
    cases releaseMessage_injective he
    rfl
  · intro m hm hm'
    obtain ⟨n, rfl, -⟩ := mem_noteReleases.mp hm
    obtain ⟨q, he, -⟩ := mem_pedalReleases.mp hm'
    cases releaseMessage_injective he

/-- A reset releases what its source alone holds. -/
theorem mem_releaseSource {st : SourceMidiState} {source : String} {m : List UInt8} :
    m ∈ (releaseSource st source).1 ↔ ∃ h, m = releaseMessage h ∧ Exclusive st source h := by
  unfold releaseSource Exclusive
  cases hl : st.lookup source with
  | none => simp [claims, hl]
  | some removed =>
    have hothers : ∀ h, (((st.erase source).entries.map Sigma.snd).any fun state => state.has h) = false ↔
        ∀ other, other ≠ source → claims st other h = false := by
      intro h
      rw [← Bool.not_eq_true, any_entries]
      change (¬∃ other, claims (st.erase source) other h = true) ↔ _
      simp only [claims_erase, not_exists, Bool.not_eq_true]
      refine forall_congr' fun other => ?_
      by_cases ho : other = source <;> simp [ho]
    simp only [List.mem_flatMap, List.mem_finRange, true_and, mem_releases]
    constructor
    · rintro ⟨c, h, rfl, -, hh, ho⟩
      exact ⟨h, rfl, by simp [claims, hl, hh], (hothers h).mp ho⟩
    · rintro ⟨h, rfl, hh, ho⟩
      exact ⟨h.channel, h, rfl, rfl, by simpa [claims, hl] using hh, (hothers h).mpr ho⟩

theorem releaseSource_nodup (st : SourceMidiState) (source : String) :
    (releaseSource st source).1.Nodup := by
  unfold releaseSource
  cases st.lookup source with
  | none => exact List.nodup_nil
  | some removed =>
    refine List.nodup_flatMap.mpr ⟨fun c _ => releases_nodup _ _ c, ?_⟩
    refine (List.nodup_finRange 16).imp fun {c c'} hne m hm hm' => ?_
    obtain ⟨h, rfl, rfl, -⟩ := mem_releases.mp hm
    obtain ⟨h', he, rfl, -⟩ := mem_releases.mp hm'
    exact hne (by rw [releaseMessage_injective he])

theorem lookup_releaseSource (st : SourceMidiState) (source s : String) :
    (releaseSource st source).2.lookup s = if s = source then none else st.lookup s := by
  unfold releaseSource
  by_cases hs : s = source
  · subst hs
    cases hl : st.lookup s <;> simp [hl]
  · cases hl : st.lookup source with
    | none => simp [hs]
    | some removed => simp [hs, AList.lookup_erase_ne hs]

theorem claims_releaseSource (st : SourceMidiState) (source s : String) (h : Held) :
    claims (releaseSource st source).2 s h = if s = source then false else claims st s h := by
  unfold claims
  rw [lookup_releaseSource]
  by_cases hs : s = source <;> simp [hs]

/-- The order of the table changes neither the releases nor the table. -/
theorem releaseSource_perm {st st' : SourceMidiState} (hp : st.entries.Perm st'.entries)
    (source : String) :
    (releaseSource st source).1 = (releaseSource st' source).1 ∧
      (releaseSource st source).2.entries.Perm (releaseSource st' source).2.entries := by
  unfold releaseSource
  rw [AList.perm_lookup hp]
  cases st'.lookup source with
  | none => exact ⟨rfl, hp⟩
  | some removed =>
    have herase := AList.perm_erase (a := source) hp
    refine ⟨congrArg (fun f => (List.finRange 16).flatMap f) (funext fun c => ?_), herase⟩
    have hothers := herase.map Sigma.snd
    unfold releases
    have hfold : ∀ f : SourceNotes → BitVec 128,
        ((st.erase source).entries.map Sigma.snd).foldl (fun notes state => notes ||| f state) 0 =
          ((st'.erase source).entries.map Sigma.snd).foldl (fun notes state => notes ||| f state) 0 :=
      fun f => hothers.foldl_eq' (fun a _ b _ z => by
        rw [BitVec.or_assoc, BitVec.or_comm (f a) (f b), ← BitVec.or_assoc]) 0
    have hany : ∀ f : SourceNotes → Bool,
        ((st.erase source).entries.map Sigma.snd).any f =
          ((st'.erase source).entries.map Sigma.snd).any f := fun f => hothers.any_eq
    rw [hfold]
    simp only [hany]

end RtpOscMidi.L2.SourceState
