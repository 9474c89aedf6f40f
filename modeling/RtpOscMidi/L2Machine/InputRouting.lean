import RtpOscMidi.L1Encoding.MidiMessage

/-!
# Input routing and admission

An input frame is normalized, mapped by the profile of its source and put in
the queue, with the reserved places open to it where it releases something.
`classify_input_frame` tells beforehand whether it will be, from a copy that is
mapped but not normalized.

* `input_classification`: it is right for every message that is valid, what is
  queued is that message with its number mapped once, and only a release that
  finds no place resets the receivers.
* `invalid_release_classified`: it is not for one that is not valid.
-/
namespace RtpOscMidi.L2.InputRouting

open L1.MidiMessage

/-- mirrors src-tauri/src/config.rs:32-35 -/
structure RoutingMapping where
  source : UInt8
  target : UInt8
  deriving DecidableEq, Repr

/-- mirrors src-tauri/src/config.rs:39-48 -/
structure RoutingProfile where
  id : String
  enabled : Bool
  channelFilter : Option UInt8
  noteMin : Option UInt8
  noteMax : Option UInt8
  ccMap : List RoutingMapping
  programMap : List RoutingMapping
  deriving DecidableEq, Repr

/-- mirrors src-tauri/src/config.rs:52-55 -/
structure RoutingAssignment where
  source : String
  profileId : String
  deriving DecidableEq, Repr

/-- The settings of the MIDI input. mirrors src-tauri/src/config.rs:59-67 -/
structure MidiConfig where
  channelFilter : Option UInt8
  routingProfiles : List RoutingProfile
  routingAssignments : List RoutingAssignment
  deriving DecidableEq, Repr

/-- mirrors src-tauri/src/bridge/pipeline.rs:83-91 -/
structure RoutingProfileRuntime where
  id : String
  channelFilter : Option UInt8
  noteMin : Option UInt8
  noteMax : Option UInt8
  ccMap : List UInt8
  programMap : List UInt8
  enabled : Bool
  deriving DecidableEq, Repr

/-- One turn of the loops over `cc_map` and `program_map`. -/
def setNumber (map : List UInt8) (p : RoutingMapping) : List UInt8 :=
  if p.source < 128 ∧ p.target < 128 then map.set p.source.toNat p.target else map

/-- The 128 numbers, each for itself, and then the mappings. -/
def buildMap (mappings : List RoutingMapping) : List UInt8 :=
  mappings.foldl setNumber ((List.range 128).map UInt8.ofNat)

/-- mirrors src-tauri/src/bridge/pipeline.rs:93-121 -/
def RoutingProfileRuntime.fromProfile (profile : RoutingProfile) : RoutingProfileRuntime where
  id := profile.id
  channelFilter := profile.channelFilter
  noteMin := profile.noteMin
  noteMax := profile.noteMax
  ccMap := buildMap profile.ccMap
  programMap := buildMap profile.programMap
  enabled := profile.enabled

/-- A later entry of `routingAssignments` hides an earlier one.
mirrors src-tauri/src/bridge/pipeline.rs:124-136 -/
structure ConfigSnapshot where
  channelFilter : Option UInt8
  routingProfiles : List RoutingProfileRuntime
  routingAssignments : List (String × Nat)
  deriving DecidableEq, Repr

/-- mirrors src-tauri/src/bridge/pipeline.rs:185-218 -/
def ConfigSnapshot.ofConfig (cfg : MidiConfig) : ConfigSnapshot :=
  let profileIndex := cfg.routingProfiles.zipIdx.foldl (fun m p => (p.1.id, p.2) :: m) []
  { channelFilter := cfg.channelFilter
    routingProfiles := cfg.routingProfiles.map RoutingProfileRuntime.fromProfile
    routingAssignments := cfg.routingAssignments.foldl (fun m a =>
      match profileIndex.lookup a.profileId with
      | some idx => (a.source, idx) :: m
      | none => m) [] }

/-- `str::rfind`: where the last `pat` begins. -/
def rfind (pat s : List Char) : Option Nat :=
  (List.range (s.length + 1)).reverse.find? fun i => pat.isPrefixOf (s.drop i)

/-- The source of an RTP peer without what tells one session of it from
another. -/
def peerName (source : String) : Option String :=
  if "RTP:".toList.isPrefixOf source.toList then
    let rest := source.toList.drop 4
    ((rfind "#ssrc_".toList rest).or (rfind ['@'] rest)).map fun cut =>
      String.ofList (source.toList.take (4 + cut))
  else none

def ConfigSnapshot.profileIndex (s : ConfigSnapshot) (source : String) : Option Nat :=
  (s.routingAssignments.lookup source).or
    ((peerName source).bind fun name => s.routingAssignments.lookup name)

/-- mirrors src-tauri/src/bridge/pipeline.rs:157-167 -/
def profileForSource (s : ConfigSnapshot) (source : String) : Option RoutingProfileRuntime :=
  (s.profileIndex source).bind fun index => s.routingProfiles[index]?

/-- `profile.cc_map.get(idx)` in the place of the number. -/
def mapByte (map : List UInt8) (status : UInt8) : List UInt8 → Option (List UInt8)
  | [] => some [status]
  | number :: rest => map[number.toNat]?.map fun mapped => status :: mapped :: rest

/-- `none`: the profile rejects.
mirrors src-tauri/src/bridge/pipeline.rs:517-567 -/
def applyRoutingProfile (profile : RoutingProfileRuntime) (data : List UInt8) :
    Option (List UInt8) :=
  match data with
  | [] => some []
  | status :: rest =>
    if 0xF0 ≤ status then some data
    else if profile.channelFilter.any (· != (status &&& 0x0F) + 1) then none
    else if status &&& 0xF0 = 0x80 ∨ status &&& 0xF0 = 0x90 then
      if rest.head?.any fun note =>
          profile.noteMin.any (note < ·) || profile.noteMax.any (· < note) then none
      else some data
    else if status &&& 0xF0 = 0xB0 then mapByte profile.ccMap status rest
    else if status &&& 0xF0 = 0xC0 then mapByte profile.programMap status rest
    else some data

/-- The published preparation. -/
structure Preparation where
  snapshot : ConfigSnapshot
  valid : Bool
  deriving DecidableEq, Repr

/-- mirrors src-tauri/src/bridge/pipeline.rs:169-177 -/
def prepareInputRouting (snapshot : ConfigSnapshot) (frame : MidiFrame) : Option MidiFrame :=
  if acceptsChannel snapshot.channelFilter frame.data then
    match (profileForSource snapshot frame.source).filter (·.enabled) with
    | none => some frame
    | some profile => (applyRoutingProfile profile frame.data).map fun data => { frame with data }
  else none

/-- mirrors src-tauri/src/midi_queue.rs:223-229 -/
def prepare (published : Option Preparation) (frame : MidiFrame) : Option MidiFrame :=
  match published with
  | none => some frame
  | some p => if p.valid then prepareInputRouting p.snapshot frame else none

/-- mirrors src-tauri/src/bridge/pipeline.rs:147-155 -/
def classifyInputFrame (published : Option Preparation) (frame : MidiFrame) : Bool :=
  if 3 < frame.data.length then false
  else match prepare published frame with
    | none => false
    | some candidate => isCriticalReleaseMessage candidate.data

inductive TrySendError where
  | full
  | disconnected
  deriving DecidableEq, Repr

/-- mirrors src-tauri/src/bridge/pipeline.rs:52-70 -/
inductive EnqueueResult where
  | enqueued
  | droppedNonCritical
  | filtered
  | invalidMessage
  | criticalReleaseDropped
  | disconnected
  deriving DecidableEq, Repr

/-- What a call returns, the frame it offers to the queue, and how often it
calls `request_critical_midi_reset`. -/
structure Enqueue where
  result : EnqueueResult
  submitted : Option MidiFrame
  resets : Nat
  deriving DecidableEq, Repr

/-- `first` and `retry` are what the queue answers.
mirrors src-tauri/src/bridge/pipeline.rs:637-676 -/
def enqueuePreparedMidiFrame (frame : MidiFrame) (first retry : Option TrySendError) : Enqueue :=
  match first with
  | none => ⟨.enqueued, some frame, 0⟩
  | some .full =>
    if isCriticalReleaseMessage frame.data then
      match retry with
      | none => ⟨.enqueued, some frame, 0⟩
      | some .full => ⟨.criticalReleaseDropped, some frame, 1⟩
      | some .disconnected => ⟨.disconnected, some frame, 1⟩
    else ⟨.droppedNonCritical, some frame, 0⟩
  | some .disconnected =>
    ⟨.disconnected, some frame, if isCriticalReleaseMessage frame.data then 1 else 0⟩

/-- mirrors src-tauri/src/bridge/pipeline.rs:619-633 -/
def tryEnqueueMidiFrame (published : Option Preparation) (frame : MidiFrame)
    (first retry : Option TrySendError) : Enqueue :=
  match normalizeMessage frame.data with
  | none => ⟨.invalidMessage, none, 0⟩
  | some data =>
    match prepare published { frame with data } with
    | none => ⟨.filtered, none, 0⟩
    | some frame => enqueuePreparedMidiFrame frame first retry

/-- The queue is offered the frame as one that releases something. -/
def Enqueue.critical (e : Enqueue) : Bool :=
  e.submitted.any fun frame => isCriticalReleaseMessage frame.data

/-! ## Mapped once -/

/-- What the mappings say about a number: the last one that names it. -/
def mapNumber (mappings : List RoutingMapping) (number : UInt8) : UInt8 :=
  ((mappings.reverse.find? fun p => p.source == number && p.target < 128).map (·.target)).getD number

/-- The profile as it is configured, with its number looked up once. -/
def renumber (profile : RoutingProfile) (data : List UInt8) : List UInt8 :=
  match data with
  | status :: number :: rest =>
    if status &&& 0xF0 = 0xB0 then status :: mapNumber profile.ccMap number :: rest
    else if status &&& 0xF0 = 0xC0 then status :: mapNumber profile.programMap number :: rest
    else data
  | _ => data

theorem mapNumber_concat (mappings : List RoutingMapping) (p : RoutingMapping) (number : UInt8) :
    mapNumber (mappings ++ [p]) number =
      if p.source = number ∧ p.target < 128 then p.target else mapNumber mappings number := by
  simp only [mapNumber, List.reverse_concat, List.find?_cons]
  by_cases h : p.source = number ∧ p.target < 128
  · simp [h.1, h.2]
  · have hfalse : (p.source == number && decide (p.target < 128)) = false := by
      simpa [Bool.and_eq_false_iff, imp_iff_not_or] using h
    rw [hfalse, if_neg h]

theorem mapNumber_lt (mappings : List RoutingMapping) {number : UInt8} (h : number < 128) :
    mapNumber mappings number < 128 := by
  induction mappings using List.reverseRecOn with
  | nil => exact h
  | append_singleton mappings p ih =>
    rw [mapNumber_concat]
    split
    · rename_i hp
      exact hp.2
    · exact ih

/-- The table holds what the mappings say, each number looked up on its own. -/
theorem getElem?_buildMap (mappings : List RoutingMapping) {number : UInt8} (h : number < 128) :
    (buildMap mappings)[number.toNat]? = some (mapNumber mappings number) := by
  have hlen : ∀ mappings, (buildMap mappings).length = 128 := by
    intro mappings
    induction mappings using List.reverseRecOn with
    | nil => simp [buildMap]
    | append_singleton mappings p ih =>
      rw [buildMap, List.foldl_concat, ← buildMap, setNumber]
      split
      · rw [List.length_set, ih]
      · exact ih
  have hnumber : number.toNat < 128 := h
  induction mappings using List.reverseRecOn with
  | nil =>
    show ((List.range 128).map UInt8.ofNat)[number.toNat]? = some number
    rw [List.getElem?_map, List.getElem?_range hnumber, Option.map_some, UInt8.ofNat_toNat]
  | append_singleton mappings p ih =>
    rw [buildMap, List.foldl_concat, ← buildMap, setNumber, mapNumber_concat]
    split
    · rename_i hp
      by_cases heq : p.source = number
      · rw [heq, if_pos ⟨rfl, hp.2⟩, List.getElem?_set_self (by rw [hlen]; exact hnumber)]
      · have hne : p.source.toNat ≠ number.toNat := fun he => heq (UInt8.toNat_inj.mp he)
        rw [List.getElem?_set_ne hne, if_neg fun hq => heq hq.1, ih]
    · rename_i hp
      have hother : ¬(p.source = number ∧ p.target < 128) := fun hq => hp ⟨hq.1 ▸ h, hq.2⟩
      rw [if_neg hother, ih]

/-! ## Normalizing and mapping -/

/-- A note-on as the note-off of its channel. -/
theorem noteOn_status : ∀ status : UInt8, status &&& 0xF0 = 0x90 →
    (0x80 ||| (status &&& 0x0F)) &&& 0x0F = status &&& 0x0F ∧
      (0x80 ||| (status &&& 0x0F)) &&& 0xF0 = 0x80 ∧ 0x80 ≤ status ∧ ¬0xF0 ≤ status ∧
      0x80 ≤ 0x80 ||| (status &&& 0x0F) ∧ ¬0xF0 ≤ 0x80 ||| (status &&& 0x0F) := by
  exact forall_byte (p := fun status => status &&& 0xF0 = 0x90 →
    (0x80 ||| (status &&& 0x0F)) &&& 0x0F = status &&& 0x0F ∧
      (0x80 ||| (status &&& 0x0F)) &&& 0xF0 = 0x80 ∧ 0x80 ≤ status ∧ ¬0xF0 ≤ status ∧
      0x80 ≤ 0x80 ||| (status &&& 0x0F) ∧ ¬0xF0 ≤ 0x80 ||| (status &&& 0x0F)) (by decide +kernel)

theorem system_status : ∀ status : UInt8, 0xF0 ≤ status → status &&& 0xF0 = 0xF0 :=
  forall_byte (p := fun status => 0xF0 ≤ status → status &&& 0xF0 = 0xF0) (by decide +kernel)

/-- `silence` changes a note-on of velocity 0 and nothing else. -/
theorem silence_cases (data : List UInt8) :
    silence data = data ∨ ∃ status note, data = [status, note, 0] ∧ status &&& 0xF0 = 0x90 ∧
      silence data = [0x80 ||| (status &&& 0x0F), note, 0] := by
  unfold silence
  split
  · rename_i status note velocity
    split
    · rename_i hon
      obtain ⟨hstatus, rfl⟩ := hon
      exact .inr ⟨status, note, rfl, hstatus, rfl⟩
    · exact .inl rfl
  · exact .inl rfl

theorem acceptsChannel_silence (filter : Option UInt8) (data : List UInt8) :
    acceptsChannel filter (silence data) = acceptsChannel filter data := by
  obtain heq | ⟨status, note, rfl, hon, heq⟩ := silence_cases data
  · rw [heq]
  · obtain ⟨hchannel, -, hlow, hhigh, hlow', hhigh'⟩ := noteOn_status status hon
    rw [heq]
    simp only [acceptsChannel, hlow, hlow', UInt8.not_le.mp hhigh, UInt8.not_le.mp hhigh']
    rw [show (15 : UInt8) = 0x0F from rfl, hchannel]

theorem isCritical_silence (data : List UInt8) :
    isCriticalReleaseMessage (silence data) = isCriticalReleaseMessage data := by
  obtain heq | ⟨status, note, rfl, hon, heq⟩ := silence_cases data
  · rw [heq]
  · obtain ⟨-, hoff, -⟩ := noteOn_status status hon
    rw [heq]
    simp [isCriticalReleaseMessage, hon, hoff]

theorem silence_of_status {status : UInt8} (h : status &&& 0xF0 ≠ 0x90) (rest : List UInt8) :
    silence (status :: rest) = status :: rest := by
  unfold silence
  split
  · rename_i heq
    cases heq
    exact if_neg fun hon => h hon.1
  · rfl

/-- A profile rejects, keeps the message, or looks its number up. -/
theorem applyRoutingProfile_cases {profile : RoutingProfileRuntime} {data out : List UInt8}
    (h : applyRoutingProfile profile data = some out) :
    out = data ∨ ∃ status number rest mapped, data = status :: number :: rest ∧
      out = status :: mapped :: rest ∧
      (status &&& 0xF0 = 0xB0 ∧ profile.ccMap[number.toNat]? = some mapped ∨
        status &&& 0xF0 = 0xC0 ∧ profile.programMap[number.toNat]? = some mapped) := by
  have hmap : ∀ {map : List UInt8} {status rest}, mapByte map status rest = some out →
      out = status :: rest ∨ ∃ number tail mapped, rest = number :: tail ∧
        out = status :: mapped :: tail ∧ map[number.toNat]? = some mapped := by
    intro map status rest hmap
    cases rest with
    | nil =>
      cases hmap
      exact .inl rfl
    | cons number tail =>
      obtain ⟨mapped, hget, heq⟩ := Option.map_eq_some_iff.mp hmap
      exact .inr ⟨number, tail, mapped, rfl, heq.symm, hget⟩
  cases data with
  | nil =>
    cases h
    exact .inl rfl
  | cons status rest =>
    simp only [applyRoutingProfile] at h
    split at h
    · cases h
      exact .inl rfl
    · split at h
      · cases h
      · split at h
        · split at h
          · cases h
          · cases h
            exact .inl rfl
        · split at h
          · rename_i hcc
            obtain heq | ⟨number, tail, mapped, rfl, heq, hget⟩ := hmap h
            · exact .inl heq
            · exact .inr ⟨status, number, tail, mapped, rfl, heq, .inl ⟨hcc, hget⟩⟩
          · split at h
            · rename_i hprogram
              obtain heq | ⟨number, tail, mapped, rfl, heq, hget⟩ := hmap h
              · exact .inl heq
              · exact .inr ⟨status, number, tail, mapped, rfl, heq, .inr ⟨hprogram, hget⟩⟩
            · cases h
              exact .inl rfl

/-- The profile treats a note-on of velocity 0 as the note-off. -/
theorem applyRoutingProfile_silence (profile : RoutingProfileRuntime) (data : List UInt8) :
    applyRoutingProfile profile (silence data) = (applyRoutingProfile profile data).map silence := by
  obtain heq | ⟨status, note, rfl, hon, heq⟩ := silence_cases data
  · rw [heq]
    cases h : applyRoutingProfile profile data with
    | none => rfl
    | some out =>
      rw [Option.map_some]
      obtain rfl | ⟨status, number, rest, mapped, rfl, rfl, hkind⟩ := applyRoutingProfile_cases h
      · rw [heq]
      · have hne : status &&& 0xF0 ≠ 0x90 := by
          obtain ⟨hcc, -⟩ | ⟨hprogram, -⟩ := hkind
          · rw [hcc]
            decide
          · rw [hprogram]
            decide
        rw [silence_of_status hne]
  · obtain ⟨hchannel, hoff, -, hhigh, -, hhigh'⟩ := noteOn_status status hon
    rw [heq]
    simp only [applyRoutingProfile, if_neg hhigh, if_neg hhigh', hchannel, hoff, hon, true_or,
      or_true, if_true]
    split
    · rfl
    · split
      · rfl
      · rw [Option.map_some, heq]

theorem prepareInputRouting_silence (snapshot : ConfigSnapshot) (frame : MidiFrame) :
    prepareInputRouting snapshot { frame with data := silence frame.data } =
      (prepareInputRouting snapshot frame).map fun f => { f with data := silence f.data } := by
  simp only [prepareInputRouting, acceptsChannel_silence]
  split
  · cases (profileForSource snapshot frame.source).filter (·.enabled) with
    | none => rfl
    | some profile =>
      simp only [applyRoutingProfile_silence, Option.map_map]
      rfl
  · rfl

theorem prepare_silence (published : Option Preparation) (frame : MidiFrame) :
    prepare published { frame with data := silence frame.data } =
      (prepare published frame).map fun f => { f with data := silence f.data } := by
  cases published with
  | none => rfl
  | some p =>
    simp only [prepare]
    split
    · exact prepareInputRouting_silence p.snapshot frame
    · rfl

/-! ## Valid messages -/

/-- A message that is accepted: SysEx as it is, or a complete one. -/
theorem normalizeMessage_cases {data out : List UInt8} (h : normalizeMessage data = some out) :
    data.head? = some 0xF0 ∧ out = data ∨ Complete data ∧ out = silence data := by
  by_cases hsys : data.head? = some 0xF0
  · refine .inl ⟨hsys, ?_⟩
    cases data with
    | nil => cases h
    | cons status rest =>
      cases hsys
      simp only [normalizeMessage, if_true] at h
      split at h
      · cases h
        rfl
      · cases h
  · exact .inr ((normalizeMessage_eq_some hsys).mp h)

theorem renumber_of_status {status : UInt8} (hcc : status &&& 0xF0 ≠ 0xB0)
    (hprogram : status &&& 0xF0 ≠ 0xC0) (profile : RoutingProfile) (rest : List UInt8) :
    renumber profile (status :: rest) = status :: rest := by
  cases rest with
  | nil => rfl
  | cons number rest =>
    simp only [renumber, if_neg hcc, if_neg hprogram]

/-- With a configured profile the number is looked up once. -/
theorem applyRoutingProfile_fromProfile {profile : RoutingProfile} {status : UInt8}
    {rest out : List UInt8} (hbytes : status < 0xF0 → ∀ b ∈ rest, b < 128)
    (h : applyRoutingProfile (.fromProfile profile) (status :: rest) = some out) :
    out = renumber profile (status :: rest) := by
  simp only [applyRoutingProfile] at h
  split at h
  · rename_i hhigh
    have hstatus := system_status status hhigh
    cases h
    rw [renumber_of_status (by rw [hstatus]; decide) (by rw [hstatus]; decide)]
  · rename_i hhigh
    have hbyte := hbytes (UInt8.not_le.mp hhigh)
    split at h
    · cases h
    · split at h
      · rename_i hnote
        have hother : status &&& 0xF0 ≠ 0xB0 ∧ status &&& 0xF0 ≠ 0xC0 := by
          obtain hoff | hon := hnote
          · rw [hoff]
            decide
          · rw [hon]
            decide
        split at h
        · cases h
        · cases h
          rw [renumber_of_status hother.1 hother.2]
      · split at h
        · rename_i hcc
          cases rest with
          | nil =>
            cases h
            rfl
          | cons number tail =>
            have hget := getElem?_buildMap profile.ccMap (hbyte number List.mem_cons_self)
            simp only [mapByte, RoutingProfileRuntime.fromProfile, hget, Option.map_some,
              Option.some.injEq] at h
            rw [← h, renumber, if_pos hcc]
        · rename_i hcc
          split at h
          · rename_i hprogram
            cases rest with
            | nil =>
              cases h
              rfl
            | cons number tail =>
              have hget := getElem?_buildMap profile.programMap (hbyte number List.mem_cons_self)
              simp only [mapByte, RoutingProfileRuntime.fromProfile, hget, Option.map_some,
                Option.some.injEq] at h
              rw [← h, renumber, if_neg hcc, if_pos hprogram]
          · rename_i hprogram
            cases h
            rw [renumber_of_status hcc hprogram]

/-- The message keeps its status, its length and its validity. -/
theorem renumber_complete {data : List UInt8} (h : Complete data) (profile : RoutingProfile) :
    Complete (renumber profile data) ∧ (renumber profile data).length = data.length ∧
      (renumber profile data).head? = data.head? ∧
      silence (renumber profile data) = renumber profile (silence data) := by
  obtain ⟨status, rest, rfl, hlen, hbytes⟩ := h
  by_cases hstatus : status &&& 0xF0 = 0xB0 ∨ status &&& 0xF0 = 0xC0
  · have hne : status &&& 0xF0 ≠ 0x90 := by
      obtain hcc | hprogram := hstatus
      · rw [hcc]
        decide
      · rw [hprogram]
        decide
    cases rest with
    | nil => exact ⟨⟨status, [], rfl, hlen, hbytes⟩, rfl, rfl, rfl⟩
    | cons number rest =>
      have hnumber : ∀ mappings, mapNumber mappings number < 0x80 :=
        fun mappings => mapNumber_lt mappings (hbytes number List.mem_cons_self)
      obtain ⟨mapped, hmapped, heq⟩ : ∃ mapped, mapped < 0x80 ∧
          renumber profile (status :: number :: rest) = status :: mapped :: rest := by
        simp only [renumber]
        split
        · exact ⟨_, hnumber _, rfl⟩
        · rename_i hcc
          rw [if_pos (hstatus.resolve_left hcc)]
          exact ⟨_, hnumber _, rfl⟩
      rw [silence_of_status hne, heq, silence_of_status hne]
      refine ⟨⟨status, mapped :: rest, rfl, hlen, fun b hb => ?_⟩, rfl, rfl, rfl⟩
      obtain rfl | hb := List.mem_cons.mp hb
      · exact hmapped
      · exact hbytes b (List.mem_cons_of_mem _ hb)
  · simp only [not_or] at hstatus
    rw [renumber_of_status hstatus.1 hstatus.2]
    refine ⟨⟨status, rest, rfl, hlen, hbytes⟩, rfl, rfl, ?_⟩
    obtain heq | ⟨status', note, heq, hon, hsilent⟩ := silence_cases (status :: rest)
    · rw [heq, renumber_of_status hstatus.1 hstatus.2]
    · obtain ⟨-, hoff, -⟩ := noteOn_status status' hon
      rw [hsilent, renumber_of_status (by rw [hoff]; decide) (by rw [hoff]; decide)]

/-! ## Admission -/

/-- The enabled profile that is configured for a source. -/
def assignedProfile (cfg : MidiConfig) (source : String) : Option RoutingProfile :=
  (((ConfigSnapshot.ofConfig cfg).profileIndex source).bind fun index =>
    cfg.routingProfiles[index]?).filter (·.enabled)

/-- A message of a source, its number looked up once in the profile. -/
def routed (cfg : Option MidiConfig) (source : String) (data : List UInt8) : List UInt8 :=
  match cfg.bind fun cfg => assignedProfile cfg source with
  | none => data
  | some profile => renumber profile data

theorem profileForSource_ofConfig (cfg : MidiConfig) (source : String) :
    (profileForSource (.ofConfig cfg) source).filter (·.enabled) =
      (assignedProfile cfg source).map RoutingProfileRuntime.fromProfile := by
  have hprofiles : (ConfigSnapshot.ofConfig cfg).routingProfiles =
      cfg.routingProfiles.map RoutingProfileRuntime.fromProfile := rfl
  unfold profileForSource assignedProfile
  cases (ConfigSnapshot.ofConfig cfg).profileIndex source with
  | none => rfl
  | some index =>
    simp only [Option.bind_some, hprofiles, List.getElem?_map]
    cases cfg.routingProfiles[index]? with
    | none => rfl
    | some profile =>
      have henabled : (RoutingProfileRuntime.fromProfile profile).enabled = profile.enabled := rfl
      simp only [Option.map_some, Option.filter_some, henabled]
      split <;> rfl

/-- The preparation that is published for a configuration, if there is one. -/
def publish (cfg : Option MidiConfig) (valid : Bool) : Option Preparation :=
  cfg.map fun cfg => ⟨.ofConfig cfg, valid⟩

theorem prepare_publish {cfg : Option MidiConfig} {valid : Bool} {frame f : MidiFrame}
    {status : UInt8} {rest : List UInt8} (hdata : frame.data = status :: rest)
    (hbytes : status < 0xF0 → ∀ b ∈ rest, b < 128) (h : prepare (publish cfg valid) frame = some f) :
    f = { frame with data := routed cfg frame.source frame.data } := by
  cases cfg with
  | none =>
    cases h
    rfl
  | some cfg =>
    simp only [publish, Option.map_some, prepare] at h
    split at h
    · simp only [prepareInputRouting, profileForSource_ofConfig] at h
      split at h
      · cases hprofile : assignedProfile cfg frame.source with
        | none =>
          rw [hprofile] at h
          cases h
          simp only [routed, Option.bind_some, hprofile]
        | some profile =>
          rw [hprofile] at h
          obtain ⟨data, hout, rfl⟩ := Option.map_eq_some_iff.mp h
          rw [hdata] at hout
          simp only [routed, Option.bind_some, hprofile, hdata]
          rw [applyRoutingProfile_fromProfile hbytes hout]
      · cases h
    · cases h

theorem isCritical_sysex (rest : List UInt8) : isCriticalReleaseMessage (0xF0 :: rest) = false := by
  unfold isCriticalReleaseMessage
  rw [if_neg (by simp)]
  split
  · rename_i heq
    cases heq
    simp
  · rfl

/-- What a call does, by the frame that its profile leaves. -/
theorem enqueuePreparedMidiFrame_eq (frame : MidiFrame) (first retry : Option TrySendError) :
    (enqueuePreparedMidiFrame frame first retry).submitted = some frame ∧
      (enqueuePreparedMidiFrame frame first retry).resets =
        if isCriticalReleaseMessage frame.data = true ∧
          (enqueuePreparedMidiFrame frame first retry).result ≠ .enqueued then 1 else 0 := by
  cases hcritical : isCriticalReleaseMessage frame.data with
  | true =>
    cases first with
    | none => simp [enqueuePreparedMidiFrame]
    | some e =>
      cases e with
      | disconnected => simp [enqueuePreparedMidiFrame, hcritical]
      | full =>
        cases retry with
        | none => simp [enqueuePreparedMidiFrame, hcritical]
        | some e => cases e <;> simp [enqueuePreparedMidiFrame, hcritical]
  | false =>
    cases first with
    | none => simp [enqueuePreparedMidiFrame]
    | some e => cases e <;> simp [enqueuePreparedMidiFrame, hcritical]

theorem tryEnqueueMidiFrame_some {published : Option Preparation} {frame : MidiFrame}
    {out : List UInt8} (h : normalizeMessage frame.data = some out)
    (first retry : Option TrySendError) :
    tryEnqueueMidiFrame published frame first retry =
      match prepare published { frame with data := out } with
      | none => ⟨.filtered, none, 0⟩
      | some frame => enqueuePreparedMidiFrame frame first retry := by
  simp only [tryEnqueueMidiFrame, h]

theorem tryEnqueueMidiFrame_critical {published : Option Preparation} {frame : MidiFrame}
    {out : List UInt8} (h : normalizeMessage frame.data = some out)
    (first retry : Option TrySendError) :
    (tryEnqueueMidiFrame published frame first retry).critical =
      (prepare published { frame with data := out }).any fun f => isCriticalReleaseMessage f.data := by
  rw [tryEnqueueMidiFrame_some h]
  cases prepare published { frame with data := out } with
  | none => rfl
  | some f =>
    simp only [Enqueue.critical, (enqueuePreparedMidiFrame_eq f first retry).1, Option.any_some]

/-- A valid message as it is prepared: mapped once, and valid. -/
theorem prepare_valid {cfg : Option MidiConfig} {valid : Bool} {frame f : MidiFrame}
    {out : List UInt8} (hvalid : normalizeMessage frame.data = some out)
    (h : prepare (publish cfg valid) { frame with data := out } = some f) :
    f = { frame with data := routed cfg frame.source out } ∧ normalizeMessage f.data = some f.data ∧
      f.data.length = out.length ∧ f.data.head? = out.head? := by
  obtain ⟨hsys, rfl⟩ | ⟨hcomplete, rfl⟩ := normalizeMessage_cases hvalid
  · obtain ⟨rest, hdata⟩ : ∃ rest, frame.data = 0xF0 :: rest := by
      cases hdata : frame.data with
      | nil =>
        rw [hdata] at hsys
        cases hsys
      | cons status rest =>
        rw [hdata] at hsys
        cases hsys
        exact ⟨rest, rfl⟩
    have hsame : routed cfg frame.source frame.data = frame.data := by
      rw [hdata, routed]
      split
      · rfl
      · exact renumber_of_status (by decide) (by decide) _ _
    have hf := prepare_publish hdata (fun hlow => absurd hlow (by decide)) h
    rw [hsame] at hf
    rw [hf, hsame]
    exact ⟨rfl, hvalid, rfl, rfl⟩
  · have hout := hcomplete.silence
    obtain ⟨status, rest, hdata, -, hbytes⟩ := hout.1
    have hf := @prepare_publish cfg valid { frame with data := silence frame.data } f status rest
      hdata (fun _ => hbytes) h
    refine ⟨hf, ?_⟩
    rw [hf]
    simp only [routed]
    split
    · exact ⟨normalizeMessage_idempotent hvalid, rfl, rfl⟩
    · rename_i profile _
      obtain ⟨hagain, hlen, hhead, hsilent⟩ := renumber_complete hout.1 profile
      refine ⟨(normalizeMessage_eq_some hagain.head).mpr ⟨hagain, ?_⟩, hlen, hhead⟩
      rw [hsilent, hout.2]

/-- What is offered to the queue is the frame as it is prepared. -/
theorem submitted_prepared {published : Option Preparation} {frame f : MidiFrame}
    {out : List UInt8} {first retry : Option TrySendError}
    (hvalid : normalizeMessage frame.data = some out)
    (h : (tryEnqueueMidiFrame published frame first retry).submitted = some f) :
    prepare published { frame with data := out } = some f := by
  rw [tryEnqueueMidiFrame_some hvalid] at h
  cases hprepared : prepare published { frame with data := out } with
  | none =>
    rw [hprepared] at h
    cases h
  | some f' =>
    rw [hprepared] at h
    rw [Option.some.inj ((enqueuePreparedMidiFrame_eq f' first retry).1.symm.trans h)]

/-- Only valid messages get to the queue. -/
theorem submitted_valid {cfg : Option MidiConfig} {valid : Bool} {frame f : MidiFrame}
    {first retry : Option TrySendError}
    (h : (tryEnqueueMidiFrame (publish cfg valid) frame first retry).submitted = some f) :
    normalizeMessage f.data = some f.data := by
  cases hvalid : normalizeMessage frame.data with
  | none => simp [tryEnqueueMidiFrame, hvalid] at h
  | some out => exact (prepare_valid hvalid (submitted_prepared hvalid h)).2.1

/-- The copy is classified as the message itself. -/
theorem classifyInputFrame_eq {cfg : Option MidiConfig} {valid : Bool} {frame : MidiFrame}
    {out : List UInt8} (hvalid : normalizeMessage frame.data = some out) :
    classifyInputFrame (publish cfg valid) frame =
      (prepare (publish cfg valid) { frame with data := out }).any fun f =>
        isCriticalReleaseMessage f.data := by
  obtain ⟨hsys, hout⟩ | ⟨hcomplete, hout⟩ := normalizeMessage_cases hvalid
  · have hquiet : ∀ f, prepare (publish cfg valid) frame = some f →
        isCriticalReleaseMessage f.data = false := by
      intro f hf
      have hhead := (prepare_valid hvalid (by rw [hout]; exact hf)).2.2.2
      rw [hout, hsys] at hhead
      cases hdata : f.data with
      | nil => rfl
      | cons status rest =>
        rw [hdata] at hhead
        cases hhead
        exact isCritical_sysex rest
    rw [hout]
    unfold classifyInputFrame
    cases hf : prepare (publish cfg valid) frame with
    | none => simp
    | some f => simp [hquiet f hf]
  · have hlen := hcomplete.length_le
    rw [hout, prepare_silence, classifyInputFrame, if_neg (by omega)]
    cases prepare (publish cfg valid) frame with
    | none => rfl
    | some f => exact (isCritical_silence f.data).symm

/-- For a message that is valid the classification is right, what is offered to
the queue is the message with its number looked up once, and a reset is asked
for exactly when a release finds no place. Nothing is done with a message that
is not valid. -/
theorem input_classification (cfg : Option MidiConfig) (valid : Bool) (frame : MidiFrame)
    (first retry : Option TrySendError) :
    let e := tryEnqueueMidiFrame (publish cfg valid) frame first retry
    (∀ out, normalizeMessage frame.data = some out →
      (classifyInputFrame (publish cfg valid) frame = true ↔ e.critical = true) ∧
      (∀ f, e.submitted = some f → normalizeMessage f.data = some f.data ∧
        f.data.length = out.length ∧ f.data.head? = out.head? ∧
        f = { frame with data := routed cfg frame.source out }) ∧
      e.resets = if e.critical = true ∧ e.result ≠ .enqueued then 1 else 0) ∧
    (normalizeMessage frame.data = none → e = ⟨.invalidMessage, none, 0⟩) := by
  refine ⟨fun out hvalid => ⟨?_, fun f hf => ?_, ?_⟩, fun hinvalid => ?_⟩
  · rw [classifyInputFrame_eq hvalid, tryEnqueueMidiFrame_critical hvalid]
  · obtain ⟨heq, hnormal, hlen, hhead⟩ := prepare_valid hvalid (submitted_prepared hvalid hf)
    exact ⟨hnormal, hlen, hhead, heq⟩
  · rw [tryEnqueueMidiFrame_critical hvalid, tryEnqueueMidiFrame_some hvalid]
    cases hprepared : prepare (publish cfg valid) { frame with data := out } with
    | none => rfl
    | some f => exact (enqueuePreparedMidiFrame_eq f first retry).2
  · simp only [tryEnqueueMidiFrame, hinvalid]

/-- Modulation and sustain pedal changed round for one piano. -/
def swapped : MidiConfig where
  channelFilter := none
  routingProfiles := [⟨"swap", true, none, none, none, [⟨1, 64⟩, ⟨64, 1⟩], []⟩]
  routingAssignments := [⟨"RTP:Piano", "swap"⟩]

/-- The wheel of a session of the piano at rest: mapped once it lets the pedal
go, and where the queue has no place for it the receivers are reset. -/
theorem swapped_pedal_released :
    let e := tryEnqueueMidiFrame (publish swapped true) ⟨0, "RTP:Piano#ssrc_7", [0xB0, 1, 0]⟩
      (some .full) (some .full)
    classifyInputFrame (publish swapped true) ⟨0, "RTP:Piano#ssrc_7", [0xB0, 1, 0]⟩ = true ∧
      e.submitted = some ⟨0, "RTP:Piano#ssrc_7", [0xB0, 64, 0]⟩ ∧
      routed swapped "RTP:Piano#ssrc_7" [0xB0, 1, 0] = [0xB0, 64, 0] ∧ e.resets = 1 := by
  obtain ⟨hclass, hmapped, hresets⟩ := (input_classification swapped true
    ⟨0, "RTP:Piano#ssrc_7", [0xB0, 1, 0]⟩ (some .full) (some .full)).1 [0xB0, 1, 0] (by decide)
  have hsubmitted : (tryEnqueueMidiFrame (publish swapped true)
      ⟨0, "RTP:Piano#ssrc_7", [0xB0, 1, 0]⟩ (some .full) (some .full)).submitted =
        some ⟨0, "RTP:Piano#ssrc_7", [0xB0, 64, 0]⟩ := by decide
  refine ⟨hclass.mpr (by decide), hsubmitted, ?_, hresets.trans (by decide)⟩
  exact (congrArg MidiFrame.data (hmapped _ hsubmitted).2.2.2).symm

/-- A note-off with a status byte in the place of its note is not a valid
message: it is refused, and was classified as a release. -/
theorem invalid_release_classified :
    classifyInputFrame (publish none true) ⟨0, "RTP:Piano", [0x80, 0x90, 0]⟩ = true ∧
      (tryEnqueueMidiFrame (publish none true) ⟨0, "RTP:Piano", [0x80, 0x90, 0]⟩ none none).critical =
        false := by
  decide

end RtpOscMidi.L2.InputRouting
