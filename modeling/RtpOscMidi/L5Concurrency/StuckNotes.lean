import RtpOscMidi.L5Concurrency.ProcessingLoop

/-!
# No stuck note across sources

What the audio engine sounds and holds, compared with what the processing
loop knows the sources hold. The releases of a peer reset count as played
while they wait in the loop.

Between a new generation and the audio reset the loop makes for it, a
release may already have been discarded; then the reset is what silences
the note.
-/
namespace RtpOscMidi.L5.StuckNotes

open Core L1.MidiMessage L2.MidiQueue L2.SourceState L5.ProcessingLoop

/-- The releases that have not reached the engine. -/
def waiting (s : St) : List MidiFrame := s.loop.frames true ++ s.scopedReleases

/-- What sounds and is held once the waiting releases are played. -/
def released (s : St) : Held → Bool :=
  (waiting s).foldl (fun held f => hear held f.data) s.destination

def Asserts (source : String) (h : Held) (e : Event) : Prop :=
  ∃ f r, e = .handled f r ∧ f.source = source ∧ effect f.data h = some true

/-- The reset of a source, or of all. -/
def Resets (source : String) : Event → Prop
  | .handled f _ => f.data = [0xFF] ∧ (isPeerReset f = true → f.source = source)
  | .changed _ => True
  | _ => False

structure NotesOk (filter : Option UInt8) (s : St) : Prop where
  held : s.generation = s.midiGeneration → s.loop ≠ .resetAudio → ∀ h, s.destination h = true →
    (∀ f ∈ waiting s, f.data ≠ releaseMessage h) → ∃ source, claims s.sources source h = true
  accepted : ∀ h, s.destination h = true → acceptsChannel filter (releaseMessage h) = true
  since : ∀ source h, claims s.sources source h = true →
    Since (Asserts source h) (Resets source) s.log

/-! ## The releases and the engine -/

theorem foldl_hear {fs : List MidiFrame} (hfs : ∀ f ∈ fs, ∃ h, f.data = releaseMessage h)
    (h : Held) : ∀ held : Held → Bool,
      fs.foldl (fun held f => hear held f.data) held h = true ↔
        held h = true ∧ ∀ f ∈ fs, f.data ≠ releaseMessage h := by
  induction fs with
  | nil => simp
  | cons f fs ih =>
    intro held
    obtain ⟨h', hf⟩ := hfs f List.mem_cons_self
    rw [List.foldl_cons, ih fun f hf => hfs f (List.mem_cons_of_mem _ hf)]
    simp only [hf, hear_releaseMessage, List.forall_mem_cons]
    by_cases hh : h' = h
    · subst hh
      simp
    · have hne : releaseMessage h' ≠ releaseMessage h := fun he => hh (releaseMessage_injective he)
      simp [hh, hne]

theorem released_iff {s : St} (S : Slots s) (h : Held) :
    released s h = true ↔
      s.destination h = true ∧ ∀ f ∈ waiting s, f.data ≠ releaseMessage h :=
  foldl_hear (fun f hf => (S.releases f hf).2) h _

theorem sendMidi_critical {room : List UInt8 → Bool} {held : Held → Bool} {m : List UInt8} {h : Held}
    (hc : isCriticalReleaseMessage m = true) (hh : held h = false ∨ effect m h = some false) :
    sendMidi room held m h = false := by
  unfold sendMidi
  by_cases hroom : room m = true
  · rw [if_pos hroom, hear]
    have he := effect_of_isCritical hc h
    rcases hh with hh | hh
    · cases hm : effect m h with
      | none => simpa using hh
      | some b =>
        cases b with
        | true => exact absurd hm he
        | false => rfl
    · rw [hh]
      rfl
  · rw [if_neg hroom, if_pos hc]

/-- Critical messages one of which releases `h` leave it released. -/
theorem foldl_sendMidi {room : List UInt8 → Bool} {h : Held} {ms : List (List UInt8)}
    (hc : ∀ m ∈ ms, isCriticalReleaseMessage m = true) : ∀ held : Held → Bool,
      (held h = false ∨ ∃ m ∈ ms, effect m h = some false) →
        ms.foldl (sendMidi room) held h = false := by
  induction ms with
  | nil => simp
  | cons m ms ih =>
    intro held hh
    rw [List.foldl_cons]
    refine ih (fun m hm => hc m (List.mem_cons_of_mem _ hm)) _ ?_
    rcases hh with hh | ⟨m', hm', he⟩
    · exact .inl (sendMidi_critical (hc m List.mem_cons_self) (.inl hh))
    · rcases List.mem_cons.mp hm' with rfl | hm'
      · exact .inl (sendMidi_critical (hc m' List.mem_cons_self) (.inr he))
      · exact .inr ⟨m', hm', he⟩

theorem exitMessages_critical : ∀ m ∈ exitMessages, isCriticalReleaseMessage m = true := by decide

/-- Every note and pedal is released on the way out. -/
theorem leave_silent (room : List UInt8 → Bool) (s : St) (h : Held) :
    (leave room s).destination h = false := by
  refine foldl_sendMidi exitMessages_critical _ (.inr ?_)
  obtain ⟨-, -, hs, hc⟩ := release_status h.channel
  cases h with
  | note c n =>
    refine ⟨[0xB0 ||| UInt8.ofNat c, 120, 0], ?_, ?_⟩
    · exact List.mem_flatMap.mpr ⟨c, List.mem_finRange c, by simp⟩
    · simp only [Held.channel] at hs hc
      simp [effect, Held.channel, hs, hc]
  | pedal c p =>
    obtain ⟨-, -, h121, -⟩ := release_pedal p
    refine ⟨[0xB0 ||| UInt8.ofNat c, 121, 0], ?_, ?_⟩
    · exact List.mem_flatMap.mpr ⟨c, List.mem_finRange c, by simp⟩
    · simp only [Held.channel] at hs hc
      simp [effect, Held.channel, hs, hc, Ne.symm h121]

/-! ## One step of the loop -/

/-- Neither the engine nor the claims change, and no release is lost. -/
theorem NotesOk.moves {filter : Option UInt8} {s s' : St} (N : NotesOk filter s) (new : List Event)
    (hu : s.loop ≠ .resetAudio) (hg : s'.generation = s.generation)
    (hm : s'.midiGeneration = s.midiGeneration) (hd : s'.destination = s.destination)
    (hsrc : s'.sources = s.sources) (hl : s'.log = s.log ++ new)
    (hw : s.generation = s.midiGeneration → waiting s' = waiting s)
    (hn : ∀ source, ∀ e ∈ new, ¬Resets source e) : NotesOk filter s' := by
  refine ⟨fun hgm _ h hh hfs => ?_, ?_, fun source h hc => ?_⟩
  · rw [hg, hm] at hgm
    rw [hd] at hh
    rw [hw hgm] at hfs
    rw [hsrc]
    exact N.held hgm hu h hh hfs
  · rw [hd]
    exact N.accepted
  · rw [hsrc] at hc
    rw [hl]
    exact (N.since source h hc).append (hn source)

/-- The engine is silent. -/
theorem NotesOk.silent {filter : Option UInt8} {s s' : St} (N : NotesOk filter s) (new : List Event)
    (hd : ∀ h, s'.destination h = false) (hsrc : s'.sources = s.sources)
    (hl : s'.log = s.log ++ new) (hn : ∀ source, ∀ e ∈ new, ¬Resets source e) :
    NotesOk filter s' := by
  refine ⟨fun _ _ h hh _ => ?_, fun h hh => ?_, fun source h hc => ?_⟩
  · rw [hd h] at hh
    cases hh
  · rw [hd h] at hh
    cases hh
  · rw [hsrc] at hc
    rw [hl]
    exact (N.since source h hc).append (hn source)

/-- What sounds after a frame sounded before it or is asserted by it. -/
theorem sendMidi_true {room : List UInt8 → Bool} {held : Held → Bool} {m : List UInt8} {h : Held}
    (hh : sendMidi room held m h = true) :
    effect m h = some true ∨ effect m h = none ∧ held h = true := by
  unfold sendMidi at hh
  by_cases hroom : room m = true
  · rw [if_pos hroom, hear] at hh
    cases he : effect m h with
    | none =>
      rw [he] at hh
      exact .inr ⟨rfl, hh⟩
    | some b =>
      rw [he] at hh
      exact .inl (congrArg some hh)
  · rw [if_neg hroom] at hh
    by_cases hc : isCriticalReleaseMessage m = true
    · rw [if_pos hc] at hh
      cases hh
    · rw [if_neg hc] at hh
      cases he : effect m h with
      | none => exact .inr ⟨rfl, hh⟩
      | some b =>
        cases b with
        | true => exact .inl rfl
        | false => exact absurd (isCritical_of_effect he) hc

theorem effect_none_of_status {status : UInt8} {rest : List UInt8}
    (hs : ¬(0x80 ≤ status ∧ status < 0xF0)) (h : Held) : effect (status :: rest) h = none := by
  match rest with
  | [] | [_] | _ :: _ :: _ :: _ => rfl
  | [d1, d2] =>
    by_contra he
    exact hs (voice_status status (status_of_effect he).2).1

/-- A frame that keeps the generation: what sounds after it passes the
filter, and the frame asserts it or leaves it alone. -/
theorem handleMidiFrame_true {filter : Option UInt8} {room : List UInt8 → Bool} {s : St}
    {f : MidiFrame} {h : Held}
    (hacc : ∀ h, s.destination h = true → acceptsChannel filter (releaseMessage h) = true)
    (hh : (handleMidiFrame filter room s f).destination h = true) (hd : f.data ≠ [0xFF]) :
    acceptsChannel filter (releaseMessage h) = true ∧
      (effect f.data h = some true ∨ effect f.data h = none ∧ s.destination h = true) := by
  unfold handleMidiFrame at hh
  by_cases ha : acceptsChannel filter f.data = true
  · simp only [ha, Bool.not_true, Bool.false_eq_true, if_false, hd] at hh
    have hcases : effect f.data h = some true ∨ effect f.data h = none ∧ s.destination h = true := by
      split at hh
      · rename_i hdata
        exact .inr ⟨by rw [hdata]; rfl, hh⟩
      · rename_i status rest hdata
        split at hh
        · exact sendMidi_true hh
        · rename_i hs
          exact .inr ⟨by rw [hdata]; exact effect_none_of_status hs h, hh⟩
    refine ⟨?_, hcases⟩
    rcases hcases with he | ⟨-, hh⟩
    · rw [← acceptsChannel_of_effect (by rw [he]; nofun : effect f.data h ≠ none)]
      exact ha
    · exact hacc h hh
  · have ha : acceptsChannel filter f.data = false := by simpa using ha
    simp only [ha, Bool.not_false, if_true] at hh
    have hah := hacc h hh
    refine ⟨hah, .inr ⟨?_, hh⟩⟩
    by_contra he
    rw [← acceptsChannel_of_effect he, ha] at hah
    cases hah

theorem releaseMessage_ne_reset (h : Held) : releaseMessage h ≠ [0xFF] := by
  cases h <;> simp [releaseMessage]

theorem reset_of_isPeerReset {f : MidiFrame} (hp : isPeerReset f = true) : f.data = [0xFF] := by
  rw [isPeerReset, Bool.and_eq_true, beq_iff_eq] at hp
  exact hp.2

theorem handleMidiFrame_reset {filter : Option UInt8} {room : List UInt8 → Bool} {s : St}
    {f : MidiFrame} (hd : f.data = [0xFF]) :
    handleMidiFrame filter room s f = { s with midiGeneration := s.midiGeneration + 1 } := by
  have ha : acceptsChannel filter [0xFF] = true := by simp [acceptsChannel]
  simp [handleMidiFrame, hd, ha]

/-- A peer reset: what only its source held has a release waiting. -/
theorem notes_peerReset {filter : Option UInt8} {s : St} {f : MidiFrame} {r : Bool} {pos : Position}
    (N : NotesOk filter s) (hu : s.loop = .handle f r pos) (hp : isPeerReset f = true) (room cloned) :
    NotesOk filter (handle filter room cloned s f r pos) := by
  have hdata := reset_of_isPeerReset hp
  have hw : waiting (handle filter room cloned s f r pos) =
      s.scopedReleases ++ releaseFrames s.sources f := by
    simp only [waiting, handle, hp, if_true, frames_continued, List.nil_append]
  have hbase : NotesOk filter s := N
  unfold handle at hw ⊢
  rw [if_pos hp] at hw ⊢
  refine ⟨fun hg _ h hh hfs => ?_, N.accepted, fun source h hc => ?_⟩
  · rw [hw] at hfs
    have hold : ∀ x ∈ waiting s, x.data ≠ releaseMessage h := by
      intro x hx
      rcases List.mem_append.mp hx with hx | hx
      · rw [hu] at hx
        simp only [Loop.frames] at hx
        split at hx
        · rw [List.mem_singleton.mp hx, hdata]
          exact (releaseMessage_ne_reset h).symm
        · cases hx
      · exact hfs x (List.mem_append_left _ hx)
    obtain ⟨source, hsource⟩ := hbase.held hg (by simp [hu]) h hh hold
    by_cases hother : ∃ other, other ≠ f.source ∧ claims s.sources other h = true
    · obtain ⟨other, hne, hcl⟩ := hother
      exact ⟨other, by rw [claims_releaseSource, if_neg hne]; exact hcl⟩
    · have hex : Exclusive s.sources f.source h := by
        have hall : ∀ other, other ≠ f.source → claims s.sources other h = false := by
          intro other hne
          by_contra hcl
          exact hother ⟨other, hne, by simpa using hcl⟩
        refine ⟨?_, hall⟩
        by_cases hs : source = f.source
        · exact hs ▸ hsource
        · rw [hall source hs] at hsource
          cases hsource
      have hmem : { f with data := releaseMessage h } ∈ releaseFrames s.sources f :=
        List.mem_map.mpr ⟨releaseMessage h, mem_releaseSource.mpr ⟨h, rfl, hex⟩, rfl⟩
      exact absurd rfl (hfs _ (List.mem_append_right _ hmem))
  · rw [claims_releaseSource] at hc
    by_cases hs : source = f.source
    · rw [if_pos hs] at hc
      cases hc
    · rw [if_neg hs] at hc
      refine (N.since source h hc).append fun e he => ?_
      simp only [List.mem_cons, List.not_mem_nil, or_false] at he
      rcases he with rfl | rfl
      · exact fun hr => hs (hr.2 hp).symm
      · exact id

/-- Any other frame that a copy could be made of. -/
theorem notes_observe {filter : Option UInt8} {s : St} {f : MidiFrame} {r : Bool} {pos : Position}
    (S : Slots s) (N : NotesOk filter s) (hu : s.loop = .handle f r pos)
    (room : List UInt8 → Bool) :
    NotesOk filter { handleMidiFrame filter room { s with sources := observe s.sources f } f with
      loop := sent pos, log := s.log ++ [.handled f r] } := by
  obtain ⟨-, h2, h3, h4, -, -, -, h8, -⟩ := handleMidiFrame_fields filter room
    { s with sources := observe s.sources f } f
  by_cases hd : f.data = [0xFF]
  · rw [handleMidiFrame_reset hd]
    refine ⟨fun hg => ?_, N.accepted, fun source h hc => ?_⟩
    · have hlt := S.generation
      simp only at hg
      omega
    · simp only [observe_reset s.sources hd] at hc
      cases hc
  · have hclaims : ∀ source h, claims (observe s.sources f) source h =
        if source = f.source then (effect f.data h).getD (claims s.sources source h)
        else claims s.sources source h := fun source h => claims_observe s.sources hd source h
    refine ⟨fun hg _ h hh hfs => ?_, fun h hh => ?_, fun source h hc => ?_⟩
    · have hgm : s.generation = s.midiGeneration := by
        have hle := S.generation
        simp only at hg h3 h4
        omega
      simp only [waiting, frames_sent, List.nil_append, h2] at hfs
      obtain ⟨-, he | ⟨he, hh⟩⟩ := handleMidiFrame_true (by exact N.accepted) hh hd
      · refine ⟨f.source, ?_⟩
        show claims (handleMidiFrame filter room _ f).sources f.source h = true
        rw [h8, hclaims, if_pos rfl, he]
        rfl
      · have hold : ∀ x ∈ waiting s, x.data ≠ releaseMessage h := by
          intro x hx hxd
          rcases List.mem_append.mp hx with hx | hx
          · rw [hu] at hx
            simp only [Loop.frames] at hx
            split at hx
            · rw [List.mem_singleton] at hx
              rw [← hx, hxd, effect_releaseMessage, if_pos rfl] at he
              cases he
            · cases hx
          · exact hfs x hx hxd
        obtain ⟨source, hcl⟩ := N.held hgm (by simp [hu]) h hh hold
        refine ⟨source, ?_⟩
        show claims (handleMidiFrame filter room _ f).sources source h = true
        rw [h8, hclaims, he]
        simpa using hcl
    · exact (handleMidiFrame_true (by exact N.accepted) hh hd).1
    · have hc : claims (handleMidiFrame filter room _ f).sources source h = true := hc
      rw [h8, hclaims] at hc
      by_cases he : source = f.source ∧ effect f.data h = some true
      · exact since_concat s.log ⟨f, r, rfl, he.1.symm, he.2⟩
      · have hcl : claims s.sources source h = true := by
          split at hc
          · rename_i hs
            cases hef : effect f.data h with
            | none =>
              rw [hef] at hc
              exact hc
            | some b =>
              rw [hef] at hc
              exact absurd ⟨hs, hef.trans (congrArg some hc)⟩ he
          · exact hc
        refine (N.since source h hcl).append fun e hmem => ?_
        rw [List.mem_singleton.mp hmem]
        exact fun hr => hd hr.1

/-- A frame that no copy could be made of. -/
theorem notes_dropped {filter : Option UInt8} {s : St} {f : MidiFrame} (S : Slots s)
    (N : NotesOk filter s) (hlen : ¬f.data.length ≤ 32) (loop : Loop) :
    NotesOk filter { s with
      sources := observe s.sources f, midiGeneration := s.midiGeneration + 1, loop,
      log := s.log ++ [.dropped f] } := by
  have hd : f.data ≠ [0xFF] := by
    intro hd
    simp [hd] at hlen
  have he : ∀ h, effect f.data h = none := by
    intro h
    match hdata : f.data with
    | [] | [_] | [_, _] | [_, _, _] => simp [hdata] at hlen
    | _ :: _ :: _ :: _ :: _ => rfl
  refine ⟨fun hg => ?_, N.accepted, fun source h hc => ?_⟩
  · have hle := S.generation
    simp only at hg
    omega
  · simp only [claims_observe s.sources hd, he, Option.getD_none, ite_self] at hc
    exact (N.since source h hc).append (by simp [Resets])

theorem notes_loopStep {filter : Option UInt8} {room : List UInt8 → Bool} {cloned : Bool} {s s' : St}
    (S : Slots s) (N : NotesOk filter s) (hst : loopStep filter room cloned s s.loop = some s') :
    NotesOk filter s' := by
  have hok := S.loop
  cases hu : s.loop with
  | stop =>
    rw [hu] at hst
    simp only [loopStep, Option.some.injEq] at hst; subst hst
    split
    · exact N.silent [] (leave_silent room s) rfl (List.append_nil _).symm (by simp)
    · exact N.moves [] (by simp [hu]) rfl rfl rfl rfl (List.append_nil _).symm
        (fun _ => by simp only [waiting, hu]; rfl) (by simp)
  | observe =>
    rw [hu] at hst
    simp only [loopStep, Option.some.injEq] at hst; subst hst
    split
    · exact ⟨fun _ h => absurd rfl h, N.accepted, fun source h hc => by simp [claims] at hc⟩
    · exact N.moves [] (by simp [hu]) rfl rfl rfl rfl (List.append_nil _).symm
        (fun _ => by simp only [waiting, hu]; rfl) (by simp)
  | resetAudio =>
    rw [hu] at hst
    simp only [loopStep, Option.some.injEq] at hst; subst hst
    exact N.silent [.resetAudio s.generation] (fun _ => rfl) rfl rfl (by simp [Resets])
  | panic =>
    rw [hu] at hst
    simp only [loopStep, Option.some.injEq] at hst; subst hst
    exact N.moves [.panicked s.generation] (by simp [hu]) rfl rfl rfl rfl rfl
      (fun _ => by simp only [waiting, hu]; rfl) (by simp [Resets])
  | recv =>
    rw [hu] at hst
    simp only [loopStep, Option.some.injEq] at hst; subst hst
    split
    · rename_i f scopedReleases hsc
      exact N.moves [] (by simp [hu]) rfl rfl rfl rfl (List.append_nil _).symm
        (fun _ => by simp only [waiting, hu, hsc]; rfl) (by simp)
    · exact N.moves [] (by simp [hu]) rfl rfl rfl rfl (List.append_nil _).symm
        (fun _ => by simp only [waiting, hu]; rfl) (by simp)
    · rename_i f queue _ _ _
      exact N.moves [.dequeued f] (by simp [hu]) rfl rfl rfl rfl rfl
        (fun _ => by simp only [waiting, hu]; rfl) (by simp [Resets])
    · split
      · exact N.silent [] (leave_silent room s) rfl (List.append_nil _).symm (by simp)
      · exact N.moves [] (by simp [hu]) rfl rfl rfl rfl (List.append_nil _).symm
          (fun _ => by simp only [waiting, hu]; rfl) (by simp)
  | received f r =>
    rw [hu] at hst
    simp only [loopStep, Option.some.injEq] at hst; subst hst
    split
    · exact N.silent [.stopped f r] (leave_silent room s) rfl rfl (by simp [Resets])
    · exact N.moves [] (by simp [hu]) rfl rfl rfl rfl (List.append_nil _).symm
        (fun _ => by simp only [waiting, hu]; rfl) (by simp)
  | act f r pos =>
    rw [hu] at hst
    simp only [loopStep, Option.some.injEq] at hst; subst hst
    split
    · rename_i hdiscard
      refine N.moves [.discarded f r s.midiGeneration] (by simp [hu]) rfl rfl rfl rfl rfl
        (fun hg => ?_) (by simp [Resets])
      cases r with
      | false => simp only [waiting, hu, frames_continued]; rfl
      | true =>
        -- a release of the generation still current is not discarded
        have hrel := (S.releases f (by simp [hu, Loop.frames])).1
        have hlt := generationAction_discard.mp hdiscard
        simp only [hrel, hg, Nat.lt_irrefl, or_self] at hlt
    · rename_i hdefer
      cases r with
      | false =>
        exact N.moves [] (by simp [hu]) rfl rfl rfl rfl (List.append_nil _).symm
          (fun _ => by simp only [waiting, hu]; rfl) (by simp)
      | true =>
        have hrel := S.releases f (by simp [hu, Loop.frames])
        rw [hrel.1] at hdefer
        exact absurd hdefer (generationAction_handled_ne_defer S.generation (Nat.le_refl 0))
    · exact N.moves [] (by simp [hu]) rfl rfl rfl rfl (List.append_nil _).symm
        (fun _ => by simp only [waiting, hu]; rfl) (by simp)
  | handle f r pos =>
    rw [hu] at hst
    simp only [loopStep, Option.some.injEq] at hst; subst hst
    by_cases hp : isPeerReset f = true
    · exact notes_peerReset N hu hp room cloned
    · unfold handle
      rw [if_neg hp]
      by_cases hclone : f.data.length ≤ 32 ∨ cloned = true
      · rw [if_pos hclone]
        exact notes_observe S N hu room
      · rw [if_neg hclone]
        exact notes_dropped S N (fun hlen => hclone (.inl hlen)) _
  | batchStop n | batchGeneration n =>
    rw [hu] at hst
    simp only [loopStep, Option.some.injEq] at hst; subst hst
    exact N.moves [] (by simp [hu]) rfl rfl rfl rfl (List.append_nil _).symm
      (fun _ => by simp only [waiting, hu]; split <;> rfl) (by simp)
  | batchRecv n =>
    rw [hu] at hst
    simp only [loopStep, Option.some.injEq] at hst; subst hst
    split
    · rename_i f scopedReleases hsc
      exact N.moves [] (by simp [hu]) rfl rfl rfl rfl (List.append_nil _).symm
        (fun _ => by simp only [waiting, hu, hsc]; rfl) (by simp)
    · rename_i f queue _ _
      exact N.moves [.dequeued f] (by simp [hu]) rfl rfl rfl rfl rfl
        (fun _ => by simp only [waiting, hu]; rfl) (by simp [Resets])
    · exact N.moves [] (by simp [hu]) rfl rfl rfl rfl (List.append_nil _).symm
        (fun _ => by simp only [waiting, hu]; rfl) (by simp)
  | ended => simp [hu, loopStep] at hst

theorem notes_step {filter : Option UInt8} {s s' : St} {l : Lbl} (S : Slots s)
    (N : NotesOk filter s) (hst : step filter s l = some s') : NotesOk filter s' := by
  cases l with
  | reset =>
    simp only [step, Option.some.injEq] at hst; subst hst
    refine ⟨fun hg => ?_, N.accepted, N.since⟩
    have hle := S.generation
    simp only at hg
    omega
  | stop | disconnect =>
    simp only [step, Option.some.injEq] at hst; subst hst
    exact { N with }
  | enqueue f =>
    simp only [step] at hst
    split at hst
    · cases hst
    · simp only [Option.some.injEq] at hst; subst hst
      unfold enqueue
      split
      · exact N
      · exact { N with }
  | loop room cloned => exact notes_loopStep S N hst

theorem notes_inductive (filter : Option UInt8) (g₀ : Nat) :
    (lts filter g₀).InductiveUnder Slots (NotesOk filter) where
  init := by
    rintro s rfl
    exact ⟨nofun, nofun, nofun⟩
  step _ _ _ S N hst := notes_step S N hst

/-! ## Headline property -/

/-- After every step, unless a new generation is still to be met by the
loop's audio reset: what sounds or is held, the waiting releases played, is
claimed by a source that has asserted it and has not been reset since. A
reset of one source releases, each once, exactly what that source alone
claims, leaves the other sources' entries as they are, and does not depend
on the order of the table. -/
theorem no_stuck_note (filter : Option UInt8) (g₀ : Nat) :
    (∀ s, (lts filter g₀).Reachable s → s.generation = s.midiGeneration → s.loop ≠ .resetAudio →
      ∀ h, released s h = true → ∃ source, claims s.sources source h = true ∧
        Since (Asserts source h) (Resets source) s.log) ∧
    ∀ (st : SourceMidiState) (source : String),
      (∀ m, m ∈ (releaseSource st source).1 ↔
        ∃ h, m = releaseMessage h ∧ Exclusive st source h) ∧
      (releaseSource st source).1.Nodup ∧
      (∀ s, (releaseSource st source).2.lookup s = if s = source then none else st.lookup s) ∧
      ∀ st' : SourceMidiState, st.entries.Perm st'.entries →
        (releaseSource st source).1 = (releaseSource st' source).1 ∧
          (releaseSource st source).2.entries.Perm (releaseSource st' source).2.entries := by
  refine ⟨fun s hr hg hu h hh => ?_, fun st source => ⟨fun m => mem_releaseSource,
    releaseSource_nodup st source, lookup_releaseSource st source,
    fun st' hp => releaseSource_perm hp source⟩⟩
  have S := (slots_inductive filter g₀).reachable s hr
  have N := (notes_inductive filter g₀).reachable (slots_inductive filter g₀) s hr
  obtain ⟨hd, hfs⟩ := (released_iff S h).mp hh
  obtain ⟨source, hc⟩ := N.held hg hu h hd hfs
  exact ⟨source, hc, N.since source h hc⟩

/-! ## Non-vacuity and the discarded release -/

/-- Two sources hold one note; one of them is reset. -/
def traceShared : List Lbl :=
  [.enqueue (noteOn 0 60), .enqueue ⟨0, "Keyboard", [0x90, 60, 100]⟩, .enqueue (noteOn 0 62),
      .enqueue (message 0 [0xFF])] ++ goes 40

theorem traceShared_result : (LTS.exec (step none) (init 0) traceShared).any fun s =>
    s.generation = s.midiGeneration ∧ s.loop ≠ .resetAudio ∧
      released s (.note 0 60) = true ∧ released s (.note 0 62) = false := by decide +kernel

theorem shared_note_claimed : ∃ s, (lts none 0).Reachable s ∧ released s (.note 0 62) = false ∧
    ∃ source, claims s.sources source (.note 0 60) = true ∧
      Since (Asserts source (.note 0 60)) (Resets source) s.log := by
  obtain ⟨s, hr, hs⟩ := reachable_of_run traceShared traceShared_result
  simp only [decide_eq_true_eq] at hs
  obtain ⟨hg, hu, h60, h62⟩ := hs
  exact ⟨s, hr, h62, (no_stuck_note none 0).1 s hr hg hu (.note 0 60) h60⟩

/-- The source is reset; a new generation begins before its release is
handled, and the release is discarded. -/
def traceDiscard : List Lbl :=
  [.enqueue (noteOn 0 60), .enqueue (message 0 [0xFF])] ++ goes 14 ++ [.reset] ++ goes 1

theorem traceDiscard_result : (LTS.exec (step none) (init 0) traceDiscard).any fun s =>
    released s (.note 0 60) = true ∧ s.sources.entries.isEmpty = true := by decide +kernel

/-- A note that no source claims still sounds. -/
theorem discarded_release_sounds :
    ¬∀ s, (lts none 0).Reachable s → ∀ h, released s h = true →
      ∃ source, claims s.sources source h = true := by
  intro hall
  obtain ⟨s, hr, hs⟩ := reachable_of_run traceDiscard traceDiscard_result
  simp only [decide_eq_true_eq] at hs
  obtain ⟨source, hc⟩ := hall s hr (.note 0 60) hs.1
  have hempty : s.sources.entries = [] := List.isEmpty_iff.mp hs.2
  simp [claims, AList.lookup, hempty] at hc

end RtpOscMidi.L5.StuckNotes
