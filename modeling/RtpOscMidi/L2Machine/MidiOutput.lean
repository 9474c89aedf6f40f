import RtpOscMidi.Core.Bits
import RtpOscMidi.L1Encoding.MidiMessage
import RtpOscMidi.L2Machine.OscOutput

/-!
# The notes of a MIDI output

`ActiveNotes` follows what was sent to a MIDI output, one bit for each note of
each channel. A flush releases the notes that are followed and then resets
every channel.

* `observe_covers`: a note that sounds is followed.
* `flush_silences`: a flush that arrives whole leaves nothing sounding or held
  down, whatever was there before.
-/
namespace RtpOscMidi.L2.MidiOutput

open Core L1.MidiMessage

/-- mirrors src-tauri/src/midi.rs:371-374 -/
abbrev ActiveNotes := Fin 16 → BitVec 128

def ActiveNotes.default : ActiveNotes := fun _ => 0

/-- mirrors src-tauri/src/midi.rs:377-391 -/
def observe (notes : ActiveNotes) (data : List UInt8) : ActiveNotes :=
  match parseNote data with
  | some note =>
    let c := channel (note.channel - 1)
    match note.kind with
    | .noteOn => Function.update notes c (setBit (notes c) note.note.toNat)
    | .noteOff => Function.update notes c (clearBit (notes c) note.note.toNat)
  | none =>
    if data = [0xFF] then fun _ => 0
    else
      match data with
      | [status, d1, _] =>
        if status &&& 0xF0 = 0xB0 ∧ (d1 = 120 ∨ d1 = 123) then
          Function.update notes (channel status) 0
        else notes
      | _ => notes

/-- mirrors src-tauri/src/midi.rs:393-401 -/
def releaseAll (notes : ActiveNotes) : List (List UInt8) :=
  (List.finRange 16).flatMap fun c : Fin 16 =>
    (drainBits 128 (notes c)).map fun n => [0x80 ||| UInt8.ofNat c, UInt8.ofNat n, 0]

/-- mirrors src-tauri/src/bridge/midi_io.rs:252-259 -/
def resetMessages : List (List UInt8) :=
  (List.finRange 16).flatMap fun c : Fin 16 =>
    [[0xB0 ||| UInt8.ofNat c, 64, 0], [0xB0 ||| UInt8.ofNat c, 120, 0],
      [0xB0 ||| UInt8.ofNat c, 121, 0], [0xB0 ||| UInt8.ofNat c, 123, 0],
      [0xE0 ||| UInt8.ofNat c, 0x00, 0x40]]

/-- mirrors src-tauri/src/bridge/processing.rs:347-356 -/
def flushMessages (notes : ActiveNotes) : List (List UInt8) := releaseAll notes ++ resetMessages

/-- What an instrument holds after a message; a system reset ends everything. -/
def play (held : Held → Bool) (data : List UInt8) : Held → Bool :=
  if data = [0xFF] then fun _ => false else hear held data

/-- No control change has a value over 127. -/
def WellFormed (data : List UInt8) : Prop :=
  ∀ status d1 d2, data = [status, d1, d2] → status &&& 0xF0 = 0xB0 → ¬127 < d2

/-- What has been normalized is well formed. -/
theorem wellFormed_of_normalized {data : List UInt8} (h : normalizeMessage data = some data) :
    WellFormed data := by
  rintro status d1 d2 rfl hcc hlt
  have hsys : [status, d1, d2].head? ≠ some 0xF0 := by
    intro hs
    cases Option.some.inj hs
    cases hcc
  obtain ⟨_, _, hdata, -, hbytes⟩ := ((normalizeMessage_eq_some hsys).mp h).1
  cases hdata
  have hsmall : d2.toNat < 128 := UInt8.lt_iff_toNat_lt.mp (hbytes d2 (by simp))
  have hlarge : 127 < d2.toNat := UInt8.lt_iff_toNat_lt.mp hlt
  omega

/-! ## Following -/

/-- Every note that sounds is followed. -/
def Covers (notes : ActiveNotes) (held : Held → Bool) : Prop :=
  ∀ c n, held (.note c n) = true → (notes c).getLsbD n = true

theorem noteChannel (status : UInt8) :
    channel ((status &&& 0x0F) + 1 - 1) = channel status := by
  rw [add_sub_cancel_right, channel, channel, UInt8.and_assoc]
  rfl

theorem dataByte (b : UInt8) : (0x80 : UInt8) ≤ b ↔ 127 < b := by
  rw [UInt8.le_iff_toNat_le, UInt8.lt_iff_toNat_lt]
  rfl

theorem observe_noteOn (notes : ActiveNotes) {status d1 d2 : UInt8} (h1 : ¬127 < d1)
    (h2 : ¬127 < d2) (hs : status &&& 0xF0 = 0x90) (hv : d2 ≠ 0) :
    observe notes [status, d1, d2] = Function.update notes (channel status)
      (setBit (notes (channel status)) d1.toNat) := by
  have hp : parseNote [status, d1, d2] =
      some ⟨d1, (status &&& 0x0F) + 1, .noteOn, adjustNote d1⟩ := by
    simp [parseNote, dataByte, h1, h2, hs, hv]
  rw [observe, hp]
  dsimp only
  rw [noteChannel]

theorem observe_noteOff (notes : ActiveNotes) {status d1 d2 : UInt8} (h1 : ¬127 < d1)
    (h2 : ¬127 < d2) (hs : status &&& 0xF0 = 0x80 ∨ status &&& 0xF0 = 0x90 ∧ d2 = 0) :
    observe notes [status, d1, d2] = Function.update notes (channel status)
      (clearBit (notes (channel status)) d1.toNat) := by
  have hp : parseNote [status, d1, d2] =
      some ⟨d1, (status &&& 0x0F) + 1, .noteOff, adjustNote d1⟩ := by
    cases hs with
    | inl hs => simp [parseNote, dataByte, h1, h2, hs]
    | inr hs => simp [parseNote, dataByte, h1, hs.1, hs.2]
  rw [observe, hp]
  dsimp only
  rw [noteChannel]

theorem covers_noteOn {notes : ActiveNotes} {held : Held → Bool} {status d1 d2 : UInt8}
    (h : Covers notes held) (h1 : ¬127 < d1) (h2 : ¬127 < d2) (hs : status &&& 0xF0 = 0x90)
    (hv : d2 ≠ 0) : Covers (observe notes [status, d1, d2]) (hear held [status, d1, d2]) := by
  intro c n hsounds
  rw [observe_noteOn notes h1 h2 hs hv]
  by_cases hc : c = channel status
  · rw [hc, Function.update_self, getLsbD_setBit]
    by_cases hn : (n : Nat) = d1.toNat
    · have hlt : d1.toNat < 128 := hn ▸ n.isLt
      simp [hn, hlt]
    · have heffect : effect [status, d1, d2] (.note c n) = none := by
        simp [effect, hs, Ne.symm hn, UInt8.pos_iff_ne_zero.mpr hv]
      rw [hear, heffect] at hsounds
      rw [← hc, h c n hsounds, Bool.true_or]
  · have heffect : effect [status, d1, d2] (.note c n) = none := by
      simp [effect, Held.channel, Ne.symm hc]
    rw [hear, heffect] at hsounds
    rw [Function.update_of_ne hc]
    exact h c n hsounds

theorem covers_noteOff {notes : ActiveNotes} {held : Held → Bool} {status d1 d2 : UInt8}
    (h : Covers notes held) (h1 : ¬127 < d1) (h2 : ¬127 < d2)
    (hs : status &&& 0xF0 = 0x80 ∨ status &&& 0xF0 = 0x90 ∧ d2 = 0) :
    Covers (observe notes [status, d1, d2]) (hear held [status, d1, d2]) := by
  intro c n hsounds
  rw [observe_noteOff notes h1 h2 hs]
  have hoff : ¬(status &&& 0xF0 = 0x90 ∧ 0 < d2) := by
    rintro ⟨h90, hpos⟩
    cases hs with
    | inl h80 => rw [h80] at h90; cases h90
    | inr hzero => rw [hzero.2] at hpos; exact absurd hpos (by decide)
  have hstatus : status &&& 0xF0 = 0x80 ∨ status &&& 0xF0 = 0x90 := hs.imp_right And.left
  by_cases hc : c = channel status
  · rw [hc, Function.update_self, getLsbD_clearBit]
    by_cases hn : (n : Nat) = d1.toNat
    · have heffect : effect [status, d1, d2] (.note c n) = some false := by
        simp [effect, Held.channel, hc, h1, h2, hoff, hstatus, hn]
      rw [hear, heffect] at hsounds
      cases hsounds
    · have heffect : effect [status, d1, d2] (.note c n) = none := by
        simp [effect, hoff, hstatus, Ne.symm hn]
      rw [hear, heffect] at hsounds
      simp [← hc, h c n hsounds, hn]
  · have heffect : effect [status, d1, d2] (.note c n) = none := by
      simp [effect, Held.channel, Ne.symm hc]
    rw [hear, heffect] at hsounds
    rw [Function.update_of_ne hc]
    exact h c n hsounds

/-- A message that is no note message and no system reset. -/
theorem observe_covers_control {notes : ActiveNotes} {held : Held → Bool} {status d1 d2 : UInt8}
    (h : Covers notes held) (hwf : status &&& 0xF0 = 0xB0 → ¬127 < d2)
    (hnone : parseNote [status, d1, d2] = none)
    (hon : ¬(status &&& 0xF0 = 0x90 ∧ ¬127 < d1 ∧ ¬127 < d2)) :
    Covers (observe notes [status, d1, d2]) (hear held [status, d1, d2]) := by
  intro c n hsounds
  unfold observe
  rw [hnone]
  dsimp only
  rw [if_neg (by simp)]
  split
  · rename_i hcc
    obtain ⟨hb, hd⟩ := hcc
    have hd1 : ¬127 < d1 := by
      obtain rfl | rfl := hd
      · decide
      · decide
    have hd' : d1 = 120 ∨ 123 ≤ d1 := by
      obtain rfl | rfl := hd
      · exact .inl rfl
      · exact .inr (by decide)
    by_cases hc : channel status = c
    · -- the message ends every note of the channel
      simp [hear, effect, Held.channel, hc, hd1, hwf hb, hb, hd'] at hsounds
    · have heffect : effect [status, d1, d2] (.note c n) = none := by
        simp [effect, Held.channel, hc]
      rw [hear, heffect] at hsounds
      rw [Function.update_of_ne (Ne.symm hc)]
      exact h c n hsounds
  · refine h c n ?_
    cases he : effect [status, d1, d2] (.note c n) with
    | none =>
      rw [hear, he] at hsounds
      exact hsounds
    | some b =>
      rw [hear, he] at hsounds
      obtain rfl : b = true := hsounds
      exfalso
      simp only [effect] at he
      split at he
      · cases he
      · rename_i hle
        rw [not_or, not_or] at hle
        split at he
        · rename_i hnote
          exact hon ⟨hnote.1, hle.2⟩
        · split at he
          · split at he <;> cases he
          · split at he <;> cases he

theorem parseNote_eq_none {status d1 d2 : UInt8}
    (h : 127 < d1 ∨ 127 < d2 ∨ status &&& 0xF0 ≠ 0x90 ∧ status &&& 0xF0 ≠ 0x80) :
    parseNote [status, d1, d2] = none := by
  unfold parseNote
  simp only [dataByte]
  split
  · rfl
  · rename_i hle
    have hs := (h.resolve_left fun h1 => hle (.inl h1)).resolve_left fun h2 => hle (.inr h2)
    rw [if_neg hs.1, if_neg hs.2]

/-- A message of another length changes nothing, nor does the instrument hear it. -/
theorem observe_other {data : List UInt8} (hlength : ∀ status d1 d2, data ≠ [status, d1, d2])
    (hreset : data ≠ [0xFF]) (notes : ActiveNotes) (held : Held → Bool) :
    observe notes data = notes ∧ hear held data = held := by
  have hp : parseNote data = none := by
    unfold parseNote
    split
    · exact absurd rfl (hlength _ _ _)
    · rfl
  have he (h : Held) : effect data h = none := by
    unfold effect
    split
    · exact absurd rfl (hlength _ _ _)
    · rfl
  constructor
  · unfold observe
    rw [hp]
    dsimp only
    rw [if_neg hreset]
    split
    · exact absurd rfl (hlength _ _ _)
    · rfl
  · funext h
    rw [hear, he]
    rfl

theorem observe_covers_voice {notes : ActiveNotes} {held : Held → Bool} {status d1 d2 : UInt8}
    (h : Covers notes held) (hwf : status &&& 0xF0 = 0xB0 → ¬127 < d2) :
    Covers (observe notes [status, d1, d2]) (hear held [status, d1, d2]) := by
  by_cases hdata : 127 < d1 ∨ 127 < d2
  · exact observe_covers_control h hwf (parseNote_eq_none (hdata.imp_right .inl))
      fun hon => hdata.elim hon.2.1 hon.2.2
  · obtain ⟨h1, h2⟩ := not_or.mp hdata
    by_cases hs : status &&& 0xF0 = 0x90
    · by_cases hv : d2 = 0
      · exact covers_noteOff h h1 h2 (.inr ⟨hs, hv⟩)
      · exact covers_noteOn h h1 h2 hs hv
    · by_cases hs' : status &&& 0xF0 = 0x80
      · exact covers_noteOff h h1 h2 (.inl hs')
      · exact observe_covers_control h hwf (parseNote_eq_none (.inr (.inr ⟨hs, hs'⟩)))
          fun hon => hs hon.1

theorem observe_covers {notes : ActiveNotes} {held : Held → Bool} {data : List UInt8}
    (h : Covers notes held) (hwf : WellFormed data) :
    Covers (observe notes data) (play held data) := by
  by_cases hreset : data = [0xFF]
  · intro c n hsounds
    rw [play, if_pos hreset] at hsounds
    cases hsounds
  · rw [play, if_neg hreset]
    by_cases hlength : ∃ status d1 d2, data = [status, d1, d2]
    · obtain ⟨status, d1, d2, rfl⟩ := hlength
      exact observe_covers_voice h (hwf status d1 d2 rfl)
    · have hlength (status d1 d2 : UInt8) : data ≠ [status, d1, d2] :=
        fun he => hlength ⟨status, d1, d2, he⟩
      obtain ⟨hnotes, hheld⟩ := observe_other hlength hreset notes held
      rw [hnotes, hheld]
      exact h

/-! ## Flushing -/

theorem foldl_hear_false {msgs : List (List UInt8)} {h : Held}
    (hnone : ∀ m ∈ msgs, effect m h ≠ some true) :
    ∀ held : Held → Bool, held h = false → msgs.foldl hear held h = false := by
  induction msgs with
  | nil => exact fun _ hoff => hoff
  | cons m msgs ih =>
    intro held hoff
    refine ih (fun m' hm' => hnone m' (List.mem_cons_of_mem m hm')) (hear held m) ?_
    rw [hear]
    cases he : effect m h with
    | none => exact hoff
    | some b =>
      cases b with
      | false => rfl
      | true => exact absurd he (hnone m List.mem_cons_self)

/-- Messages that turn nothing on and one of which turns `h` off. -/
theorem foldl_hear_off {msgs : List (List UInt8)} {h : Held}
    (hnone : ∀ m ∈ msgs, effect m h ≠ some true) (hoff : ∃ m ∈ msgs, effect m h = some false)
    (held : Held → Bool) : msgs.foldl hear held h = false := by
  obtain ⟨m, hm, heffect⟩ := hoff
  obtain ⟨xs, ys, rfl⟩ := List.append_of_mem hm
  rw [List.foldl_append, List.foldl_cons]
  refine foldl_hear_false (fun m' hm' => hnone m' ?_) _ ?_
  · exact List.mem_append_right _ (List.mem_cons_of_mem m hm')
  · rw [hear, heffect]
    rfl

theorem bend_status : ∀ c : Fin 16, (0xE0 ||| UInt8.ofNat c) &&& 0xF0 = (0xE0 : UInt8) := by decide

theorem control_critical : ∀ c : Fin 16, ∀ d1 ∈ [64, 120, 121, 123],
    isCriticalReleaseMessage [0xB0 ||| UInt8.ofNat c, d1, 0] = true := by decide +kernel

theorem effect_releaseAll {notes : ActiveNotes} {m : List UInt8} (hm : m ∈ releaseAll notes)
    (h : Held) : effect m h ≠ some true := by
  obtain ⟨c, -, hm⟩ := List.mem_flatMap.mp hm
  obtain ⟨n, hn, rfl⟩ := List.mem_map.mp hm
  have hlt : n < 128 := BitVec.lt_of_getLsbD (mem_drainBits.mp hn)
  have hrelease := effect_releaseMessage (.note c ⟨n, hlt⟩) h
  intro htrue
  rw [releaseMessage, htrue] at hrelease
  split at hrelease
  · cases hrelease
  · cases hrelease

theorem effect_resetMessages {m : List UInt8} (hm : m ∈ resetMessages) (h : Held) :
    effect m h ≠ some true := by
  obtain ⟨c, -, hm⟩ := List.mem_flatMap.mp hm
  have hcritical (d1 : UInt8) (hd : d1 ∈ [64, 120, 121, 123])
      (he : m = [0xB0 ||| UInt8.ofNat c, d1, 0]) : effect m h ≠ some true :=
    effect_of_isCritical (he ▸ control_critical c d1 hd) h
  simp only [List.mem_cons, List.not_mem_nil, or_false] at hm
  obtain he | he | he | he | he := hm
  · exact hcritical 64 (by decide) he
  · exact hcritical 120 (by decide) he
  · exact hcritical 121 (by decide) he
  · exact hcritical 123 (by decide) he
  · rw [he]
    cases h <;> simp [effect, bend_status]

theorem exists_reset_off (h : Held) : ∃ m ∈ resetMessages, effect m h = some false := by
  have hmem (d1 : UInt8) (hd : d1 ∈ [120, 121]) :
      [0xB0 ||| UInt8.ofNat h.channel, d1, 0] ∈ resetMessages := by
    refine List.mem_flatMap.mpr ⟨h.channel, List.mem_finRange _, ?_⟩
    simp only [List.mem_cons, List.not_mem_nil, or_false] at hd
    obtain rfl | rfl := hd
    · simp
    · simp
  obtain ⟨-, -, hs, hc⟩ := release_status h.channel
  cases h with
  | note c n =>
    refine ⟨_, hmem 120 (by decide), ?_⟩
    simp only [Held.channel] at hs hc
    simp [effect, Held.channel, hs, hc]
  | pedal c p =>
    have h121 : (121 : UInt8) ≠ holdPedals p := Ne.symm (release_pedal p).2.2.1
    refine ⟨_, hmem 121 (by decide), ?_⟩
    simp only [Held.channel] at hs hc
    simp [effect, Held.channel, hs, hc, h121]

/-- A flush that arrives whole leaves nothing sounding or held down. -/
theorem flush_silences (notes : ActiveNotes) (held : Held → Bool) (h : Held) :
    (flushMessages notes).foldl hear held h = false := by
  refine foldl_hear_off (fun m hm => ?_) ?_ held
  · cases List.mem_append.mp hm with
    | inl hm => exact effect_releaseAll hm h
    | inr hm => exact effect_resetMessages hm h
  · obtain ⟨m, hm, heffect⟩ := exists_reset_off h
    exact ⟨m, List.mem_append_right _ hm, heffect⟩

end RtpOscMidi.L2.MidiOutput
