import RtpOscMidi.Core.Bytes
import RtpOscMidi.L1Encoding.MidiMessage

/-!
# The MIDI frames of the worker pipe

A frame has 28 bytes: three little-endian numbers of eight bytes, the length
of the message, and the message in three bytes with zeros behind it.

* `decode_encode`: a frame that `new` built is read back.
* `decode_isOk_iff`: what is read is a complete message with its length and
  zeros, and all of that is read.
* `encode_decode`: what is read is written as it was, a note-on of velocity 0
  as the note-off.
-/
namespace RtpOscMidi.L1.WireFrame

open Core MidiMessage

abbrev Bytes (n : Nat) := { l : List UInt8 // l.length = n }

/-- mirrors src-tauri/src/vst_worker/protocol.rs:15-16 -/
def maxMidiBytes : Nat := 3
def midiFrameBytes : Nat := 8 + 8 + 8 + 1 + maxMidiBytes

/-- `data[..out.len()].copy_from_slice(out)` -/
def Bytes.overwrite {n : Nat} (data : Bytes n) (out : List UInt8) : Bytes n :=
  ⟨(out ++ data.1.drop out.length).take n, by
    have h := data.2
    simp only [List.length_take, List.length_append, List.length_drop]
    omega⟩

def Bytes.zero (n : Nat) : Bytes n := ⟨List.replicate n 0, List.length_replicate⟩

/-- mirrors src-tauri/src/vst_worker/protocol.rs:210-219 -/
structure MidiWireFrame where
  generation : UInt64
  pipeQpc : UInt64
  sequence : UInt64
  monotonicQpc : UInt64
  len : UInt8
  data : Bytes maxMidiBytes
  deriving DecidableEq

/-- mirrors src-tauri/src/vst_worker/protocol.rs:222-239 -/
def new (sequence monotonicQpc : UInt64) (bytes : List UInt8) : Option MidiWireFrame :=
  if bytes = [] ∨ maxMidiBytes < bytes.length then none
  else if bytes.head? = some 0xF0 then none
  else match normalizeMessage bytes with
    | none => none
    | some out =>
      some ⟨0, 0, sequence, monotonicQpc, UInt8.ofNat bytes.length,
        ((Bytes.zero maxMidiBytes).overwrite bytes).overwrite out⟩

/-- The bytes of a frame, field by field. -/
def pack (sequence monotonicQpc pipeQpc : UInt64) (len : UInt8) (data : Bytes maxMidiBytes) :
    Bytes midiFrameBytes :=
  ⟨le 8 sequence.toNat ++ (le 8 monotonicQpc.toNat ++ (le 8 pipeQpc.toNat ++ len :: data.1)), by
    simp [data.2, midiFrameBytes, maxMidiBytes]⟩

/-- mirrors src-tauri/src/vst_worker/protocol.rs:245-253 -/
def MidiWireFrame.encode (f : MidiWireFrame) : Bytes midiFrameBytes :=
  pack f.sequence f.monotonicQpc f.pipeQpc f.len f.data

def readU64 (encoded : Bytes midiFrameBytes) (offset : Nat) : UInt64 :=
  UInt64.ofNat (ofLE ((encoded.1.drop offset).take 8))

/-- mirrors src-tauri/src/vst_worker/protocol.rs:255-287 -/
def decode (encoded : Bytes midiFrameBytes) : Except String MidiWireFrame :=
  let len := (encoded.1.drop 24).headD 0
  if len = 0 ∨ maxMidiBytes < len.toNat then .error "invalid MIDI frame length"
  else
    let data : Bytes maxMidiBytes := ⟨encoded.1.drop 25, by
      rw [List.length_drop, encoded.2]
      rfl⟩
    if data.1.head? = some 0xF0 ∨ (data.1.drop len.toNat).any (· != 0) then
      .error "invalid MIDI frame contents"
    else match normalizeMessage (data.1.take len.toNat) with
      | none => .error "invalid MIDI frame contents"
      | some out =>
        .ok ⟨0, readU64 encoded 16, readU64 encoded 0, readU64 encoded 8, len, data.overwrite out⟩

/-! ## The fields of a frame -/

section Fields

variable (s q p : UInt64) (len : UInt8) (data : Bytes maxMidiBytes)

theorem ofNat_ofLE_le (x : UInt64) : UInt64.ofNat (ofLE (le 8 x.toNat)) = x := by
  rw [ofLE_le (by simpa using x.toNat_lt), UInt64.ofNat_toNat]

theorem readU64_pack_sequence : readU64 (pack s q p len data) 0 = s := by
  rw [readU64, pack, List.drop_zero, List.take_left' (length_le 8 _), ofNat_ofLE_le]

theorem readU64_pack_monotonicQpc : readU64 (pack s q p len data) 8 = q := by
  rw [readU64, pack, List.drop_left' (length_le 8 _), List.take_left' (length_le 8 _),
    ofNat_ofLE_le]

theorem drop_pack_sixteen :
    (pack s q p len data).1.drop 16 = le 8 p.toNat ++ len :: data.1 := by
  show (le 8 s.toNat ++ (le 8 q.toNat ++ (le 8 p.toNat ++ len :: data.1))).drop 16 = _
  rw [← List.append_assoc, List.drop_left' (by simp)]

theorem readU64_pack_pipeQpc : readU64 (pack s q p len data) 16 = p := by
  rw [readU64, drop_pack_sixteen, List.take_left' (length_le 8 _), ofNat_ofLE_le]

theorem drop_pack : (pack s q p len data).1.drop 24 = len :: data.1 := by
  rw [show 24 = 16 + 8 from rfl, ← List.drop_drop, drop_pack_sixteen,
    List.drop_left' (length_le 8 _)]

/-- `decode`, on the fields. -/
theorem decode_pack : decode (pack s q p len data) =
    if len = 0 ∨ maxMidiBytes < len.toNat then .error "invalid MIDI frame length"
    else if data.1.head? = some 0xF0 ∨ (data.1.drop len.toNat).any (· != 0) then
      .error "invalid MIDI frame contents"
    else match normalizeMessage (data.1.take len.toNat) with
      | none => .error "invalid MIDI frame contents"
      | some out => .ok ⟨0, p, s, q, len, data.overwrite out⟩ := by
  have hdata : (pack s q p len data).1.drop 25 = data.1 := by
    rw [show 25 = 24 + 1 from rfl, ← List.drop_drop, drop_pack, List.drop_one, List.tail_cons]
  simp only [decode, drop_pack, List.headD_cons, hdata, readU64_pack_sequence,
    readU64_pack_monotonicQpc, readU64_pack_pipeQpc, Subtype.coe_eta]

end Fields

/-- Every 28 bytes are the fields of a frame. -/
theorem exists_pack (encoded : Bytes midiFrameBytes) :
    ∃ s q p len data, encoded = pack s q p len data := by
  have hlen := encoded.2
  have hread : ∀ offset, offset + 8 ≤ 28 → ∃ x : UInt64,
      le 8 x.toNat = (encoded.1.drop offset).take 8 := by
    intro offset hoffset
    have htake : ((encoded.1.drop offset).take 8).length = 8 := by
      rw [List.length_take, List.length_drop, hlen]
      simp only [midiFrameBytes, maxMidiBytes]
      omega
    have hlt := ofLE_lt ((encoded.1.drop offset).take 8)
    rw [htake] at hlt
    refine ⟨UInt64.ofNat (ofLE ((encoded.1.drop offset).take 8)), ?_⟩
    rw [UInt64.toNat_ofNat', Nat.mod_eq_of_lt (by simpa using hlt)]
    have hle := le_ofLE ((encoded.1.drop offset).take 8)
    rwa [htake] at hle
  obtain ⟨s, hs⟩ := hread 0 (by decide)
  obtain ⟨q, hq⟩ := hread 8 (by decide)
  obtain ⟨p, hp⟩ := hread 16 (by decide)
  have hrest : (encoded.1.drop 24).length = 4 := by
    rw [List.length_drop, hlen]
    rfl
  obtain ⟨len, data, hdata⟩ := List.exists_cons_of_length_eq_add_one hrest
  rw [hdata, List.length_cons] at hrest
  refine ⟨s, q, p, len, ⟨data, by simpa [maxMidiBytes] using hrest⟩, Subtype.ext ?_⟩
  have h24 : encoded.1.drop 16 = (encoded.1.drop 16).take 8 ++ encoded.1.drop 24 := by
    conv_lhs => rw [← List.take_append_drop 8 (encoded.1.drop 16)]
    rw [List.drop_drop]
  have h16 : encoded.1.drop 8 = (encoded.1.drop 8).take 8 ++ encoded.1.drop 16 := by
    conv_lhs => rw [← List.take_append_drop 8 (encoded.1.drop 8)]
    rw [List.drop_drop]
  have h8 : encoded.1 = encoded.1.take 8 ++ encoded.1.drop 8 := (List.take_append_drop 8 _).symm
  rw [h8, h16, h24, hdata, ← hp, ← hq]
  rw [List.drop_zero] at hs
  rw [← hs]
  rfl

/-! ## Reading and writing -/

/-- A message in its three bytes, with zeros behind it. -/
def padded (bytes : List UInt8) : List UInt8 :=
  bytes ++ List.replicate (maxMidiBytes - bytes.length) 0

theorem overwrite_eq {n : Nat} {data : Bytes n} {out : List UInt8} (h : out.length ≤ n) :
    (data.overwrite out).1 = out ++ data.1.drop out.length := by
  have hdata := data.2
  refine List.take_of_length_le ?_
  rw [List.length_append, List.length_drop]
  omega

theorem overwrite_padded {data : Bytes maxMidiBytes} {bytes out : List UInt8}
    (hdata : data.1 = padded bytes) (hlen : out.length = bytes.length)
    (hle : bytes.length ≤ maxMidiBytes) : (data.overwrite out).1 = padded out := by
  rw [overwrite_eq (by omega), hdata, padded, hlen, List.drop_left, padded, hlen]

theorem padded_zero {bytes : List UInt8} (hle : bytes.length ≤ maxMidiBytes) :
    ((Bytes.zero maxMidiBytes).overwrite bytes).1 = padded bytes := by
  rw [overwrite_eq hle]
  show bytes ++ (List.replicate maxMidiBytes 0).drop bytes.length = _
  rw [List.drop_replicate, padded]

theorem toNat_length {bytes : List UInt8} (h : Complete bytes) :
    (UInt8.ofNat bytes.length).toNat = bytes.length := by
  have hle := h.length_le
  rw [UInt8.toNat_ofNat', Nat.mod_eq_of_lt (by omega)]

/-- A complete message is read, with the note-off for a note-on of velocity 0. -/
theorem decode_padded (s q p : UInt64) {bytes : List UInt8} (h : Complete bytes)
    {data : Bytes maxMidiBytes} (hdata : data.1 = padded bytes) :
    decode (pack s q p (UInt8.ofNat bytes.length) data) =
      .ok ⟨0, p, s, q, UInt8.ofNat bytes.length, data.overwrite (silence bytes)⟩ := by
  obtain ⟨hpos, hle⟩ := h.length_le
  have hlen := toNat_length h
  have hne : ¬(UInt8.ofNat bytes.length = 0 ∨ maxMidiBytes < (UInt8.ofNat bytes.length).toNat) := by
    rw [hlen, ← UInt8.toNat_inj, hlen]
    simp only [maxMidiBytes, UInt8.toNat_zero]
    omega
  have hhead : data.1.head? = bytes.head? := by
    obtain ⟨status, rest, rfl, -⟩ := h
    rw [hdata]
    rfl
  have hsys : ¬(data.1.head? = some 0xF0 ∨
      (data.1.drop (UInt8.ofNat bytes.length).toNat).any (· != 0) = true) := by
    rw [hhead, hdata, hlen, padded, List.drop_left]
    simp [h.head]
  have hread : normalizeMessage (data.1.take (UInt8.ofNat bytes.length).toNat) =
      some (silence bytes) := by
    rw [hdata, hlen, padded, List.take_left]
    exact (normalizeMessage_eq_some h.head).mpr ⟨h, rfl⟩
  rw [decode_pack, if_neg hne, if_neg hsys, hread]

/-- Nothing else is read. -/
theorem padded_of_decode {s q p : UInt64} {len : UInt8} {data : Bytes maxMidiBytes}
    {f : MidiWireFrame} (h : decode (pack s q p len data) = .ok f) :
    ∃ bytes, Complete bytes ∧ len = UInt8.ofNat bytes.length ∧ data.1 = padded bytes := by
  rw [decode_pack] at h
  split at h
  · cases h
  · rename_i hlen
    split at h
    · cases h
    · rename_i hsys
      split at h
      · cases h
      · rename_i out hread
        simp only [not_or, Nat.not_lt, List.any_eq_true, bne_iff_ne, ne_eq, not_exists,
          not_and, Decidable.not_not] at hlen hsys
        have hdata := data.2
        have hpos : 0 < len.toNat := by
          rw [Nat.pos_iff_ne_zero, ← UInt8.toNat_zero, ne_eq, UInt8.toNat_inj]
          exact hlen.1
        have htake : (data.1.take len.toNat).length = len.toNat := by
          rw [List.length_take]
          omega
        have hhead : (data.1.take len.toNat).head? ≠ some 0xF0 := by
          rw [List.head?_take, if_neg (by omega)]
          exact hsys.1
        refine ⟨data.1.take len.toNat, ((normalizeMessage_eq_some hhead).mp hread).1, ?_, ?_⟩
        · rw [htake, UInt8.ofNat_toNat]
        · have hzero : data.1.drop len.toNat = List.replicate (maxMidiBytes - len.toNat) 0 := by
            refine List.eq_replicate_iff.mpr ⟨?_, hsys.2⟩
            rw [List.length_drop, hdata]
          rw [padded, htake, ← hzero, List.take_append_drop]

/-- A frame that `new` built, whatever generation and pipe time it got since,
is read back with generation 0. -/
theorem decode_encode {sequence monotonicQpc : UInt64} {bytes : List UInt8} {f : MidiWireFrame}
    (h : new sequence monotonicQpc bytes = some f) (generation pipeQpc : UInt64) :
    decode { f with generation, pipeQpc }.encode = .ok { f with generation := 0, pipeQpc } := by
  unfold new at h
  split at h
  · cases h
  · rename_i hlen
    simp only [not_or, Nat.not_lt] at hlen
    split at h
    · cases h
    · rename_i hsys
      split at h
      · cases h
      · rename_i out hread
        obtain ⟨hcomplete, rfl⟩ := (normalizeMessage_eq_some hsys).mp hread
        obtain ⟨hquiet, hagain⟩ := hcomplete.silence
        cases h
        have hsilent := length_silence bytes
        have hdata : (((Bytes.zero maxMidiBytes).overwrite bytes).overwrite
            (silence bytes)).1 = padded (silence bytes) :=
          overwrite_padded (padded_zero hlen.2) hsilent hlen.2
        have hdecode := decode_padded sequence monotonicQpc pipeQpc hquiet hdata
        rw [hsilent, hagain] at hdecode
        rw [MidiWireFrame.encode, hdecode]
        congr 2
        refine Subtype.ext ?_
        rw [hdata, overwrite_padded hdata rfl (by omega)]

/-- The zeros behind a shorter message make no note-on of it. -/
theorem silence_padded {bytes : List UInt8} (h : Complete bytes) :
    silence (padded bytes) = padded (silence bytes) := by
  obtain ⟨status, rest, rfl, hlen, -⟩ := h
  have hnote : messageLength status ≠ some 3 → status &&& 0xF0 ≠ 0x90 :=
    forall_byte (p := fun b => messageLength b ≠ some 3 → b &&& 0xF0 ≠ 0x90) (by decide +kernel) status
  have hle := messageLength_le hlen
  rw [List.length_cons] at hle
  cases rest with
  | nil =>
    have hkeep := hnote (by simp [hlen])
    exact if_neg fun hon => hkeep hon.1
  | cons d1 rest =>
    cases rest with
    | nil =>
      have hkeep := hnote (by simp [hlen])
      exact if_neg fun hon => hkeep hon.1
    | cons d2 rest =>
      have hfull : maxMidiBytes - (status :: d1 :: d2 :: rest).length = 0 := by
        simp only [maxMidiBytes, List.length_cons]
        omega
      rw [padded, padded, length_silence, hfull]
      simp

/-- The bytes as they are written again: a note-on of velocity 0 as the
note-off. -/
def silenced (encoded : List UInt8) : List UInt8 :=
  encoded.take 25 ++ silence (encoded.drop 25)

/-- The codec: a frame of `new` is read back; a byte string is read exactly
when it holds a complete message, its length and zeros; and what is read is
written back as it was, but for the note-offs, and read the same again. -/
theorem midi_wire_frame :
    (∀ sequence monotonicQpc bytes f, new sequence monotonicQpc bytes = some f →
      ∀ generation pipeQpc, decode { f with generation, pipeQpc }.encode =
        .ok { f with generation := 0, pipeQpc }) ∧
    (∀ encoded : Bytes midiFrameBytes, (∃ f, decode encoded = .ok f) ↔
      ∃ bytes, Complete bytes ∧
        encoded.1.drop 24 = UInt8.ofNat bytes.length :: padded bytes) ∧
    ∀ (encoded : Bytes midiFrameBytes) f, decode encoded = .ok f →
      f.encode.1 = silenced encoded.1 ∧ decode f.encode = .ok f := by
  refine ⟨fun _ _ _ _ h generation pipeQpc => decode_encode h generation pipeQpc, ?_, ?_⟩
  · intro encoded
    obtain ⟨s, q, p, len, data, rfl⟩ := exists_pack encoded
    rw [drop_pack]
    constructor
    · rintro ⟨f, h⟩
      obtain ⟨bytes, hcomplete, hlen, hdata⟩ := padded_of_decode h
      exact ⟨bytes, hcomplete, by rw [hlen, hdata]⟩
    · rintro ⟨bytes, hcomplete, heq⟩
      obtain ⟨rfl, hdata⟩ := List.cons.inj heq
      exact ⟨_, decode_padded s q p hcomplete hdata⟩
  · intro encoded f h
    obtain ⟨s, q, p, len, data, rfl⟩ := exists_pack encoded
    obtain ⟨bytes, hcomplete, rfl, hdata⟩ := padded_of_decode h
    have hle : bytes.length ≤ maxMidiBytes := hcomplete.length_le.2
    have hsilent := length_silence bytes
    obtain ⟨hquiet, hagain⟩ := hcomplete.silence
    rw [decode_padded s q p hcomplete hdata] at h
    cases h
    have hover := overwrite_padded hdata hsilent hle
    constructor
    · have hfields : (pack s q p (UInt8.ofNat bytes.length) data).1.drop 25 = data.1 := by
        rw [show 25 = 24 + 1 from rfl, ← List.drop_drop, drop_pack, List.drop_one, List.tail_cons]
      rw [silenced, hfields, hdata, silence_padded hcomplete, ← hover]
      rfl
    · have hread := decode_padded s q p hquiet hover
      rw [hsilent, hagain] at hread
      rw [MidiWireFrame.encode, hread]
      congr 2
      refine Subtype.ext ?_
      rw [hover, overwrite_padded hover rfl (by omega)]

/-- `[0x91, 60, 0]` becomes `[0x81, 60, 0]`, in the frame and behind the pipe. -/
theorem midi_wire_frame_note_off :
    ∃ f, new 7 9 [0x91, 60, 0] = some f ∧ f.data.1 = [0x81, 60, 0] ∧
      decode { f with pipeQpc := 11 }.encode = .ok { f with generation := 0, pipeQpc := 11 } :=
  ⟨⟨0, 0, 7, 9, 3, ⟨[0x81, 60, 0], rfl⟩⟩, rfl, rfl,
    midi_wire_frame.1 7 9 [0x91, 60, 0] _ rfl 0 11⟩

end RtpOscMidi.L1.WireFrame
