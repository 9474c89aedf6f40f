import RtpOscMidi.Core.Parser
import RtpOscMidi.Core.Binary32

/-!
# The saved state of a plugin

`encode_state_document` writes a document as a checksummed envelope and
`decode_document` reads one back; the two are written apart. The CRC is a
parameter, the older FNV-1a checksum is as in the source. An `f32` is its
bit pattern.

* `bodyReader_recognizes`: the reader takes from a version-3 body exactly
  the documents within its limits, as the writer writes them.
* `decode_encode`: what is written is read back exactly for those.
* `encode_decode`: an accepted envelope is what its document is written as,
  up to the checksum.
-/
namespace RtpOscMidi.L1.StateCodec

open Core Core.Binary32

def stateMagic : List UInt8 := [0x4F, 0x53, 0x56, 0x53]
def stateVersionV2 : UInt8 := 2
def stateVersionV3 : UInt8 := 3
def maxStateBytes : Nat := 256 * 1024 * 1024
def maxParameters : Nat := 65536
def maxTextBytes : Nat := 64 * 1024
def u16Max : Nat := 0xFFFF
def u32Max : Nat := 0xFFFFFFFF

/-- mirrors src-tauri/src/audio/state_codec.rs:38-45 -/
inductive StatePolicy where
  | nativePreferred | trackedParametersOnly | stateUnsupported | legacyFullSnapshot
  deriving DecidableEq, Repr

/-- The discriminants of src-tauri/src/audio/state_codec.rs:38-45. -/
def StatePolicy.toU16 : StatePolicy → UInt16
  | .nativePreferred => 0
  | .trackedParametersOnly => 1
  | .stateUnsupported => 2
  | .legacyFullSnapshot => 3

/-- mirrors src-tauri/src/audio/state_codec.rs:48-56 -/
def StatePolicy.fromU16 (value : UInt16) : Option StatePolicy :=
  if value = 0 then some .nativePreferred
  else if value = 1 then some .trackedParametersOnly
  else if value = 2 then some .stateUnsupported
  else if value = 3 then some .legacyFullSnapshot
  else none

/-- mirrors src-tauri/src/audio/state_codec.rs:69-75; `value` is the bit pattern -/
structure StateParameter where
  id : UInt32
  index : UInt32
  flags : UInt32
  name : String
  value : UInt32
  deriving DecidableEq

/-- mirrors src-tauri/src/audio/state_codec.rs:78-92 -/
structure StateDocument where
  stateVersion : UInt8
  statePolicy : StatePolicy
  pluginId : String
  classUid : String
  format : UInt8
  architecture : UInt8
  fileModifiedMs : UInt64
  fileSize : UInt64
  program : Int32
  vst2Bank : List UInt8
  vst2Preset : List UInt8
  vst3State : List UInt8
  parameters : List StateParameter
  deriving DecidableEq

/-- `str::as_bytes`. -/
def asBytes (s : String) : List UInt8 := s.toUTF8.data.toList

/-- `String::from_utf8`. -/
def fromUtf8 (bs : List UInt8) : Option String := String.fromUTF8? ⟨bs.toArray⟩

/-- mirrors src-tauri/src/audio/state_codec.rs:165-172 -/
def fnv1a64 (bytes : List UInt8) : UInt64 :=
  bytes.foldl (fun hash byte => (hash ^^^ byte.toUInt64) * 0x100000001b3) 0xcbf29ce484222325

/-! ## The writer -/

/-- mirrors src-tauri/src/audio/state_codec.rs:209-212 -/
def pushBlob (value : List UInt8) : List UInt8 := le 4 (min value.length u32Max) ++ value

/-- mirrors src-tauri/src/audio/state_codec.rs:214-216 -/
def pushText (value : String) : List UInt8 := pushBlob (asBytes value)

/-- mirrors src-tauri/src/audio/state_codec.rs:235-243,254-256 -/
def encodeParameter (parameter : StateParameter) : List UInt8 :=
  let name := asBytes parameter.name
  le 4 parameter.id.toNat ++ le 4 parameter.index.toNat ++ le 4 parameter.flags.toNat ++
    le 4 parameter.value.toNat ++ le 2 (min name.length u16Max) ++ name.take (min name.length u16Max)

/-- mirrors src-tauri/src/audio/state_codec.rs:219-243 -/
def encodeBody (document : StateDocument) : List UInt8 :=
  [document.format] ++ ([document.architecture] ++ (le 2 document.statePolicy.toU16.toNat ++
    (le 8 document.fileModifiedMs.toNat ++ (le 8 document.fileSize.toNat ++
    (le 4 document.program.toUInt32.toNat ++ (pushText document.pluginId ++
    (pushText document.classUid ++ (pushBlob document.vst2Bank ++ (pushBlob document.vst2Preset ++
    (pushBlob document.vst3State ++ (le 4 (min document.parameters.length u32Max) ++
    document.parameters.flatMap encodeParameter)))))))))))

/-- mirrors src-tauri/src/audio/state_codec.rs:245-252 -/
def encodeStateDocument (crc : List UInt8 → UInt32) (document : StateDocument) : List UInt8 :=
  let body := encodeBody document
  stateMagic ++ ([stateVersionV3] ++ (le 4 (min body.length u32Max) ++
    (body ++ le 8 (crc body).toNat)))

/-! ## The reader -/

namespace StateReader

def u8 : Parser UInt8 := do
  let bytes ← Parser.take 1
  Parser.lift bytes.head?

def u16 : Parser UInt16 := do
  let bytes ← Parser.take 2
  return UInt16.ofNat (ofLE bytes)

/-- Also `f32`, read as its bit pattern. -/
def u32 : Parser UInt32 := do
  let bytes ← Parser.take 4
  return UInt32.ofNat (ofLE bytes)

def u64 : Parser UInt64 := do
  let bytes ← Parser.take 8
  return UInt64.ofNat (ofLE bytes)

def i32 : Parser Int32 := do
  let bytes ← Parser.take 4
  return (UInt32.ofNat (ofLE bytes)).toInt32

/-- mirrors src-tauri/src/audio/state_codec.rs:299-303 -/
def blob (limit : Nat) : Parser (List UInt8) := do
  let len ← u32
  Parser.guard (len.toNat ≤ limit)
  Parser.take len.toNat

/-- mirrors src-tauri/src/audio/state_codec.rs:305-307 -/
def text : Parser String := do
  let bytes ← blob maxTextBytes
  Parser.lift (fromUtf8 bytes)

end StateReader

open StateReader

/-- mirrors src-tauri/src/audio/state_codec.rs:357-372 -/
def readParameter : Parser StateParameter := do
  let id ← u32
  let index ← u32
  let flags ← u32
  let value ← u32
  Parser.guard (isFinite value)
  let nameLen ← u16
  let bytes ← Parser.take nameLen.toNat
  let name ← Parser.lift (fromUtf8 bytes)
  return ⟨id, index, flags, name, value⟩

/-- mirrors src-tauri/src/audio/state_codec.rs:335-391 -/
def readBody (stateVersion : UInt8) : Parser StateDocument := do
  let format ← u8
  let architecture ← u8
  let encodedPolicy ← u16
  let statePolicy ← Parser.lift
    (if stateVersion = stateVersionV2 then some .legacyFullSnapshot
      else StatePolicy.fromU16 encodedPolicy)
  let fileModifiedMs ← u64
  let fileSize ← u64
  let program ← i32
  let pluginId ← text
  let classUid ← text
  let vst2Bank ← blob maxStateBytes
  let vst2Preset ← blob maxStateBytes
  let vst3State ← blob maxStateBytes
  let parameterCount ← u32
  Parser.guard (parameterCount.toNat ≤ maxParameters)
  let parameters ← readParameter.times parameterCount.toNat
  return ⟨stateVersion, statePolicy, pluginId, classUid, format, architecture, fileModifiedMs,
    fileSize, program, vst2Bank, vst2Preset, vst3State, parameters⟩

/-- mirrors src-tauri/src/audio/state_codec.rs:310-392 -/
def decodeDocument (crc : List UInt8 → UInt32) (data : List UInt8) : Option StateDocument :=
  match data.drop 4 with
  | [] => none
  | stateVersion :: rest =>
    if data.length < 17 ∨ data.take 4 ≠ stateMagic ∨
        ¬(stateVersion = stateVersionV2 ∨ stateVersion = stateVersionV3) then none
    else
      let bodyLen := ofLE (rest.take 4)
      if maxStateBytes < bodyLen ∨ data.length ≠ 9 + bodyLen + 8 then none
      else
        let body := (data.drop 9).take bodyLen
        let checksum := ofLE (data.drop (9 + bodyLen))
        let checksumMatches :=
          if stateVersion = stateVersionV2 then (fnv1a64 body).toNat == checksum
          else (crc body).toNat == checksum || (fnv1a64 body).toNat == checksum
        if checksumMatches then
          match readBody stateVersion body with
          | some (document, []) => some document
          | _ => none
        else none

/-! ## What the reader takes -/

theorem fromUtf8_eq_some {bytes : List UInt8} {s : String} :
    fromUtf8 bytes = some s ↔ bytes = asBytes s := by
  unfold fromUtf8 String.fromUTF8? asBytes
  constructor
  · intro h
    split at h
    · cases h
      rfl
    · cases h
  · intro h
    subst h
    exact dif_pos s.isValidUTF8

theorem fromU16_eq_some {value : UInt16} {policy : StatePolicy} :
    StatePolicy.fromU16 value = some policy ↔ value = policy.toU16 := by
  constructor
  · intro h
    unfold StatePolicy.fromU16 at h
    repeat' split at h
    all_goals first | cases h; assumption | cases h
  · intro h
    subst h
    cases policy <;> rfl

theorem u8_recognizes : Recognizes u8 fun bs a => bs = [a] := by
  refine (Recognizes.bind (.take 1) fun bytes => .lift bytes.head?).congr fun bs a => ?_
  constructor
  · intro ⟨bytes, left, right, hb, ⟨hl, hlen⟩, hr, hh⟩
    match bytes, hlen, hh with
    | [b], _, hh => subst hl hr hb; cases hh; rfl
  · intro h
    exact ⟨[a], [a], [], h, ⟨rfl, rfl⟩, rfl, rfl⟩

/-- A fixed-width number read from `k` bytes. -/
theorem number_recognizes {α : Type} {k : Nat} {read : List UInt8 → α} {write : α → Nat}
    (hread : ∀ a, read (le k (write a)) = a)
    (hwrite : ∀ bytes, bytes.length = k → write (read bytes) = ofLE bytes) :
    Recognizes (do let bytes ← Parser.take k; return read bytes) fun bs a => bs = le k (write a) := by
  refine (Recognizes.bind (.take k) fun bytes => .pure (read bytes)).congr fun bs a => ?_
  constructor
  · intro ⟨bytes, left, right, hb, ⟨hl, hlen⟩, hr, ha⟩
    subst ha hl hr hb
    rw [hwrite _ hlen, List.append_nil, ← hlen, le_ofLE]
  · intro h
    exact ⟨_, _, [], (List.append_nil _).symm ▸ h, ⟨rfl, length_le ..⟩, rfl, (hread a).symm⟩

theorem ofLE_lt_of_length {bytes : List UInt8} {k : Nat} (h : bytes.length = k) :
    ofLE bytes < 256 ^ k := h ▸ ofLE_lt bytes

theorem u16_recognizes : Recognizes u16 fun bs a => bs = le 2 a.toNat := by
  refine number_recognizes (fun a => ?_) fun bytes h => ?_
  · rw [ofLE_le a.toNat_lt, UInt16.ofNat_toNat]
  · exact UInt16.toNat_ofNat_of_lt' (ofLE_lt_of_length h)

theorem u32_recognizes : Recognizes u32 fun bs a => bs = le 4 a.toNat := by
  refine number_recognizes (fun a => ?_) fun bytes h => ?_
  · rw [ofLE_le a.toNat_lt, UInt32.ofNat_toNat]
  · exact UInt32.toNat_ofNat_of_lt' (ofLE_lt_of_length h)

theorem u64_recognizes : Recognizes u64 fun bs a => bs = le 8 a.toNat := by
  refine number_recognizes (fun a => ?_) fun bytes h => ?_
  · rw [ofLE_le a.toNat_lt, UInt64.ofNat_toNat]
  · exact UInt64.toNat_ofNat_of_lt' (ofLE_lt_of_length h)

theorem i32_recognizes : Recognizes i32 fun bs a => bs = le 4 a.toUInt32.toNat := by
  refine number_recognizes (fun a => ?_) fun bytes h => ?_
  · rw [ofLE_le a.toUInt32.toNat_lt, UInt32.ofNat_toNat]
    rfl
  · show (UInt32.ofNat (ofLE bytes)).toNat = _
    exact UInt32.toNat_ofNat_of_lt' (ofLE_lt_of_length h)

theorem blob_recognizes {limit : Nat} (hl : limit ≤ u32Max) :
    Recognizes (blob limit) fun bs a => bs = pushBlob a ∧ a.length ≤ limit := by
  refine (Recognizes.bind u32_recognizes fun len =>
    .bind (.guard (len.toNat ≤ limit)) fun _ => .take len.toNat).congr fun bs a => ?_
  constructor
  · intro ⟨len, left, right, hb, hlen, _, left', right', hr, ⟨hl', hle⟩, hr', ha⟩
    subst hr' hl' hr hlen hb
    rw [← ha] at hle ⊢
    exact ⟨by rw [pushBlob, Nat.min_eq_left (by omega)], hle⟩
  · intro ⟨hb, hle⟩
    have hlen : (UInt32.ofNat a.length).toNat = a.length :=
      UInt32.toNat_ofNat_of_lt' (Nat.lt_succ_of_le (Nat.le_trans hle hl))
    refine ⟨UInt32.ofNat a.length, le 4 a.length, a, ?_, by rw [hlen], (), [], a, rfl,
      ⟨rfl, by rw [hlen]; exact hle⟩, rfl, hlen.symm⟩
    rw [hb, pushBlob, Nat.min_eq_left (by omega)]

theorem text_recognizes :
    Recognizes text fun bs s => bs = pushText s ∧ (asBytes s).length ≤ maxTextBytes := by
  refine (Recognizes.bind (blob_recognizes (by decide)) fun bytes => .lift (fromUtf8 bytes)).congr
    fun bs s => ?_
  constructor
  · intro ⟨bytes, left, right, hb, ⟨hl, hle⟩, hr, hs⟩
    have hs := fromUtf8_eq_some.mp hs
    subst hs hr hl hb
    exact ⟨List.append_nil _, hle⟩
  · intro ⟨hb, hle⟩
    exact ⟨asBytes s, pushText s, [], by rw [hb, List.append_nil], ⟨rfl, hle⟩, rfl,
      fromUtf8_eq_some.mpr rfl⟩

/-- The reader takes the parameter: its value is finite and its name fits. -/
def StateParameter.Within (parameter : StateParameter) : Prop :=
  isFinite parameter.value = true ∧ (asBytes parameter.name).length ≤ u16Max

instance (parameter : StateParameter) : Decidable parameter.Within :=
  inferInstanceAs (Decidable (_ ∧ _))

theorem readParameter_recognizes :
    Recognizes readParameter fun bs a => bs = encodeParameter a ∧ a.Within := by
  have hsteps := Recognizes.bind u32_recognizes fun id => .bind u32_recognizes fun index =>
    .bind u32_recognizes fun flags => .bind u32_recognizes fun value =>
    .bind (.guard (isFinite value = true)) fun _ => .bind u16_recognizes fun nameLen =>
    .bind (.take nameLen.toNat) fun bytes => .bind (.lift (fromUtf8 bytes)) fun name =>
    .pure (StateParameter.mk id index flags name value)
  refine Recognizes.congr hsteps fun bs a => ?_
  constructor
  · intro ⟨id, _, _, hb, h1, index, _, _, hb1, h2, flags, _, _, hb2, h3, value, _, _, hb3, h4,
      _, _, _, hb4, ⟨h5, hfin⟩, nameLen, _, _, hb5, h6, bytes, _, _, hb6, ⟨h7, hlen⟩,
      name, _, _, hb7, ⟨h8, hname⟩, h9, ha⟩
    have hname := fromUtf8_eq_some.mp hname
    subst ha h9 h8 hb7 hname h7 hb6 h6 hb5 h5 hb4 h4 hb3 h3 hb2 h2 hb1 h1 hb
    have hle : (asBytes name).length ≤ u16Max := by
      have := nameLen.toNat_lt
      rw [hlen, u16Max]
      omega
    refine ⟨?_, hfin, hle⟩
    simp only [encodeParameter, Nat.min_eq_left hle, List.take_length, ← hlen, List.append_assoc,
      List.append_nil, List.nil_append]
  · intro ⟨hb, hfin, hle⟩
    have hlen : (UInt16.ofNat (asBytes a.name).length).toNat = (asBytes a.name).length :=
      UInt16.toNat_ofNat_of_lt' (Nat.lt_succ_of_le hle)
    refine ⟨a.id, _, _, ?_, rfl, a.index, _, _, rfl, rfl, a.flags, _, _, rfl, rfl, a.value, _, _, rfl,
      rfl, (), _, _, rfl, ⟨rfl, hfin⟩, UInt16.ofNat (asBytes a.name).length, _, _, rfl, rfl,
      asBytes a.name, _, _, rfl, ⟨rfl, hlen.symm⟩, a.name, _, _, rfl,
      ⟨rfl, fromUtf8_eq_some.mpr rfl⟩, rfl, rfl⟩
    rw [hb, hlen]
    simp [encodeParameter, Nat.min_eq_left hle]

/-- The limits the reader checks, those on the whole body apart. -/
structure StateDocument.Readable (document : StateDocument) : Prop where
  pluginId : (asBytes document.pluginId).length ≤ maxTextBytes
  classUid : (asBytes document.classUid).length ≤ maxTextBytes
  vst2Bank : document.vst2Bank.length ≤ maxStateBytes
  vst2Preset : document.vst2Preset.length ≤ maxStateBytes
  vst3State : document.vst3State.length ≤ maxStateBytes
  count : document.parameters.length ≤ maxParameters
  parameters : ∀ parameter ∈ document.parameters, parameter.Within

theorem bodyReader_recognizes :
    Recognizes (readBody stateVersionV3) fun bs document =>
      bs = encodeBody document ∧ document.stateVersion = stateVersionV3 ∧ document.Readable := by
  have hblob := blob_recognizes (by decide : maxStateBytes ≤ u32Max)
  have hsteps := Recognizes.bind u8_recognizes fun format => .bind u8_recognizes fun architecture =>
    .bind u16_recognizes fun encodedPolicy =>
    .bind (.lift (if stateVersionV3 = stateVersionV2 then some .legacyFullSnapshot
      else StatePolicy.fromU16 encodedPolicy)) fun statePolicy =>
    .bind u64_recognizes fun fileModifiedMs => .bind u64_recognizes fun fileSize =>
    .bind i32_recognizes fun program => .bind text_recognizes fun pluginId =>
    .bind text_recognizes fun classUid => .bind hblob fun vst2Bank => .bind hblob fun vst2Preset =>
    .bind hblob fun vst3State => .bind u32_recognizes fun parameterCount =>
    .bind (.guard (parameterCount.toNat ≤ maxParameters)) fun _ =>
    .bind (readParameter_recognizes.times parameterCount.toNat) fun parameters =>
    .pure (StateDocument.mk stateVersionV3 statePolicy pluginId classUid format architecture
      fileModifiedMs fileSize program vst2Bank vst2Preset vst3State parameters)
  refine Recognizes.congr hsteps fun bs document => ?_
  constructor
  · intro ⟨format, _, _, hb0, h0, architecture, _, _, hb1, h1, encoded, _, _, hb2, h2,
      policy, _, _, hb3, ⟨h3, hpolicy⟩, modified, _, _, hb4, h4, size, _, _, hb5, h5,
      program, _, _, hb6, h6, pluginId, _, _, hb7, ⟨h7, hplugin⟩, classUid, _, _, hb8, ⟨h8, hclass⟩,
      bank, _, _, hb9, ⟨h9, hbank⟩, preset, _, _, hb10, ⟨h10, hpreset⟩,
      state, _, _, hb11, ⟨h11, hstate⟩, count, _, _, hb12, h12, _, _, _, hb13, ⟨h13, hcount⟩,
      parameters, _, _, hb14, ⟨h14, hlen, hwithin⟩, h15, hd⟩
    rw [if_neg (by decide)] at hpolicy
    have hpolicy := fromU16_eq_some.mp hpolicy
    subst hd h15 h14 hb14 h13 hb13 h12 hb12 h11 hb11 h10 hb10 h9 hb9 h8 hb8 h7 hb7 h6 hb6 h5 hb5
      h4 hb4 h3 hb3 hpolicy h2 hb2 h1 hb1 h0 hb0
    have hmin : min count.toNat u32Max = count.toNat :=
      Nat.min_eq_left (Nat.le_trans hcount (by decide))
    refine ⟨?_, rfl, ⟨hplugin, hclass, hbank, hpreset, hstate, hlen ▸ hcount, hwithin⟩⟩
    simp only [encodeBody, hlen, hmin, List.append_nil, List.nil_append]
  · intro ⟨hb, hversion, hd⟩
    have hmin : min document.parameters.length u32Max = document.parameters.length :=
      Nat.min_eq_left (Nat.le_trans hd.count (by decide))
    have hcount : (UInt32.ofNat document.parameters.length).toNat = document.parameters.length :=
      UInt32.toNat_ofNat_of_lt' (Nat.lt_succ_of_le (Nat.le_trans hd.count (by decide)))
    refine ⟨document.format, _, _, ?_, rfl, document.architecture, _, _, rfl, rfl,
      document.statePolicy.toU16, _, _, rfl, rfl, document.statePolicy, _, _, rfl,
      ⟨rfl, (if_neg (by decide)).trans (fromU16_eq_some.mpr rfl)⟩, document.fileModifiedMs, _, _, rfl,
      rfl, document.fileSize, _, _, rfl, rfl, document.program, _, _, rfl, rfl,
      document.pluginId, _, _, rfl, ⟨rfl, hd.pluginId⟩, document.classUid, _, _, rfl,
      ⟨rfl, hd.classUid⟩, document.vst2Bank, _, _, rfl, ⟨rfl, hd.vst2Bank⟩,
      document.vst2Preset, _, _, rfl, ⟨rfl, hd.vst2Preset⟩, document.vst3State, _, _, rfl,
      ⟨rfl, hd.vst3State⟩, UInt32.ofNat document.parameters.length, _, _, rfl, rfl, (), _, _, rfl,
      ⟨rfl, Nat.le_trans (Nat.le_of_eq hcount) hd.count⟩, document.parameters, _, _, rfl,
      ⟨rfl, hcount.symm, hd.parameters⟩,
      rfl, ?_⟩
    · rw [hb, encodeBody, hmin, hcount]
      simp
    · rw [← hversion]

/-! ## The envelope -/

/-- A version-3 envelope, whatever its checksum. -/
def envelope (checksum : Nat) (body : List UInt8) : List UInt8 :=
  stateMagic ++ ([stateVersionV3] ++ (le 4 body.length ++ (body ++ le 8 checksum)))

theorem length_envelope (checksum : Nat) (body : List UInt8) :
    (envelope checksum body).length = 9 + body.length + 8 := by
  simp only [envelope, List.length_append, length_le, stateMagic, List.length_cons, List.length_nil]
  omega

theorem readBody_eq_some {body : List UInt8} {document : StateDocument} :
    readBody stateVersionV3 body = some (document, []) ↔
      body = encodeBody document ∧ document.stateVersion = stateVersionV3 ∧ document.Readable := by
  rw [bodyReader_recognizes body document []]
  simp

theorem decode_envelope (crc : List UInt8 → UInt32) {body : List UInt8} {checksum : Nat}
    (hbody : body.length ≤ maxStateBytes) (hcheck : checksum < 256 ^ 8)
    (document : StateDocument) :
    decodeDocument crc (envelope checksum body) = some document ↔
      ((crc body).toNat = checksum ∨ (fnv1a64 body).toNat = checksum) ∧
        body = encodeBody document ∧ document.stateVersion = stateVersionV3 ∧
        document.Readable := by
  have hlen : ofLE (le 4 body.length) = body.length :=
    ofLE_le (Nat.lt_of_le_of_lt hbody (by decide))
  have h4 : (envelope checksum body).drop 4 =
      stateVersionV3 :: (le 4 body.length ++ (body ++ le 8 checksum)) := rfl
  have h9 : (envelope checksum body).drop 9 = body ++ le 8 checksum := by
    show (le 4 body.length ++ (body ++ le 8 checksum)).drop 4 = _
    rw [List.drop_append_of_le_length (by simp), List.drop_of_length_le (by simp), List.nil_append]
  have hbytes : (le 4 body.length ++ (body ++ le 8 checksum)).take 4 = le 4 body.length := by
    rw [List.take_append_of_le_length (by simp), List.take_of_length_le (by simp)]
  have hsum : (envelope checksum body).drop (9 + body.length) = le 8 checksum := by
    rw [← List.drop_drop, h9, List.drop_left]
  have hsmall : ¬((envelope checksum body).length < 17 ∨
      (envelope checksum body).take 4 ≠ stateMagic ∨
      ¬(stateVersionV3 = stateVersionV2 ∨ stateVersionV3 = stateVersionV3)) := by
    rw [length_envelope]
    simp [envelope, stateMagic]
  have hfits : ¬(maxStateBytes < body.length ∨
      (envelope checksum body).length ≠ 9 + body.length + 8) := by
    rw [length_envelope]; omega
  have hv3 : ¬stateVersionV3 = stateVersionV2 := by decide
  have hread : (match readBody stateVersionV3 body with
      | some (document, []) => some document
      | _ => none) = some document ↔ readBody stateVersionV3 body = some (document, []) := by
    cases hr : readBody stateVersionV3 body with
    | none => simp
    | some r => obtain ⟨d, _ | _⟩ := r <;> simp
  unfold decodeDocument
  rw [h4]
  dsimp only
  rw [if_neg hsmall, hbytes, hlen, if_neg hfits, h9, List.take_left, hsum, ofLE_le hcheck,
    if_neg hv3, ← readBody_eq_some, ← hread]
  by_cases hc : (crc body).toNat = checksum ∨ (fnv1a64 body).toNat = checksum
  · rw [if_pos (by simpa using hc)]
    exact (and_iff_right hc).symm
  · rw [if_neg (by simpa using hc)]
    simp [hc]

/-- What is accepted with version 3 is an envelope within the bound. -/
theorem envelope_of_decode {crc : List UInt8 → UInt32} {data : List UInt8}
    {document : StateDocument} (h : decodeDocument crc data = some document)
    (hv : (data.drop 4).head? = some stateVersionV3) :
    ∃ body checksum, data = envelope checksum body ∧ body.length ≤ maxStateBytes ∧
      checksum < 256 ^ 8 := by
  unfold decodeDocument at h
  split at h
  · cases h
  next version rest hrest =>
  obtain rfl : version = stateVersionV3 := by
    rw [hrest] at hv
    exact Option.some.inj hv
  split at h
  · cases h
  next hhead =>
  dsimp only at h
  split at h
  · cases h
  next hlen =>
  simp only [not_or, ne_eq, Decidable.not_not, Nat.not_lt] at hhead hlen
  have hdata : data = stateMagic ++ (stateVersionV3 :: rest) := by
    rw [← hhead.2.1, ← hrest, List.take_append_drop]
  have hrestlen : rest.length = data.length - 5 := by
    have := congrArg List.length hdata
    simp only [List.length_append, stateMagic, List.length_cons, List.length_nil] at this
    omega
  have h4 : (rest.take 4).length = 4 := by rw [List.length_take]; omega
  generalize hsize : rest.take 4 = size at h4 hlen
  have htail : rest = size ++ rest.drop 4 := by rw [← hsize, List.take_append_drop]
  have hbody : ((rest.drop 4).take (ofLE size)).length = ofLE size := by
    rw [List.length_take, List.length_drop]; omega
  have hsum : ((rest.drop 4).drop (ofLE size)).length = 8 := by
    rw [List.length_drop, List.length_drop]; omega
  refine ⟨(rest.drop 4).take (ofLE size), ofLE ((rest.drop 4).drop (ofLE size)), ?_,
    Nat.le_trans (Nat.le_of_eq hbody) hlen.1, ofLE_lt_of_length hsum⟩
  have hsize' : le 4 (ofLE size) = size := h4 ▸ le_ofLE size
  have hsum' : le 8 (ofLE ((rest.drop 4).drop (ofLE size))) = (rest.drop 4).drop (ofLE size) :=
    hsum ▸ le_ofLE _
  rw [envelope, hbody, hsize', hsum', List.take_append_drop, ← htail]
  exact hdata

/-! ## Round trips -/

/-- The documents that survive: what the reader accepts of a version-3 body. -/
structure StateDocument.Within (document : StateDocument) : Prop where
  version : document.stateVersion = stateVersionV3
  readable : document.Readable
  body : (encodeBody document).length ≤ maxStateBytes

theorem encode_eq_envelope (crc : List UInt8 → UInt32) {document : StateDocument}
    (h : (encodeBody document).length ≤ maxStateBytes) :
    encodeStateDocument crc document =
      envelope (crc (encodeBody document)).toNat (encodeBody document) := by
  have hmin := Nat.min_eq_left (Nat.le_trans h (by decide : maxStateBytes ≤ u32Max))
  simp only [encodeStateDocument, envelope, hmin]

theorem crc_lt (crc : List UInt8 → UInt32) (body : List UInt8) : (crc body).toNat < 256 ^ 8 :=
  Nat.lt_trans (crc body).toNat_lt (by decide)

/-- A body over the bound is never read back. -/
theorem decode_encode_large (crc : List UInt8 → UInt32) {document : StateDocument}
    (h : maxStateBytes < (encodeBody document).length) :
    decodeDocument crc (encodeStateDocument crc document) = none := by
  generalize hn : min (encodeBody document).length u32Max = n
  have hlt : n < 256 ^ 4 := hn ▸ Nat.lt_of_le_of_lt (Nat.min_le_right ..) (by decide)
  have hlarge : maxStateBytes < n := hn ▸ Nat.lt_min.mpr ⟨h, by decide⟩
  have h4 : (encodeStateDocument crc document).drop 4 =
      stateVersionV3 :: (le 4 n ++ (encodeBody document ++ le 8 (crc (encodeBody document)).toNat)) := by
    simp only [encodeStateDocument, hn]
    rfl
  have hbytes (tail : List UInt8) : (le 4 n ++ tail).take 4 = le 4 n := by
    rw [List.take_append_of_le_length (by simp), List.take_of_length_le (by simp)]
  unfold decodeDocument
  rw [h4]
  dsimp only
  split
  · rfl
  · rw [hbytes, ofLE_le hlt, if_pos (.inl hlarge)]

/-- What is written is read back exactly when it is within the reader's limits. -/
theorem decode_encode (crc : List UInt8 → UInt32) (document : StateDocument) :
    decodeDocument crc (encodeStateDocument crc document) = some document ↔ document.Within := by
  by_cases hb : (encodeBody document).length ≤ maxStateBytes
  · rw [encode_eq_envelope crc hb, decode_envelope crc hb (crc_lt ..)]
    constructor
    · intro ⟨_, _, hv, hr⟩; exact ⟨hv, hr, hb⟩
    · intro hw; exact ⟨.inl rfl, rfl, hw.version, hw.readable⟩
  · rw [decode_encode_large crc (Nat.lt_of_not_le hb)]
    constructor
    · intro h; cases h
    · intro hw; exact absurd hw.body hb

/-- An accepted version-3 envelope is what its document is written as, its
checksum replaced by the CRC. -/
theorem encode_decode (crc : List UInt8 → UInt32) {body : List UInt8} {checksum : Nat}
    (hbody : body.length ≤ maxStateBytes) (hcheck : checksum < 256 ^ 8) {document : StateDocument}
    (h : decodeDocument crc (envelope checksum body) = some document) :
    encodeStateDocument crc document = envelope (crc body).toNat body := by
  obtain ⟨-, rfl, -, -⟩ := (decode_envelope crc hbody hcheck document).mp h
  exact encode_eq_envelope crc hbody

/-- The two halves agree: the reader gives back exactly the documents within
its limits, and writing what was read from a version-3 envelope gives the
envelope back with the CRC as its checksum. -/
theorem state_round_trip (crc : List UInt8 → UInt32) :
    (∀ document, decodeDocument crc (encodeStateDocument crc document) = some document ↔
      document.Within) ∧
    ∀ data document, decodeDocument crc data = some document →
      (data.drop 4).head? = some stateVersionV3 →
      ∃ body checksum, data = envelope checksum body ∧
        (checksum = (crc body).toNat ∨ checksum = (fnv1a64 body).toNat) ∧
        encodeStateDocument crc document = envelope (crc body).toNat body ∧
        (encodeStateDocument crc document = data ↔ checksum = (crc body).toNat) := by
  refine ⟨decode_encode crc, fun data document h hv => ?_⟩
  obtain ⟨body, checksum, rfl, hbody, hcheck⟩ := envelope_of_decode h hv
  have hencode := encode_decode crc hbody hcheck h
  have hsum := ((decode_envelope crc hbody hcheck document).mp h).1
  refine ⟨body, checksum, rfl, hsum.imp Eq.symm Eq.symm, hencode, ?_⟩
  rw [hencode]
  constructor
  · intro he
    have htail : le 8 (crc body).toNat = le 8 checksum := by
      simpa only [envelope, List.append_cancel_left_eq] using he
    rw [← ofLE_le hcheck, ← htail, ofLE_le (crc_lt crc body)]
  · intro he
    rw [he]

def emptyDocument (stateVersion : UInt8) : StateDocument :=
  ⟨stateVersion, .nativePreferred, "", "", 3, 2, 0, 0, -1, [], [], [], []⟩

theorem emptyDocument_readable (stateVersion : UInt8) :
    (emptyDocument stateVersion).Readable ∧
      (encodeBody (emptyDocument stateVersion)).length ≤ maxStateBytes := by
  refine ⟨⟨?_, ?_, Nat.zero_le _, Nat.zero_le _, Nat.zero_le _, Nat.zero_le _, ?_⟩, ?_⟩
  · exact Nat.zero_le _
  · exact Nat.zero_le _
  · intro parameter h
    cases h
  · show (encodeBody (emptyDocument 0)).length ≤ maxStateBytes
    decide

/-- A piano with a bank, a class state and two of its parameters. -/
def piano : StateDocument :=
  ⟨3, .nativePreferred, "Grand Piano", "5653547069616E6F", 3, 2, 1700000000000, 4096, -1,
    [1, 2, 3], [], [0xFF, 0],
    [⟨7, 0, 1, "Gain", 0x3F000000⟩, ⟨9, 1, 0, "Résonance", 0xBF800000⟩]⟩

theorem piano_within : piano.Within where
  version := rfl
  readable := by
    refine ⟨?_, ?_, ?_, ?_, ?_, ?_, ?_⟩
    all_goals decide +kernel
  body := by decide +kernel

/-- The piano comes back, and is written again as it was. -/
theorem piano_round_trip :
    decodeDocument (fun _ => 7) (encodeStateDocument (fun _ => 7) piano) = some piano ∧
      ∃ body, encodeStateDocument (fun _ => 7) piano = envelope 7 body := by
  have hback := ((state_round_trip fun _ => 7).1 piano).mpr piano_within
  obtain ⟨body, -, -, -, henvelope, -⟩ := (state_round_trip fun _ => 7).2 _ _ hback rfl
  exact ⟨hback, body, henvelope⟩

/-- A document that keeps all limits but not the version is written and not
given back, and an envelope with the older checksum is accepted and not
written again as it was. -/
theorem older_documents_change :
    ((emptyDocument 2).Readable ∧ (encodeBody (emptyDocument 2)).length ≤ maxStateBytes ∧
      decodeDocument (fun _ => 7) (encodeStateDocument (fun _ => 7) (emptyDocument 2)) ≠
        some (emptyDocument 2)) ∧
    ∃ data document, decodeDocument (fun _ => 7) data = some document ∧
      (data.drop 4).head? = some stateVersionV3 ∧
      encodeStateDocument (fun _ => 7) document ≠ data := by
  obtain ⟨hread, hbody⟩ := emptyDocument_readable 2
  refine ⟨⟨hread, hbody, fun h => ?_⟩, envelope (fnv1a64 (encodeBody (emptyDocument 3))).toNat
    (encodeBody (emptyDocument 3)), emptyDocument 3, ?_, rfl, ?_⟩
  · cases ((decode_encode _ _).mp h).version
  · exact (decode_envelope _ (emptyDocument_readable 3).2
      (UInt64.toNat_lt _) _).mpr
      ⟨.inr rfl, rfl, rfl, (emptyDocument_readable 3).1⟩
  · rw [encode_eq_envelope _ (emptyDocument_readable 3).2]
    decide +kernel

end RtpOscMidi.L1.StateCodec
