import Mathlib

/-!
# MIDI messages

The byte tests of the router: which messages are well formed, which ones
release something, which channel they are for. `effect` says what a message
does to the notes and pedals of an instrument that hears it; the tables the
router keeps of what is held are compared with it.
-/
namespace RtpOscMidi.L1.MidiMessage

/-- mirrors src-tauri/src/midi.rs:173-180, without its time stamp -/
structure MidiFrame where
  generation : Nat
  source : String
  data : List UInt8
  deriving DecidableEq, Repr

/-- mirrors src-tauri/src/midi.rs:18 -/
def holdPedals : Fin 3 → UInt8 := ![64, 66, 69]

/-- mirrors src-tauri/src/midi.rs:330-343 -/
def isCriticalReleaseMessage (data : List UInt8) : Bool :=
  if data = [0xFF] then true
  else match data with
    | status :: d1 :: d2 :: _ =>
      let status := status &&& 0xF0
      status == 0x80 || (status == 0x90 && d2 == 0) ||
        (status == 0xB0 &&
          (((d1 == 64 || d1 == 66 || d1 == 69) && d2 < 64) ||
            (d1 == 120 || d1 == 121 || (123 ≤ d1 && d1 ≤ 127))))
    | _ => false

/-- The length a status byte asks for; `none`: no such message, or one of
any length.
mirrors src-tauri/src/midi.rs:350-355 -/
def messageLength (status : UInt8) : Option Nat :=
  if (0x80 ≤ status ∧ status ≤ 0xBF) ∨ (0xE0 ≤ status ∧ status ≤ 0xEF) ∨ status = 0xF2 then some 3
  else if (0xC0 ≤ status ∧ status ≤ 0xDF) ∨ status = 0xF1 ∨ status = 0xF3 then some 2
  else if status = 0xF6 ∨ status = 0xF8 ∨ (0xFA ≤ status ∧ status ≤ 0xFC) ∨ 0xFE ≤ status then some 1
  else none

/-- `none`: the message is refused. A note-on of velocity 0 becomes a
note-off.
mirrors src-tauri/src/midi.rs:346-368 -/
def normalizeMessage (data : List UInt8) : Option (List UInt8) :=
  match data with
  | [] => none
  | status :: rest =>
    if status = 0xF0 then
      if rest.getLast? = some 0xF7 ∧ rest.dropLast.all (· < 0x80) then some data else none
    else if messageLength status ≠ some data.length ∨ rest.any (0x80 ≤ ·) then none
    else match rest with
      | [d1, d2] =>
        some (if status &&& 0xF0 = 0x90 ∧ d2 = 0 then [0x80 ||| (status &&& 0x0F), d1, d2] else data)
      | _ => some data

/-- mirrors src-tauri/src/bridge/pipeline.rs:179-183 -/
def acceptsChannel (filter : Option UInt8) (data : List UInt8) : Bool :=
  match data with
  | [] => true
  | status :: _ =>
    !(0x80 ≤ status && status < 0xF0 && filter.any fun channel => (status &&& 15) + 1 != channel)

/-- mirrors the test of src-tauri/src/bridge/processing.rs:193 -/
def isPeerReset (f : MidiFrame) : Bool :=
  "RTP:".toList.isPrefixOf f.source.toList && f.data == [0xFF]

/-! ## Notes and sustain -/

inductive MidiKind where
  | noteOn | noteOff
  deriving DecidableEq, Repr

/-- mirrors src-tauri/src/midi.rs:271-277 -/
structure MidiNote where
  note : UInt8
  channel : UInt8
  kind : MidiKind
  index : Option Nat
  deriving DecidableEq, Repr

/-- mirrors src-tauri/src/midi.rs:279-283 -/
structure MidiSustain where
  channel : UInt8
  pressed : Bool
  deriving DecidableEq, Repr

def noteMin : UInt8 := 21
def noteMax : UInt8 := 108

/-- mirrors src-tauri/src/midi.rs:404-410 -/
def adjustNote (note : UInt8) : Option Nat :=
  if noteMin ≤ note ∧ note ≤ noteMax then some (note.toNat - noteMin.toNat + 1) else none

/-- mirrors src-tauri/src/midi.rs:285-314 -/
def parseNote (data : List UInt8) : Option MidiNote :=
  match data with
  | [status, note, velocity] =>
    if 0x80 ≤ note ∨ 0x80 ≤ velocity then none
    else if status &&& 0xF0 = 0x90 then
      some ⟨note, (status &&& 0x0F) + 1, if velocity = 0 then .noteOff else .noteOn, adjustNote note⟩
    else if status &&& 0xF0 = 0x80 then
      some ⟨note, (status &&& 0x0F) + 1, .noteOff, adjustNote note⟩
    else none
  | _ => none

/-- mirrors src-tauri/src/midi.rs:317-328 -/
def parseSustain (data : List UInt8) : Option MidiSustain :=
  match data with
  | status :: d1 :: d2 :: _ =>
    if status &&& 0xF0 ≠ 0xB0 ∨ d1 ≠ 64 then none
    else some ⟨(status &&& 0x0F) + 1, 64 ≤ d2⟩
  | _ => none

/-! ## What a message does -/

/-- Something an instrument can sound or hold down. -/
inductive Held where
  | note (channel : Fin 16) (note : Fin 128)
  | pedal (channel : Fin 16) (pedal : Fin 3)
  deriving DecidableEq, Repr

def Held.channel : Held → Fin 16
  | .note c _ => c
  | .pedal c _ => c

def channel (status : UInt8) : Fin 16 := Fin.ofNat 16 (status &&& 15).toNat

/-- `some true`: sounds or latches it; `some false`: stops or lifts it. -/
def effect (data : List UInt8) (h : Held) : Option Bool :=
  match data with
  | [status, d1, d2] =>
    if channel status ≠ h.channel ∨ 127 < d1 ∨ 127 < d2 then none
    else match h with
      | .note _ n =>
        if status &&& 0xF0 = 0x90 ∧ 0 < d2 then if d1.toNat = n then some true else none
        else if status &&& 0xF0 = 0x80 ∨ status &&& 0xF0 = 0x90 then
          if d1.toNat = n then some false else none
        else if status &&& 0xF0 = 0xB0 ∧ (d1 = 120 ∨ 123 ≤ d1) then some false
        else none
      | .pedal _ p =>
        if status &&& 0xF0 ≠ 0xB0 then none
        else if d1 = holdPedals p then some (64 ≤ d2)
        else if d1 = 121 then some false
        else none
  | _ => none

/-- What an instrument holds after a message. -/
def hear (held : Held → Bool) (data : List UInt8) (h : Held) : Bool :=
  (effect data h).getD (held h)

def releaseMessage : Held → List UInt8
  | .note c n => [0x80 ||| UInt8.ofNat c, UInt8.ofNat n, 0]
  | .pedal c p => [0xB0 ||| UInt8.ofNat c, holdPedals p, 0]

theorem forall_byte {p : UInt8 → Prop} (h : ∀ i : Fin 256, p (UInt8.ofFin i)) (b : UInt8) : p b :=
  h b.toFin

theorem noteOff_status (status : UInt8) : 0x80 ||| (status &&& 15) ≠ 0xF0 ∧
    messageLength (0x80 ||| (status &&& 15)) = some 3 ∧ (0x80 ||| (status &&& 15)) &&& 0xF0 ≠ 0x90 := by
  revert status
  exact forall_byte (by decide +kernel)

theorem normalizeMessage_idempotent {data out : List UInt8} (h : normalizeMessage data = some out) :
    normalizeMessage out = some out := by
  match data with
  | [] => cases h
  | status :: rest =>
    have hraw := h
    simp only [normalizeMessage] at h
    split at h
    · split at h
      · cases h; exact hraw
      · cases h
    next hsys =>
    split at h
    · cases h
    next hlen =>
    split at h
    · next d1 d2 =>
      split at h
      · obtain ⟨h1, h2, h3⟩ := noteOff_status status
        cases h
        simp only [not_or] at hlen
        simp only [normalizeMessage]
        rw [if_neg h1, if_neg (by simpa [h2] using hlen.2), if_neg (by simp [h3])]
      · cases h; exact hraw
    · cases h; exact hraw

theorem release_status : ∀ c : Fin 16,
    (0x80 ||| UInt8.ofNat c) &&& 0xF0 = (0x80 : UInt8) ∧ channel (0x80 ||| UInt8.ofNat c) = c ∧
    (0xB0 ||| UInt8.ofNat c) &&& 0xF0 = (0xB0 : UInt8) ∧ channel (0xB0 ||| UInt8.ofNat c) = c := by
  decide

theorem release_note : ∀ n : Fin 128, ¬127 < UInt8.ofNat n ∧ (UInt8.ofNat n).toNat = n := by decide

theorem release_pedal : ∀ p, ¬127 < holdPedals p ∧ holdPedals p ≠ 120 ∧ holdPedals p ≠ 121 ∧
    ¬123 ≤ holdPedals p := by decide

theorem holdPedals_injective : ∀ p q, holdPedals p = holdPedals q → p = q := by decide

/-- A release message releases one thing and touches nothing else. -/
theorem effect_releaseMessage (h h' : Held) :
    effect (releaseMessage h) h' = if h = h' then some false else none := by
  cases h with
  | note c n =>
    obtain ⟨hs, hc, -, -⟩ := release_status c
    obtain ⟨hle, hn⟩ := release_note n
    cases h' with
    | note c' n' =>
      by_cases hcc : c = c'
      · subst hcc
        simp [effect, releaseMessage, Held.channel, hs, hc, hle, hn, Fin.ext_iff]
      · simp [effect, releaseMessage, Held.channel, hc, hcc]
    | pedal c' p' => simp [effect, releaseMessage, Held.channel, hs, hc, hle]
  | pedal c p =>
    obtain ⟨-, -, hs, hc⟩ := release_status c
    obtain ⟨hle, h120, h121, h123⟩ := release_pedal p
    cases h' with
    | note c' n' => simp [effect, releaseMessage, Held.channel, hs, hc, hle, h120, h123]
    | pedal c' p' =>
      have hp : holdPedals p = holdPedals p' ↔ p = p' := ⟨holdPedals_injective p p', congrArg _⟩
      by_cases hcc : c = c'
      · subst hcc
        simp [effect, releaseMessage, Held.channel, hs, hc, hle, h121, hp]
      · simp [effect, releaseMessage, Held.channel, hc, hcc]

theorem hear_releaseMessage (held : Held → Bool) (h h' : Held) :
    hear held (releaseMessage h) h' = if h = h' then false else held h' := by
  rw [hear, effect_releaseMessage]
  split <;> rfl

theorem releaseMessage_injective {h h' : Held} (he : releaseMessage h = releaseMessage h') :
    h = h' := by
  have hh := effect_releaseMessage h h'
  rw [he, effect_releaseMessage h' h', if_pos rfl] at hh
  by_contra hne
  rw [if_neg hne] at hh
  cases hh

/-- Everything that releases something is critical. -/
theorem isCritical_of_effect {data : List UInt8} {h : Held} (he : effect data h = some false) :
    isCriticalReleaseMessage data = true := by
  match data with
  | [] | [_] | [_, _] | _ :: _ :: _ :: _ :: _ => simp [effect] at he
  | [status, d1, d2] =>
    simp only [effect] at he
    split at he
    · cases he
    · rename_i hle
      simp only [not_or, UInt8.not_lt] at hle
      cases h with
      | note c n =>
        simp only at he
        split at he
        · split at he <;> cases he
        · rename_i hon
          split at he
          · rename_i hs
            rcases hs with hs | hs
            · simp [isCriticalReleaseMessage, hs]
            · have h0 : d2 = 0 := by
                by_contra h0
                exact hon ⟨hs, UInt8.pos_iff_ne_zero.mpr h0⟩
              simp [isCriticalReleaseMessage, hs, h0]
          · split at he
            · rename_i hs
              rcases hs with ⟨hs, hd | hd⟩
              · simp [isCriticalReleaseMessage, hs, hd]
              · simp [isCriticalReleaseMessage, hs, hd, hle.2.1]
            · cases he
      | pedal c p =>
        simp only at he
        split at he
        · cases he
        · rename_i hs
          simp only [ne_eq, Decidable.not_not] at hs
          split at he
          · rename_i hd
            have hlt : d2 < 64 := by simpa using he
            have hp : d1 = 64 ∨ d1 = 66 ∨ d1 = 69 := by
              rw [hd]
              exact (by decide : ∀ p, holdPedals p = 64 ∨ holdPedals p = 66 ∨ holdPedals p = 69) p
            rcases hp with hp | hp | hp <;> simp [isCriticalReleaseMessage, hs, hp, hlt]
          · split at he
            · rename_i hd
              simp [isCriticalReleaseMessage, hs, hd]
            · cases he

/-- Nothing critical sounds or latches anything. -/
theorem effect_of_isCritical {data : List UInt8} (hc : isCriticalReleaseMessage data = true)
    (h : Held) : effect data h ≠ some true := by
  match data with
  | [] | [_] | [_, _] | _ :: _ :: _ :: _ :: _ => simp [effect]
  | [status, d1, d2] =>
    intro he
    simp only [effect] at he
    split at he
    · cases he
    · cases h with
      | note c n =>
        simp only at he
        split at he
        · rename_i hon
          obtain ⟨hs, hd⟩ := hon
          have hd0 : d2 ≠ 0 := UInt8.pos_iff_ne_zero.mp hd
          simp [isCriticalReleaseMessage, hs, hd0] at hc
        · split at he
          · split at he <;> cases he
          · split at he <;> cases he
      | pedal c p =>
        simp only at he
        split at he
        · cases he
        · rename_i hs
          simp only [ne_eq, Decidable.not_not] at hs
          split at he
          · rename_i hd
            have hle : 64 ≤ d2 := by simpa using he
            obtain ⟨-, h120, h121, h123⟩ := release_pedal p
            simp [isCriticalReleaseMessage, hs, hd, h120, h121, h123, UInt8.not_lt.mpr hle] at hc
          · split at he <;> cases he

theorem voice_status (status : UInt8) :
    status &&& 0xF0 = 0x80 ∨ status &&& 0xF0 = 0x90 ∨ status &&& 0xF0 = 0xB0 →
      (0x80 ≤ status ∧ status < 0xF0) ∧ status &&& 15 = UInt8.ofNat (channel status) := by
  revert status
  exact forall_byte (by decide +kernel)

theorem status_of_effect {status d1 d2 : UInt8} {h : Held} (he : effect [status, d1, d2] h ≠ none) :
    channel status = h.channel ∧
      (status &&& 0xF0 = 0x80 ∨ status &&& 0xF0 = 0x90 ∨ status &&& 0xF0 = 0xB0) := by
  by_cases hc : channel status = h.channel
  · refine ⟨hc, ?_⟩
    by_contra hs
    simp only [not_or] at hs
    cases h <;> simp [effect, hs.1, hs.2.1, hs.2.2] at he
  · simp [effect, hc] at he

/-- What a message touches lies on the message's own channel. -/
theorem acceptsChannel_of_effect {filter : Option UInt8} {data : List UInt8} {h : Held}
    (he : effect data h ≠ none) :
    acceptsChannel filter data = acceptsChannel filter (releaseMessage h) := by
  match data with
  | [] | [_] | [_, _] | _ :: _ :: _ :: _ :: _ => simp [effect] at he
  | [status, d1, d2] =>
    obtain ⟨hc, hs⟩ := status_of_effect he
    obtain ⟨⟨hlo, hhi⟩, hch⟩ := voice_status status hs
    obtain ⟨s₀, s₁, s₂, hr⟩ : ∃ s₀ s₁ s₂, releaseMessage h = [s₀, s₁, s₂] := by
      cases h <;> exact ⟨_, _, _, rfl⟩
    have he' : effect [s₀, s₁, s₂] h ≠ none := by
      rw [← hr, effect_releaseMessage, if_pos rfl]
      nofun
    obtain ⟨hc', hs'⟩ := status_of_effect he'
    obtain ⟨⟨hlo', hhi'⟩, hch'⟩ := voice_status s₀ hs'
    rw [hr]
    simp [acceptsChannel, hlo, hhi, hlo', hhi', hch, hch', hc, hc']

/-! ## Complete messages -/

/-- As many bytes as its status asks for, and no status behind it. -/
def Complete (bytes : List UInt8) : Prop :=
  ∃ status rest, bytes = status :: rest ∧ messageLength status = some bytes.length ∧
    ∀ b ∈ rest, b < 0x80

/-- A note-on of velocity 0 becomes the note-off. -/
def silence (bytes : List UInt8) : List UInt8 :=
  match bytes with
  | [status, d1, d2] =>
    if status &&& 0xF0 = 0x90 ∧ d2 = 0 then [0x80 ||| (status &&& 0x0F), d1, d2] else bytes
  | _ => bytes

theorem Complete.head {bytes : List UInt8} (h : Complete bytes) : bytes.head? ≠ some 0xF0 := by
  obtain ⟨status, rest, rfl, hlen, -⟩ := h
  rintro hstatus
  cases hstatus
  cases hlen

theorem messageLength_le {status : UInt8} {n : Nat} (h : messageLength status = some n) :
    0 < n ∧ n ≤ 3 := by
  unfold messageLength at h
  split at h
  · cases h
    decide
  · split at h
    · cases h
      decide
    · split at h
      · cases h
        decide
      · cases h

theorem Complete.length_le {bytes : List UInt8} (h : Complete bytes) :
    0 < bytes.length ∧ bytes.length ≤ 3 := by
  obtain ⟨status, rest, -, hlen, -⟩ := h
  exact messageLength_le hlen

theorem normalizeMessage_eq_some {bytes out : List UInt8} (hsys : bytes.head? ≠ some 0xF0) :
    normalizeMessage bytes = some out ↔ Complete bytes ∧ out = silence bytes := by
  cases bytes with
  | nil => simp [normalizeMessage, Complete]
  | cons status rest =>
    have hstatus : status ≠ 0xF0 := fun h => hsys (congrArg some h)
    have hcomplete : Complete (status :: rest) ↔
        ¬(messageLength status ≠ some (status :: rest).length ∨ rest.any (0x80 ≤ ·) = true) := by
      simp only [Complete, List.cons.injEq, not_or, Decidable.not_not, List.any_eq_true,
        decide_eq_true_eq, not_exists, not_and, UInt8.not_le]
      constructor
      · rintro ⟨s, r, ⟨rfl, rfl⟩, hlen, hdata⟩
        exact ⟨hlen, hdata⟩
      · rintro ⟨hlen, hdata⟩
        exact ⟨status, rest, ⟨rfl, rfl⟩, hlen, hdata⟩
    rw [hcomplete]
    simp only [normalizeMessage, if_neg hstatus]
    split
    · rename_i hbad
      exact ⟨fun h => (Option.some_ne_none _ h.symm).elim, fun h => absurd hbad h.1⟩
    · rename_i hgood
      rw [eq_comm (a := out)]
      simp only [hgood, not_false_eq_true, true_and]
      split
      · simp [silence]
      · rename_i hne
        cases rest with
        | nil => simp [silence]
        | cons d1 rest =>
          cases rest with
          | nil => simp [silence]
          | cons d2 rest =>
            cases rest with
            | nil => exact absurd rfl (hne d1 d2)
            | cons d3 rest => simp [silence]

theorem length_silence (bytes : List UInt8) : (silence bytes).length = bytes.length := by
  unfold silence
  split
  · split <;> rfl
  · rfl

/-- What `normalize_message` gives is complete and stays as it is. -/
theorem Complete.silence {bytes : List UInt8} (h : Complete bytes) :
    Complete (silence bytes) ∧ MidiMessage.silence (MidiMessage.silence bytes) =
      MidiMessage.silence bytes := by
  unfold MidiMessage.silence
  split
  · rename_i status d1 d2
    split
    · obtain ⟨hsys, hlen, hoff⟩ := noteOff_status status
      obtain ⟨s, r, heq, -, hdata⟩ := h
      cases heq
      exact ⟨⟨_, _, rfl, hlen, hdata⟩, if_neg fun hon => hoff hon.1⟩
    · rename_i hkeep
      exact ⟨h, if_neg hkeep⟩
  · rename_i hne
    refine ⟨h, ?_⟩
    split
    · exact absurd rfl (hne _ _ _)
    · rfl

end RtpOscMidi.L1.MidiMessage
