import RtpOscMidi.Core.Bytes
import RtpOscMidi.Core.Binary32
import RtpOscMidi.L1Encoding.MidiMessage

/-!
# OSC packets

`decode` reads one datagram: a message, or a bundle of size-prefixed
elements that may nest sixteen deep, each with a time tag. It gives the MIDI
messages in packet order with a deadline each, or refuses the whole packet.

A slice or an index out of range is a panic here too (`Stop.panicked`), so
that its absence can be proved. Instants are in nanoseconds, the wall clock
counts from the Unix epoch.
-/
namespace RtpOscMidi.L1.OscPacket

open Core Core.Binary32 MidiMessage

/-- How a decoding step ends early. -/
inductive Stop where
  | refused (message : String)
  | panicked
  deriving DecidableEq, Repr

abbrev Result := Except Stop

def err {α : Type} (message : String) : Result α := .error (.refused message)

def maxPacketMessages : Nat := 1024
def maxAheadNs : Int := 10000000000
def nsPerSecond : Int := 1000000000

/-- mirrors src-tauri/src/osc_input/packet.rs:7-14, without the ingress time stamp;
`data` holds the `len` bytes that count -/
structure ScheduledMidi where
  deadline : Nat
  order : Nat
  data : List UInt8
  generation : Nat
  deriving DecidableEq, Repr

/-! ## Slices and strings -/

/-- mirrors src-tauri/src/osc_input/packet.rs:16-20 -/
def take (bytes : List UInt8) (size : Nat) : Result (List UInt8 × List UInt8) :=
  if size ≤ bytes.length then .ok (bytes.take size, bytes.drop size)
  else err "truncated OSC argument"

/-- `&bytes[from..to]`. -/
def slice (bytes : List UInt8) (start stop : Nat) : Result (List UInt8) :=
  if start ≤ stop ∧ stop ≤ bytes.length then .ok ((bytes.drop start).take (stop - start))
  else .error .panicked

/-- `bytes[i]`. -/
def index (bytes : List UInt8) (i : Nat) : Result UInt8 :=
  match bytes[i]? with
  | some b => .ok b
  | none => .error .panicked

/-- The value of `bytes.try_into().unwrap()` for `size` bytes, read big-endian. -/
def beNat (bytes : List UInt8) (size : Nat) : Result Nat :=
  if bytes.length = size then .ok (ofBE bytes) else .error .panicked

/-- A 32-bit two's complement number. -/
def toI32 (n : Nat) : Int := if n < 2147483648 then n else (n : Int) - 4294967296

/-- `n & !3`. -/
def align (n : Nat) : Nat := n / 4 * 4

def toChars (bytes : List UInt8) : List Char := bytes.map fun b => Char.ofNat b.toNat

/-- mirrors src-tauri/src/osc_input/packet.rs:21-32 -/
def string (bytes : List UInt8) : Result (List Char × List UInt8) := do
  let some stop := bytes.findIdx? (· == 0) | err "unterminated OSC string"
  let (part, rest) ← take bytes (align (stop + 4))
  let text ← slice part 0 stop
  let padding ← slice part stop part.length
  if !(text.all (· < 128)) || padding.any (· != 0) then err "invalid OSC string padding"
  else return (toChars text, rest)

/-! ## Deadlines -/

/-- mirrors src-tauri/src/osc_input/packet.rs:61-66; the seconds are taken in the era
nearest to the wall clock -/
def tagDelta (tag : UInt64) (unixNs : Nat) : Int :=
  let unixSeconds := unixNs / 1000000000
  let ntpSeconds := UInt32.ofNat (unixSeconds + 2208988800)
  let seconds := ((tag >>> 32).toUInt32 - ntpSeconds).toInt32.toInt
  let fractionalNs := tag.toUInt32.toNat * 1000000000 / 4294967296
  seconds * nsPerSecond + fractionalNs - (unixNs % 1000000000 : Nat)

/-- `wall` is negative before the Unix epoch.
mirrors src-tauri/src/osc_input/packet.rs:49-79 -/
def deadline (tag : UInt64) (wall : Int) (now parent : Nat) : Result Nat :=
  if tag = 1 then .ok parent
  else if wall < 0 then err "invalid system clock"
  else
    let delta := tagDelta tag wall.toNat
    if maxAheadNs < delta then err "OSC deadline exceeds ten seconds"
    else
      let due := if delta ≤ 0 then now else now + delta.toNat
      if due < parent then err "nested OSC bundle precedes parent"
      else .ok due

/-! ## Messages -/

/-- mirrors src-tauri/src/osc_input/packet.rs:132-155 -/
def skipArgument (tag : Char) (remaining : List UInt8) : Result (List UInt8) := do
  if tag = 'i' ∨ tag = 'f' ∨ tag = 'm' then
    let (_, rest) ← take remaining 4
    return rest
  else if tag = 'h' ∨ tag = 't' ∨ tag = 'd' then
    let (_, rest) ← take remaining 8
    return rest
  else if tag = 's' then
    let (_, rest) ← string remaining
    return rest
  else if tag = 'b' then
    let (head, rest) ← take remaining 4
    let size := toI32 (← beNat head 4)
    if size < 0 then err "negative OSC blob size"
    else
      let (data, rest) ← take rest (align (size.toNat + 3))
      let padding ← slice data size.toNat data.length
      if padding.any (· != 0) then err "invalid OSC blob padding" else return rest
  else if tag = 'T' ∨ tag = 'F' ∨ tag = 'N' ∨ tag = 'I' then return remaining
  else err "unsupported OSC type tag"

/-- mirrors src-tauri/src/osc_input/packet.rs:131-156 -/
def skipArguments : List Char → List UInt8 → Result (List UInt8)
  | [], remaining => .ok remaining
  | tag :: tags, remaining => do
    let remaining ← skipArgument tag remaining
    skipArguments tags remaining

/-- `str::parse::<u8>`: an optional `+` and at least one digit, up to 255. -/
def parseU8 (text : List Char) : Option Nat :=
  let digits := if text.head? = some '+' then text.tail else text
  if digits = [] ∨ !digits.all Char.isDigit then none
  else
    let value := digits.foldl (fun value c => value * 10 + (c.toNat - '0'.toNat)) 0
    if value ≤ 255 then some value else none

/-- PARAMETER_PATH of src-tauri/src/osc.rs:10. -/
def parameterPath : List Char := "/avatar/parameters/".toList

def stripPrefix (pre text : List Char) : Option (List Char) :=
  if pre.isPrefixOf text then some (text.drop pre.length) else none

/-- What a parameter switches: `some none` is the sustain pedal.
mirrors src-tauri/src/osc_input/packet.rs:184-192 -/
def switchTarget (parameter : List Char) : Option (Option Nat) :=
  if parameter = "sustain".toList then some none
  else ((parseU8 parameter).filter fun index => 1 ≤ index && index ≤ 88).map some

/-- mirrors src-tauri/src/osc_input/packet.rs:194-210 -/
def switchPressed (tags : List Char) (arguments : List UInt8) : Result Bool := do
  if tags = ",i".toList then
    let value := toI32 (← beNat arguments 4)
    if value = 0 then return false
    else if value = 1 then return true
    else err "OSC switch must be zero or one"
  else if tags = ",f".toList then
    let bits := UInt32.ofNat (← beNat arguments 4)
    if !isFinite bits then err "OSC switch must be finite"
    else return geHalf bits
  else if tags = ",T".toList then return true
  else if tags = ",F".toList then return false
  else err "invalid OSC switch type"

/-- mirrors src-tauri/src/osc_input/packet.rs:211-221 -/
def switchMessage (target : Option Nat) (pressed : Bool) : List UInt8 :=
  match target with
  | some index =>
    [if pressed then 0x90 else 0x80, noteMin + UInt8.ofNat index - 1, if pressed then 127 else 0]
  | none => [0xB0, 64, if pressed then 127 else 0]

/-- mirrors src-tauri/src/osc_input/packet.rs:165-182 -/
def midiArgument (tags : List Char) (arguments : List UInt8) : Result (List UInt8) := do
  if tags ≠ ",m".toList then err "/midi requires one OSC MIDI argument"
  else
    let status ← index arguments 1
    let some len := messageLength status | err "invalid OSC MIDI status"
    let d1 ← index arguments 2
    let d2 ← index arguments 3
    let data ← slice [status, d1, d2] 1 len
    if data.any (128 ≤ ·) then err "invalid OSC MIDI data"
    else
      let status := if status &&& 0xF0 = 0x90 ∧ d2 = 0 then 0x80 ||| (status &&& 15) else status
      return status :: data

/-- The MIDI message of an OSC message; `none` for an address it does not know.
mirrors src-tauri/src/osc_input/packet.rs:160-223 -/
def midiOf (address tags : List Char) (arguments : List UInt8) : Result (Option (List UInt8)) := do
  if address = "/midi".toList then
    return some (← midiArgument tags arguments)
  else
    match (stripPrefix parameterPath address).bind switchTarget with
    | some target => return some (switchMessage target (← switchPressed tags arguments))
    | none => return none

/-! ## Packets -/

/-- The elements of a bundle, each given to `packet`.
mirrors src-tauri/src/osc_input/packet.rs:104-120 -/
def elements (packet : List UInt8 → List ScheduledMidi → Result (List ScheduledMidi))
    (remaining : List UInt8) (out : List ScheduledMidi) : Result (List ScheduledMidi) :=
  if remaining.isEmpty then .ok out
  else
    match _h4 : take remaining 4 with
    | .error e => .error e
    | .ok (head, rest) =>
      match beNat head 4 with
      | .error e => .error e
      | .ok size =>
        let size := toI32 size
        if size ≤ 0 ∨ size.toNat % 4 ≠ 0 then err "invalid OSC bundle element size"
        else
          match _he : take rest size.toNat with
          | .error e => .error e
          | .ok (element, rest') =>
            match packet element out with
            | .error e => .error e
            | .ok out => elements packet rest' out
termination_by remaining.length
decreasing_by
  unfold take at _h4 _he
  split at _h4
  · split at _he
    · cases _h4; cases _he; simp only [List.length_drop]; omega
    · cases _he
  · cases _h4

/-- `left` is 17 less the nesting depth.
mirrors src-tauri/src/osc_input/packet.rs:82-238 -/
def packet (wall : Int) (now generation : Nat) :
    Nat → Nat → Option UInt64 → List UInt8 → List ScheduledMidi → Result (List ScheduledMidi)
  | 0, _, _, _, _ => err "invalid OSC packet size or nesting"
  | left + 1, parent, parentTag, bytes, out =>
    if bytes.isEmpty ∨ bytes.length % 4 ≠ 0 then err "invalid OSC packet size or nesting"
    else do
      let (address, remaining) ← string bytes
      if address = "#bundle".toList then
        let (head, remaining) ← take remaining 8
        let tag := UInt64.ofNat (← beNat head 8)
        if tag ≠ 1 ∧ parentTag.any fun parent => (tag - parent).toInt64 < 0 then
          err "nested OSC timetag precedes parent"
        else
          let due ← deadline tag wall now parent
          let inheritedTag := if tag = 1 then parentTag else some tag
          elements (packet wall now generation left due inheritedTag) remaining out
      else if address.head? ≠ some '/' then err "invalid OSC address"
      else
        let (tags, remaining) ← string remaining
        if tags.head? ≠ some ',' then err "missing OSC type tags"
        else
          let arguments := remaining
          let remaining ← skipArguments (tags.drop 1) remaining
          if !remaining.isEmpty then err "OSC arguments do not match type tags"
          else
            match ← midiOf address tags arguments with
            | none => return out
            | some data =>
              if maxPacketMessages ≤ out.length then err "too many OSC messages"
              else return out ++ [⟨parent, out.length, data, generation⟩]

/-- What `decode` returns and what it leaves in its output vector.
mirrors src-tauri/src/osc_input/packet.rs:34-47 -/
def decode (bytes : List UInt8) (wall : Int) (now generation : Nat) :
    Result Unit × List ScheduledMidi :=
  match packet wall now generation 17 now none bytes [] with
  | .ok out => (.ok (), out)
  | .error e => (.error e, [])

end RtpOscMidi.L1.OscPacket
