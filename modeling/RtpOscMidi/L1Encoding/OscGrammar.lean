import RtpOscMidi.L1Encoding.OscPacket

/-!
# The grammar of OSC packets

What a datagram may be, stated on its bytes without the decoder: strings and
arguments with their padding, messages, and bundles of sized elements
(`Spells`, `Within`). Then what a packet stands for: the MIDI message of an OSC
message (`Carries`), the messages of a packet under the time tags around them
(`Yields`), the tags that may be kept (`Timely`) and the output (`timetable`).
-/
namespace RtpOscMidi.L1.OscPacket

open Core Core.Binary32 MidiMessage

/-! ## The grammar -/

/-- A string of ASCII characters, closed and padded with zeros to a multiple of
four bytes. -/
def PaddedString (text : List Char) (bytes : List UInt8) : Prop :=
  ∃ chars k, text = toChars chars ∧ bytes = chars ++ List.replicate k 0 ∧ 1 ≤ k ∧ k ≤ 4 ∧
    (chars.length + k) % 4 = 0 ∧ ∀ b ∈ chars, b ≠ 0 ∧ b < 128

/-- One argument of a type tag. -/
inductive Argument : Char → List UInt8 → Prop
  | four {tag bytes} : tag = 'i' ∨ tag = 'f' ∨ tag = 'm' → bytes.length = 4 → Argument tag bytes
  | eight {tag bytes} : tag = 'h' ∨ tag = 't' ∨ tag = 'd' → bytes.length = 8 → Argument tag bytes
  | text {text bytes} : PaddedString text bytes → Argument 's' bytes
  | blob {data : List UInt8} {k : Nat} : data.length < 2147483648 → k < 4 →
      (data.length + k) % 4 = 0 → Argument 'b' (be 4 data.length ++ (data ++ List.replicate k 0))
  | none {tag} : tag = 'T' ∨ tag = 'F' ∨ tag = 'N' ∨ tag = 'I' → Argument tag []

/-- The arguments of a list of type tags, one after another. -/
inductive Arguments : List Char → List UInt8 → Prop
  | nil : Arguments [] []
  | cons {tag tags arg args} : Argument tag arg → Arguments tags args →
      Arguments (tag :: tags) (arg ++ args)

/-- A packet without its bytes. -/
inductive Tree where
  | message (address tags : List Char) (arguments : List UInt8)
  | bundle (tag : UInt64) (elements : List Tree)

mutual

/-- The bytes of a packet. -/
inductive Spells : Tree → List UInt8 → Prop
  | message {address tags arguments a t} : PaddedString address a → address.head? = some '/' →
      PaddedString tags t → tags.head? = some ',' → Arguments (tags.drop 1) arguments →
      Spells (.message address tags arguments) (a ++ (t ++ arguments))
  | bundle {tag : UInt64} {elements a body} : PaddedString "#bundle".toList a →
      SpellsAll elements body → Spells (.bundle tag elements) (a ++ (be 8 tag.toNat ++ body))

/-- The elements of a bundle, each after its size. -/
inductive SpellsAll : List Tree → List UInt8 → Prop
  | nil : SpellsAll [] []
  | cons {tree trees element body} : Spells tree element → element.length < 2147483648 →
      SpellsAll trees body →
      SpellsAll (tree :: trees) (be 4 element.length ++ (element ++ body))

end

/-- At most `levels` packets lie one inside the other. -/
def Within : Nat → Tree → Prop
  | 0, _ => False
  | _ + 1, .message .. => True
  | levels + 1, .bundle _ elements => ∀ tree ∈ elements, Within levels tree

/-- A switch argument and whether it is on. -/
inductive Switch : List Char → List UInt8 → Bool → Prop
  | int (pressed : Bool) : Switch ",i".toList (be 4 pressed.toNat) pressed
  | float {bits : UInt32} : isFinite bits → Switch ",f".toList (be 4 bits.toNat) (geHalf bits)
  | true : Switch ",T".toList [] true
  | false : Switch ",F".toList [] false

/-- The MIDI message that an OSC message stands for; `none` where its address
is another program's. -/
inductive Carries : List Char → List Char → List UInt8 → Option (List UInt8) → Prop
  | midi {port status d1 d2 len data} : messageLength status = some len →
      normalizeMessage ([status, d1, d2].take len) = some data →
      Carries "/midi".toList ",m".toList [port, status, d1, d2] (some data)
  | switch {name target tags arguments pressed} : switchTarget name = some target →
      Switch tags arguments pressed →
      Carries (parameterPath ++ name) tags arguments (some (switchMessage target pressed))
  | other {address tags arguments} : address ≠ "/midi".toList →
      (∀ name, address = parameterPath ++ name → switchTarget name = none) →
      Carries address tags arguments none

mutual

/-- The messages of a packet in its order, each with the tags of the bundles
around it, innermost first. -/
inductive Yields : List UInt64 → Tree → List (List UInt64 × List UInt8) → Prop
  | message {chain address tags arguments data} : Carries address tags arguments (some data) →
      Yields chain (.message address tags arguments) [(chain, data)]
  | silent {chain address tags arguments} : Carries address tags arguments none →
      Yields chain (.message address tags arguments) []
  | bundle {chain tag elements leaves} : YieldsAll (tag :: chain) elements leaves →
      Yields chain (.bundle tag elements) leaves

inductive YieldsAll : List UInt64 → List Tree → List (List UInt64 × List UInt8) → Prop
  | nil {chain} : YieldsAll chain [] []
  | cons {chain tree trees leaves leaves'} : Yields chain tree leaves →
      YieldsAll chain trees leaves' → YieldsAll chain (tree :: trees) (leaves ++ leaves')

end

/-- How far a tag lies after the wall clock, in the NTP era that brings the
two nearest to each other. -/
def offset (wall : Int) (tag : UInt64) : Int :=
  ((tag.toNat / 2 ^ 32 : Nat) - 2208988800 - wall / nsPerSecond).bmod (2 ^ 32) * nsPerSecond +
    (tag.toNat % 2 ^ 32 * 1000000000 / 2 ^ 32 : Nat) - wall % nsPerSecond

/-- The tag's own instant, no earlier than `now`. -/
def tagDue (wall : Int) (now : Nat) (tag : UInt64) : Nat := now + (offset wall tag).toNat

/-- The deadline of what lies inside the bundles of a chain of tags: the
nearest tag that is not `immediately`, raised to `now` and to the deadline
around it. -/
def due (wall : Int) (now : Nat) : List UInt64 → Nat
  | [] => now
  | tag :: chain => if tag = 1 then due wall now chain else max (tagDue wall now tag) (due wall now chain)

/-- What is asked of a tag that is not `immediately`. -/
structure Timed (wall : Int) (now : Nat) (chain : List UInt64) (tag : UInt64) : Prop where
  clock : 0 ≤ wall
  ahead : offset wall tag ≤ maxAheadNs
  order : ∀ outer, chain.find? (· ≠ 1) = some outer → 0 ≤ (tag - outer).toInt64
  nested : due wall now chain ≤ tagDue wall now tag

mutual

/-- Every tag of a packet may be kept. -/
inductive Timely (wall : Int) (now : Nat) : List UInt64 → Tree → Prop
  | message {chain address tags arguments} : Timely wall now chain (.message address tags arguments)
  | bundle {chain tag elements} : tag = 1 ∨ Timed wall now chain tag →
      TimelyAll wall now (tag :: chain) elements → Timely wall now chain (.bundle tag elements)

inductive TimelyAll (wall : Int) (now : Nat) : List UInt64 → List Tree → Prop
  | nil {chain} : TimelyAll wall now chain []
  | cons {chain tree trees} : Timely wall now chain tree → TimelyAll wall now chain trees →
      TimelyAll wall now chain (tree :: trees)

end

/-- The output for the messages of a packet, the first of them numbered
`start`. -/
def timetable (wall : Int) (now generation start : Nat) (leaves : List (List UInt64 × List UInt8)) :
    List ScheduledMidi :=
  leaves.mapIdx fun i leaf => ⟨due wall now leaf.1, start + i, leaf.2, generation⟩

end RtpOscMidi.L1.OscPacket
