import RtpOscMidi.Core.Bytes
import RtpOscMidi.Core.IoError

/-!
# Frames of the reliable playback connection

A frame is a big-endian length of four bytes and as many bytes of JSON. The
socket has a read time-out, so a frame may arrive over many reads with
time-outs between them; `read_exact_preserving_progress` keeps what it has
and goes on, unless the server stops, the playback is done or a deadline
has passed.

`Conn` is the connection as the reader finds it: the bytes the peer has yet
to deliver (up to its end of stream), the flags raised so far, and what
each turn of the read loop will meet. `parseFrames` reads the same bytes at
once.

* `frames_survive_timeouts`: whatever the reads and time-outs, the calls return
  the frames of `parseFrames`.
* `parseFrames_encodeFrame`: what the sender frames is read back.
-/
namespace RtpOscMidi.L1.ReliableFraming

open Core

/-- Which of the optional arguments a call is given. -/
structure ReadArgs where
  done : Bool
  returnOnIdleTimeout : Bool
  deadline : Bool

/-- `stop` and `done` are only ever set, and a deadline stays passed. -/
structure Flags where
  stop : Bool := false
  done : Bool := false
  late : Bool := false
  deriving DecidableEq, Repr

def Flags.raise (f g : Flags) : Flags := ⟨f.stop || g.stop, f.done || g.done, f.late || g.late⟩

/-- What one `stream.read` gives: up to `more + 1` bytes, or an error. -/
inductive ReadOutcome where
  | bytes (more : Nat)
  | error (e : IoError)

/-- One turn of the read loop: the flags raised before its checks, its read,
and the flags raised before the checks that follow a time-out. -/
structure Turn where
  before : Flags := {}
  read : ReadOutcome
  after : Flags := {}

structure Conn where
  flags : Flags := {}
  rest : List UInt8

inductive Returned (α : Type) where
  | ok (a : α)
  | err (e : IoError)
  | waiting

/-- What a call returns and what it leaves behind. -/
structure Call (α : Type) where
  result : Returned α
  conn : Conn
  turns : List Turn

/-- MAX_FRAME_BYTES of src-tauri/src/reliable_playback.rs:24. -/
def maxFrameBytes : Nat := 16 * 1024 * 1024

def serverStopping : IoError := ⟨.interrupted, "server stopping"⟩
def playbackCompleted : IoError := ⟨.timedOut, "playback completed"⟩
def deadlineExceeded : IoError := ⟨.timedOut, "read deadline exceeded"⟩
def connectionClosed : IoError := ⟨.unexpectedEof, "connection closed"⟩
def frameTooLarge : IoError := ⟨.invalidData, "frame too large"⟩

/-- `data` is the part of the buffer filled so far, `size` the length of the
buffer. With no turn left the call has not returned.
mirrors src-tauri/src/reliable_playback.rs:665-720 -/
def readExactPreservingProgress (args : ReadArgs) (size : Nat) (data : List UInt8) (conn : Conn)
    (turns : List Turn) : Call (List UInt8) :=
  if size ≤ data.length then ⟨.ok data, conn, turns⟩
  else match turns with
    | [] => ⟨.waiting, conn, []⟩
    | turn :: turns =>
      let conn := { conn with flags := conn.flags.raise turn.before }
      if conn.flags.stop then ⟨.err serverStopping, conn, turns⟩
      else if args.done && conn.flags.done then ⟨.err playbackCompleted, conn, turns⟩
      else if args.deadline && conn.flags.late then ⟨.err deadlineExceeded, conn, turns⟩
      else match turn.read with
        | .bytes more =>
          let part := conn.rest.take (min (more + 1) (size - data.length))
          if part.isEmpty then ⟨.err connectionClosed, conn, turns⟩
          else
            readExactPreservingProgress args size (data ++ part)
              { conn with rest := conn.rest.drop part.length } turns
        | .error e =>
          if e.timeout then
            let conn := { conn with flags := conn.flags.raise turn.after }
            if args.deadline && conn.flags.late then ⟨.err deadlineExceeded, conn, turns⟩
            else if data.isEmpty && args.returnOnIdleTimeout || args.done && conn.flags.done then
              ⟨.err e, conn, turns⟩
            else readExactPreservingProgress args size data conn turns
          else ⟨.err e, conn, turns⟩
termination_by structural turns

/-- `decode` is `serde_json::from_slice`.
mirrors src-tauri/src/reliable_playback.rs:637-663 -/
def readFrame {α : Type} (decode : List UInt8 → Except String α) (args : ReadArgs) (conn : Conn)
    (turns : List Turn) : Call α :=
  match readExactPreservingProgress args 4 [] conn turns with
  | ⟨.waiting, conn, turns⟩ => ⟨.waiting, conn, turns⟩
  | ⟨.err e, conn, turns⟩ => ⟨.err e, conn, turns⟩
  | ⟨.ok header, conn, turns⟩ =>
    let size := ofBE header
    if maxFrameBytes < size then ⟨.err frameTooLarge, conn, turns⟩
    else
      match readExactPreservingProgress { args with returnOnIdleTimeout := false } size [] conn
        turns with
      | ⟨.waiting, conn, turns⟩ => ⟨.waiting, conn, turns⟩
      | ⟨.err e, conn, turns⟩ => ⟨.err e, conn, turns⟩
      | ⟨.ok data, conn, turns⟩ =>
        match decode data with
        | .ok frame => ⟨.ok frame, conn, turns⟩
        | .error message => ⟨.err ⟨.invalidData, message⟩, conn, turns⟩

/-- What the first `n` calls return, as the loop of `handle_connection` makes
them: after a frame and after a time-out it calls again. -/
def readFrames {α : Type} (decode : List UInt8 → Except String α) (args : ReadArgs) :
    Nat → Conn → List Turn → List (Except IoError α)
  | 0, _, _ => []
  | n + 1, conn, turns =>
    match readFrame decode args conn turns with
    | ⟨.waiting, _, _⟩ => []
    | ⟨.ok frame, conn, turns⟩ => .ok frame :: readFrames decode args n conn turns
    | ⟨.err e, conn, turns⟩ =>
      .error e :: if e.timeout then readFrames decode args n conn turns else []

/-- All the frames `handle_connection` reads: the prepare frame under the
handshake's deadline, where an error ends the connection, and then up to `n`
calls that return on an idle time-out and watch the completion flag.
mirrors src-tauri/src/reliable_playback.rs:277-280,344-392 -/
def readConnection {α : Type} (decode : List UInt8 → Except String α) (n : Nat)
    (bytes : List UInt8) (turns : List Turn) : List (Except IoError α) :=
  match readFrame decode ⟨false, false, true⟩ ⟨{}, bytes⟩ turns with
  | ⟨.waiting, _, _⟩ => []
  | ⟨.err e, _, _⟩ => [.error e]
  | ⟨.ok frame, conn, turns⟩ => .ok frame :: readFrames decode ⟨true, true, false⟩ n conn turns

/-! ## The stream read at once -/

/-- The frames of a stream and the error it ends in. -/
def parseFrames {α : Type} (decode : List UInt8 → Except String α) (bytes : List UInt8) :
    List (Except IoError α) :=
  if bytes.length < 4 then [.error connectionClosed]
  else
    let size := ofBE (bytes.take 4)
    if maxFrameBytes < size then [.error frameTooLarge]
    else if bytes.length < 4 + size then [.error connectionClosed]
    else match decode ((bytes.drop 4).take size) with
      | .ok frame => .ok frame :: parseFrames decode (bytes.drop (4 + size))
      | .error message => [.error ⟨.invalidData, message⟩]
termination_by bytes.length

/-! ## One call -/

/-- The flags a call given `args` returns at. -/
def Ended (args : ReadArgs) (f : Flags) : Prop :=
  f.stop = true ∨ args.done = true ∧ f.done = true ∨ args.deadline = true ∧ f.late = true

/-- The turn raises a flag that ends the call. -/
def Turn.Raises (args : ReadArgs) (t : Turn) : Prop := Ended args t.before ∨ Ended args t.after

/-- The turn's read fails for good. -/
def Turn.Fails (t : Turn) : Prop := ∃ e, t.read = .error e ∧ e.timeout = false

def Turn.delivers (t : Turn) : Bool :=
  match t.read with
  | .bytes _ => true
  | .error _ => false

theorem ended_raise (args : ReadArgs) (f g : Flags) :
    Ended args (f.raise g) ↔ Ended args f ∨ Ended args g := by
  unfold Ended Flags.raise
  simp only [Bool.or_eq_true]
  tauto

theorem Flags.raise_assoc (f g h : Flags) : f.raise (g.raise h) = (f.raise g).raise h := by
  simp only [Flags.raise, Bool.or_assoc]

/-- What a call does that finds `data` in its buffer of `size` bytes, reads
`got` and uses the turns `used`. -/
structure ExactSpec (args : ReadArgs) (size : Nat) (data : List UInt8) (conn : Conn)
    (turns : List Turn) (c : Call (List UInt8)) (got : List UInt8) (used : List Turn) : Prop where
  bytes : conn.rest = got ++ c.conn.rest
  turns : turns = used ++ c.turns
  progress : data.length < size → c.result ≠ .waiting → used ≠ []
  keeps : ∀ a, Ended a conn.flags → Ended a c.conn.flags
  raised : ∀ a, Ended a c.conn.flags → Ended a conn.flags ∨ ∃ t ∈ used, t.Raises a
  delivered : Ended args c.conn.flags ∨ c.result = .err connectionClosed ∨
    used.countP Turn.delivers ≤ got.length
  ok : ∀ d, c.result = .ok d → d = data ++ got ∧ d.length = size
  waiting : c.result = .waiting → c.turns = []
  err : ∀ e, c.result = .err e →
    e = connectionClosed ∧ c.conn.rest = [] ∧ data.length + got.length < size ∨
    Ended args c.conn.flags ∨
    e.timeout = true ∧ args.returnOnIdleTimeout = true ∧ got = [] ∧ data = [] ∨
    ∃ t ∈ used, t.Fails ∧ t.read = .error e

section
variable {args : ReadArgs} {size : Nat} {data got : List UInt8} {conn : Conn}
  {turn : Turn} {turns used : List Turn} {c : Call (List UInt8)}

theorem ExactSpec.filled (h : data.length = size) :
    ExactSpec args size data conn turns ⟨.ok data, conn, turns⟩ [] [] where
  bytes := rfl
  turns := rfl
  progress := by omega
  keeps _ := id
  raised _ := .inl
  delivered := .inr (.inr (Nat.le_refl _))
  ok := by intro d hd; cases hd; exact ⟨(List.append_nil _).symm, h⟩
  waiting := by intro hw; cases hw
  err := by intro e he; cases he

theorem ExactSpec.pending :
    ExactSpec args size data conn [] ⟨.waiting, conn, []⟩ [] [] where
  bytes := rfl
  turns := rfl
  progress _ h := absurd rfl h
  keeps _ := id
  raised _ := .inl
  delivered := .inr (.inr (Nat.le_refl _))
  ok := by intro d hd; cases hd
  waiting := fun _ => rfl
  err := by intro e he; cases he

/-- The turn ends the call with an error, and takes no bytes. -/
theorem ExactSpec.failed {e : IoError} {f : Flags} (hf : ∀ a, Ended a f → turn.Raises a)
    (hd : Ended args (conn.flags.raise f) ∨ e = connectionClosed ∨ turn.delivers = false)
    (he : e = connectionClosed ∧ conn.rest = [] ∧ data.length < size ∨
      Ended args (conn.flags.raise f) ∨
      e.timeout = true ∧ args.returnOnIdleTimeout = true ∧ data = [] ∨
      turn.Fails ∧ turn.read = .error e) :
    ExactSpec args size data conn (turn :: turns)
      ⟨.err e, { conn with flags := conn.flags.raise f }, turns⟩ [] [turn] where
  bytes := rfl
  turns := rfl
  progress _ _ := by simp
  keeps _ h := (ended_raise ..).mpr (.inl h)
  raised a h := by
    rcases (ended_raise ..).mp h with h | h
    · exact .inl h
    · exact .inr ⟨turn, by simp, hf a h⟩
  delivered := by
    rcases hd with hd | rfl | hd
    · exact .inl hd
    · exact .inr (.inl rfl)
    · exact .inr (.inr (by simp [hd]))
  ok := by intro d h; cases h
  waiting := by intro h; cases h
  err := by
    intro e' h
    obtain rfl : e = e' := by cases h; rfl
    rcases he with he | he | he | he
    · exact .inl he
    · exact .inr (.inl he)
    · exact .inr (.inr (.inl ⟨he.1, he.2.1, rfl, he.2.2⟩))
    · exact .inr (.inr (.inr ⟨turn, by simp, he⟩))

/-- The turn reads `part` and the call goes on. -/
theorem ExactSpec.next (part : List UInt8) {f : Flags} (conn' : Conn)
    (hf : ∀ a, Ended a f → turn.Raises a) (hflags : conn'.flags = conn.flags.raise f)
    (hrest : conn.rest = part ++ conn'.rest) (hd : turn.delivers = true → part ≠ [])
    (hidle : part = [] → data = [] → args.returnOnIdleTimeout = false)
    (h : ExactSpec args size (data ++ part) conn' turns c got used) :
    ExactSpec args size data conn (turn :: turns) c (part ++ got) (turn :: used) where
  bytes := by rw [hrest, h.bytes, List.append_assoc]
  turns := by rw [h.turns]; rfl
  progress _ _ := by simp
  keeps a he := h.keeps a (by rw [hflags, ended_raise]; exact .inl he)
  raised a he := by
    rcases h.raised a he with he | ⟨t, ht, he⟩
    · rw [hflags, ended_raise] at he
      rcases he with he | he
      · exact .inl he
      · exact .inr ⟨turn, by simp, hf a he⟩
    · exact .inr ⟨t, by simp [ht], he⟩
  delivered := by
    refine h.delivered.imp_right (Or.imp_right fun hle => ?_)
    rw [List.countP_cons, List.length_append]
    split
    · next ht =>
      have := List.length_pos_iff.mpr (hd ht)
      omega
    · omega
  ok d he := by
    obtain ⟨rfl, hl⟩ := h.ok d he
    exact ⟨List.append_assoc .., hl⟩
  waiting := h.waiting
  err e he := by
    rcases h.err e he with he | he | ⟨h1, h2, h3, h4⟩ | ⟨t, ht, he⟩
    · refine .inl ⟨he.1, he.2.1, ?_⟩
      have := he.2.2
      rw [List.length_append] at this ⊢
      omega
    · exact .inr (.inl he)
    · obtain ⟨h5, h6⟩ := List.append_eq_nil_iff.mp h4
      rw [hidle h6 h5] at h2
      cases h2
    · exact .inr (.inr (.inr ⟨t, by simp [ht], he⟩))

theorem ExactSpec.count (h : ExactSpec args size data conn turns c got used) :
    Ended args c.conn.flags ∨ c.result = .err connectionClosed ∨
      used.countP Turn.delivers + c.conn.rest.length ≤ conn.rest.length := by
  refine h.delivered.imp_right (Or.imp_right fun hle => ?_)
  rw [h.bytes, List.length_append]
  omega

end

theorem readExact_spec (args : ReadArgs) (size : Nat) (turns : List Turn) :
    ∀ (data : List UInt8) (conn : Conn), data.length ≤ size →
      ∃ got used, ExactSpec args size data conn turns
        (readExactPreservingProgress args size data conn turns) got used := by
  induction turns with
  | nil =>
    intro data conn h
    unfold readExactPreservingProgress
    split
    · exact ⟨[], [], .filled (by omega)⟩
    · exact ⟨[], [], .pending⟩
  | cons turn turns ih =>
    intro data conn h
    unfold readExactPreservingProgress
    split
    · exact ⟨[], [], .filled (by omega)⟩
    next hsize =>
    have hbefore (a : ReadArgs) : Ended a turn.before → turn.Raises a := .inl
    dsimp only
    split
    · next hs => exact ⟨[], [turn], .failed hbefore (.inl (.inl hs)) (.inr (.inl (.inl hs)))⟩
    split
    · next hs =>
      have hs : Ended args _ := .inr (.inl (by simpa using hs))
      exact ⟨[], [turn], .failed hbefore (.inl hs) (.inr (.inl hs))⟩
    split
    · next hs =>
      have hs : Ended args _ := .inr (.inr (by simpa using hs))
      exact ⟨[], [turn], .failed hbefore (.inl hs) (.inr (.inl hs))⟩
    next hlate =>
    split
    · next more hr =>
      have hd : turn.delivers = true := by simp [Turn.delivers, hr]
      split
      · next hp =>
        refine ⟨[], [turn], .failed hbefore (.inr (.inl rfl)) (.inl ⟨rfl, ?_, by omega⟩)⟩
        simp only [List.isEmpty_iff, List.take_eq_nil_iff] at hp
        rcases hp with hp | hp
        · omega
        · exact hp
      · next hp =>
        generalize hpart : conn.rest.take (min (more + 1) (size - data.length)) = part at hp ⊢
        have hne : part ≠ [] := by simpa using hp
        have hlen : part.length ≤ size - data.length := by
          rw [← hpart, List.length_take]; omega
        obtain ⟨got, used, h'⟩ := ih (data ++ part)
          ⟨conn.flags.raise turn.before, conn.rest.drop part.length⟩
          (by rw [List.length_append]; omega)
        have hrest : part ++ conn.rest.drop part.length = conn.rest :=
          List.prefix_iff_eq_append.mp (hpart ▸ List.take_prefix ..)
        exact ⟨_, _, .next part _ hbefore rfl hrest.symm (fun _ => hne)
          (fun he => absurd he hne) h'⟩
    · next e hr =>
      have hd : turn.delivers = false := by simp [Turn.delivers, hr]
      split
      · next he =>
        have hafter (a : ReadArgs) : Ended a (turn.before.raise turn.after) → turn.Raises a :=
          (ended_raise ..).mp
        rw [← Flags.raise_assoc]
        split
        · next hs =>
          have hs : Ended args _ := .inr (.inr (by simpa using hs))
          exact ⟨[], [turn], .failed hafter (.inl hs) (.inr (.inl hs))⟩
        split
        · next hs =>
          refine ⟨[], [turn], .failed hafter (.inr (.inr hd)) (.inr ?_)⟩
          simp only [Bool.or_eq_true, Bool.and_eq_true, List.isEmpty_iff] at hs
          rcases hs with hs | hs
          · exact .inr (.inl ⟨he, hs.2, hs.1⟩)
          · exact .inl (.inr (.inl hs))
        · next hs =>
          obtain ⟨got, used, h'⟩ := ih data
            ⟨conn.flags.raise (turn.before.raise turn.after), conn.rest⟩ h
          simp only [Bool.or_eq_true, Bool.and_eq_true, List.isEmpty_iff, not_or, not_and,
            Bool.not_eq_true] at hs
          rw [← List.append_nil data] at h'
          exact ⟨got, turn :: used, .next [] ⟨conn.flags.raise (turn.before.raise turn.after), conn.rest⟩
            hafter rfl rfl (by simp [hd]) (fun _ => hs.1) (by simpa using h')⟩
      · next he =>
        refine ⟨[], [turn], .failed hbefore (.inr (.inr hd)) (.inr (.inr (.inr ⟨⟨e, hr, ?_⟩, hr⟩)))⟩
        simpa using he

/-! ## A frame of the stream -/

section
variable {α : Type} (decode : List UInt8 → Except String α) {header payload rest : List UInt8}

theorem parseFrames_short (h : rest.length < 4) :
    parseFrames decode rest = [.error connectionClosed] := by
  rw [parseFrames, if_pos h]

theorem parseFrames_large (h : header.length = 4) (hs : maxFrameBytes < ofBE header) :
    parseFrames decode (header ++ rest) = [.error frameTooLarge] := by
  have ht : (header ++ rest).take 4 = header := by rw [← h, List.take_left]
  rw [parseFrames, if_neg (by rw [List.length_append]; omega)]
  simp only [ht]
  rw [if_pos hs]

theorem parseFrames_cut (h : header.length = 4) (hs : ofBE header ≤ maxFrameBytes)
    (hr : rest.length < ofBE header) :
    parseFrames decode (header ++ rest) = [.error connectionClosed] := by
  have ht : (header ++ rest).take 4 = header := by rw [← h, List.take_left]
  rw [parseFrames, if_neg (by rw [List.length_append]; omega)]
  simp only [ht]
  rw [if_neg (by omega), if_pos (by rw [List.length_append]; omega)]

theorem parseFrames_frame (h : header.length = 4) (hs : ofBE header ≤ maxFrameBytes)
    (hp : payload.length = ofBE header) :
    parseFrames decode (header ++ payload ++ rest) =
      match decode payload with
      | .ok frame => .ok frame :: parseFrames decode rest
      | .error message => [.error ⟨.invalidData, message⟩] := by
  have ht : (header ++ payload ++ rest).take 4 = header := by
    rw [← h, List.append_assoc, List.take_left]
  have hb : ((header ++ payload ++ rest).drop 4).take (ofBE header) = payload := by
    rw [← h, ← hp, List.append_assoc, List.drop_left, List.take_left]
  have hd : (header ++ payload ++ rest).drop (4 + ofBE header) = rest := by
    rw [← hp, ← h, ← List.length_append, List.drop_left]
  rw [parseFrames, if_neg (by simp only [List.length_append]; omega)]
  simp only [ht, hb, hd]
  rw [if_neg (by omega), if_neg (by simp only [List.length_append]; omega)]

end

/-- What a call of `readFrame` does with the turns `used`. -/
structure FrameSpec {α : Type} (decode : List UInt8 → Except String α) (args : ReadArgs)
    (conn : Conn) (turns : List Turn) (c : Call α) (used : List Turn) : Prop where
  turns : turns = used ++ c.turns
  progress : c.result ≠ .waiting → used ≠ []
  keeps : ∀ a, Ended a conn.flags → Ended a c.conn.flags
  raised : ∀ a, Ended a c.conn.flags → Ended a conn.flags ∨ ∃ t ∈ used, t.Raises a
  delivered : Ended args c.conn.flags ∨ c.result = .err connectionClosed ∨
    used.countP Turn.delivers + c.conn.rest.length ≤ conn.rest.length
  ok : ∀ frame, c.result = .ok frame →
    parseFrames decode conn.rest = .ok frame :: parseFrames decode c.conn.rest
  waiting : c.result = .waiting → c.turns = []
  err : ∀ e, c.result = .err e →
    e.timeout = false ∧ parseFrames decode conn.rest = [.error e] ∨
    Ended args c.conn.flags ∨
    e.timeout = true ∧ args.returnOnIdleTimeout = true ∧ c.conn.rest = conn.rest ∨
    ∃ t ∈ used, t.Fails ∧ t.read = .error e

theorem readFrame_spec {α : Type} (decode : List UInt8 → Except String α) (args : ReadArgs)
    (conn : Conn) (turns : List Turn) :
    ∃ used, FrameSpec decode args conn turns (readFrame decode args conn turns) used := by
  obtain ⟨got, used, h⟩ := readExact_spec args 4 turns [] conn (by simp)
  unfold readFrame
  match readExactPreservingProgress args 4 [] conn turns, h with
  | ⟨.waiting, conn', turns'⟩, h =>
    exact ⟨used, h.turns, by simp, h.keeps, h.raised, by simpa using h.count, by simp,
      fun _ => h.waiting rfl, by simp⟩
  | ⟨.err e, conn', turns'⟩, h =>
    refine ⟨used, h.turns, fun _ => h.progress (by simp) (by simp), h.keeps, h.raised,
      by simpa using h.count, by simp, by simp, ?_⟩
    intro e' he
    obtain rfl : e = e' := by simpa using he
    rcases h.err e rfl with ⟨rfl, hr, hl⟩ | he | ⟨he, hi, hg, _⟩ | he
    · refine .inl ⟨rfl, parseFrames_short decode ?_⟩
      rw [h.bytes, hr, List.append_nil]
      simpa using hl
    · exact .inr (.inl he)
    · exact .inr (.inr (.inl ⟨he, hi, by rw [h.bytes, hg]; rfl⟩))
    · exact .inr (.inr (.inr he))
  | ⟨.ok header, conn', turns'⟩, h =>
    obtain ⟨hheader, hl⟩ := h.ok header rfl
    rw [List.nil_append] at hheader
    subst hheader
    have hprogress := h.progress (by simp) (by simp)
    dsimp only
    split
    · next hs =>
      refine ⟨used, h.turns, fun _ => hprogress, h.keeps, h.raised, ?_, by simp, by simp, ?_⟩
      · exact h.count.imp_right fun hc => .inr (by simpa using hc)
      · intro e he
        obtain rfl : frameTooLarge = e := by simpa using he
        exact .inl ⟨rfl, by rw [h.bytes]; exact parseFrames_large decode hl hs⟩
    · next hs =>
      obtain ⟨data, more, hb⟩ := readExact_spec { args with returnOnIdleTimeout := false }
        (ofBE header) turns' [] conn' (by simp)
      have hne : used ++ more ≠ [] := by simp [hprogress]
      generalize readExactPreservingProgress _ (ofBE header) [] conn' turns' = c at hb
      have hturns : turns = used ++ more ++ c.turns := by
        rw [List.append_assoc, ← hb.turns]; exact h.turns
      have hkeeps (a : ReadArgs) : Ended a conn.flags → Ended a c.conn.flags :=
        hb.keeps a ∘ h.keeps a
      have hraised (a : ReadArgs) (he : Ended a c.conn.flags) :
          Ended a conn.flags ∨ ∃ t ∈ used ++ more, t.Raises a := by
        rcases hb.raised a he with he | ⟨t, ht, he⟩
        · rcases h.raised a he with he | ⟨t, ht, he⟩
          · exact .inl he
          · exact .inr ⟨t, List.mem_append_left _ ht, he⟩
        · exact .inr ⟨t, List.mem_append_right _ ht, he⟩
      have hcount : Ended args c.conn.flags ∨ c.result = .err connectionClosed ∨
          (used ++ more).countP Turn.delivers + c.conn.rest.length ≤ conn.rest.length := by
        rcases h.count with he | he | h1
        · exact .inl (hb.keeps _ he)
        · cases he
        · refine hb.count.imp_right (Or.imp_right fun h2 => ?_)
          replace h1 : _ + conn'.rest.length ≤ _ := h1
          rw [List.countP_append]
          omega
      match c with
      | ⟨.waiting, conn'', turns''⟩ =>
        exact ⟨used ++ more, hturns, fun _ => hne, hkeeps, hraised, by simpa using hcount, by simp,
          fun _ => hb.waiting rfl, by simp⟩
      | ⟨.err e, conn'', turns''⟩ =>
        refine ⟨used ++ more, hturns, fun _ => hne, hkeeps, hraised, by simpa using hcount,
          by simp, by simp, ?_⟩
        intro e' he
        obtain rfl : e = e' := by simpa using he
        rcases hb.err e rfl with ⟨rfl, hr, hlen⟩ | he | ⟨_, hidle, _⟩ | ⟨t, ht, he⟩
        · refine .inl ⟨rfl, ?_⟩
          have hcut : conn'.rest.length < ofBE header := by
            rw [hb.bytes, hr, List.append_nil]; simpa using hlen
          rw [h.bytes]
          exact parseFrames_cut decode hl (by omega) hcut
        · exact .inr (.inl he)
        · cases hidle
        · exact .inr (.inr (.inr ⟨t, List.mem_append_right _ ht, he⟩))
      | ⟨.ok payload, conn'', turns''⟩ =>
        obtain ⟨hpayload, hlen⟩ := hb.ok payload rfl
        rw [List.nil_append] at hpayload
        subst hpayload
        have hstream : conn.rest = header ++ payload ++ conn''.rest := by
          rw [h.bytes, hb.bytes, List.append_assoc]
        have hparse := hstream ▸ parseFrames_frame decode hl (by omega) hlen
        have hcount : Ended args conn''.flags ∨
          (used ++ more).countP Turn.delivers + conn''.rest.length ≤ conn.rest.length := by
          simpa using hcount
        dsimp only
        cases hd : decode payload with
        | ok frame =>
          rw [hd] at hparse
          exact ⟨used ++ more, hturns, fun _ => hne, hkeeps, hraised,
            hcount.imp_right .inr, by simpa using hparse, by simp, by simp⟩
        | error message =>
          rw [hd] at hparse
          refine ⟨used ++ more, hturns, fun _ => hne, hkeeps, hraised,
            hcount.imp_right .inr, by simp, by simp, ?_⟩
          intro e he
          obtain rfl : ⟨.invalidData, message⟩ = e := by simpa using he
          exact .inl ⟨rfl, hparse⟩

/-- A call that finds a flag raised takes no frame. -/
theorem readExact_ended {args : ReadArgs} {size : Nat} {conn : Conn} (hs : 0 < size)
    (h : Ended args conn.flags) (turns : List Turn) (d : List UInt8) :
    (readExactPreservingProgress args size [] conn turns).result ≠ .ok d := by
  unfold readExactPreservingProgress
  rw [if_neg (by simp; omega)]
  match turns with
  | [] => simp
  | turn :: turns =>
    have he := (ended_raise args conn.flags turn.before).mpr (.inl h)
    dsimp only
    rcases he with he | he | he
    · simp [he]
    · simp only [he, Bool.and_self, if_true]
      split <;> simp
    · simp only [he, Bool.and_self, if_true]
      split
      · simp
      · split <;> simp

theorem readFrame_ended {α : Type} (decode : List UInt8 → Except String α) {args : ReadArgs}
    {conn : Conn} (h : Ended args conn.flags) (turns : List Turn) (frame : α) :
    (readFrame decode args conn turns).result ≠ .ok frame := by
  have hno := readExact_ended (by decide : 0 < 4) h turns
  unfold readFrame
  match readExactPreservingProgress args 4 [] conn turns, hno with
  | ⟨.waiting, _, _⟩, _ => simp
  | ⟨.err e, _, _⟩, _ => simp
  | ⟨.ok header, _, _⟩, hno => exact absurd rfl (hno header)

/-! ## Repeated calls -/

section
variable {α : Type}

def frames (results : List (Except IoError α)) : List α := results.filterMap Except.toOption

def isTimeout : Except IoError α → Bool
  | .ok _ => false
  | .error e => e.timeout

/-- What the calls return but the time-outs. -/
def settled (results : List (Except IoError α)) : List (Except IoError α) :=
  results.filter fun r => !isTimeout r

/-- `results` come from `bytes`: the frames are those of the stream, from its
first on; if nothing but time-outs came between the reads (`quiet`), so are
the errors; and if the reads went far enough (`complete`), nothing is missing. -/
structure Follows (decode : List UInt8 → Except String α) (bytes : List UInt8)
    (quiet complete : Prop) (results : List (Except IoError α)) : Prop where
  frames : frames results <+: frames (parseFrames decode bytes)
  settled : quiet → settled results <+: parseFrames decode bytes
  whole : quiet → complete → ReliableFraming.settled results = parseFrames decode bytes

/-- Every read that gives no bytes is a time-out, and no flag is raised. -/
def Quiet (args : ReadArgs) (turns : List Turn) : Prop :=
  ∀ t ∈ turns, ¬t.Raises args ∧ ¬t.Fails

variable {decode : List UInt8 → Except String α} {args : ReadArgs} {bytes rest : List UInt8}
  {quiet complete : Prop} {results : List (Except IoError α)}

theorem frames_ended (n : Nat) :
    ∀ {conn : Conn} (turns : List Turn), Ended args conn.flags →
      frames (readFrames decode args n conn turns) = [] := by
  induction n with
  | zero => intro conn turns _; rfl
  | succ n ih =>
    intro conn turns h
    obtain ⟨used, hc⟩ := readFrame_spec decode args conn turns
    have hno := readFrame_ended decode h turns
    unfold readFrames
    match readFrame decode args conn turns, hc, hno with
    | ⟨.waiting, _, _⟩, _, _ => rfl
    | ⟨.ok frame, _, _⟩, _, hno => exact absurd rfl (hno frame)
    | ⟨.err e, conn', turns'⟩, hc, _ =>
      dsimp only
      split
      · exact ih turns' (hc.keeps _ h)
      · rfl

theorem Follows.nil (h : quiet → ¬complete) : Follows decode bytes quiet complete [] where
  frames := List.nil_prefix
  settled _ := List.nil_prefix
  whole hq hc := absurd hc (h hq)

theorem Follows.disturbed (hf : ReliableFraming.frames results = []) (hq : ¬quiet) :
    Follows decode bytes quiet complete results where
  frames := hf ▸ List.nil_prefix
  settled h := absurd h hq
  whole h := absurd h hq

theorem Follows.ok {frame : α}
    (hp : parseFrames decode bytes = .ok frame :: parseFrames decode rest)
    (h : Follows decode rest quiet complete results) :
    Follows decode bytes quiet complete (.ok frame :: results) where
  frames := by
    rw [hp]
    exact (List.prefix_cons_inj frame).mpr h.frames
  settled hq := by
    rw [hp]
    exact (List.prefix_cons_inj _).mpr (h.settled hq)
  whole hq hc := by
    rw [hp, ← h.whole hq hc]
    rfl

theorem Follows.timeout {e : IoError} (he : e.timeout = true)
    (h : Follows decode bytes quiet complete results) :
    Follows decode bytes quiet complete (.error e :: results) := by
  have hs : ReliableFraming.settled (.error e :: results) = ReliableFraming.settled results := by
    simp [ReliableFraming.settled, isTimeout, he]
  exact ⟨h.frames, fun hq => hs ▸ h.settled hq, fun hq hc => hs ▸ h.whole hq hc⟩

theorem Follows.last {e : IoError} (he : e.timeout = false)
    (hp : parseFrames decode bytes = [.error e]) :
    Follows decode bytes quiet complete [.error e] := by
  have hs : ReliableFraming.settled [(.error e : Except IoError α)] = parseFrames decode bytes := by
    simp [ReliableFraming.settled, isTimeout, he, hp]
  exact ⟨List.nil_prefix, fun _ => hs ▸ List.prefix_rfl, fun _ _ => hs⟩

theorem Follows.mono {quiet' complete' : Prop} (h : Follows decode bytes quiet complete results)
    (hq : quiet' → quiet) (hc : quiet' → complete' → complete) :
    Follows decode bytes quiet' complete' results where
  frames := h.frames
  settled := h.settled ∘ hq
  whole hq' hc' := h.whole (hq hq') (hc hq' hc')

/-- Nothing has ended the calls so far, and nothing will. -/
def Open (args : ReadArgs) (conn : Conn) (turns : List Turn) : Prop :=
  ¬Ended args conn.flags ∧ Quiet args turns

/-- The turns deliver the rest of the stream and its end. -/
def Enough (conn : Conn) (turns : List Turn) : Prop :=
  conn.rest.length < turns.countP Turn.delivers

theorem FrameSpec.stays_open {conn : Conn} {turns used : List Turn} {c : Call α}
    (h : FrameSpec decode args conn turns c used) (hq : Open args conn turns) :
    Open args c.conn c.turns := by
  refine ⟨fun he => ?_, fun t ht => hq.2 t (h.turns ▸ List.mem_append_right _ ht)⟩
  rcases h.raised _ he with he | ⟨t, ht, he⟩
  · exact hq.1 he
  · exact (hq.2 t (h.turns ▸ List.mem_append_left _ ht)).1 he

theorem FrameSpec.shorter {conn : Conn} {turns used : List Turn} {c : Call α}
    (h : FrameSpec decode args conn turns c used) (hc : c.result ≠ .waiting) :
    c.turns.length < turns.length := by
  have := List.length_pos_iff.mpr (h.progress hc)
  rw [h.turns, List.length_append]
  omega

theorem FrameSpec.enough {conn : Conn} {turns used : List Turn} {c : Call α}
    (h : FrameSpec decode args conn turns c used) (hq : Open args conn turns)
    (hc : c.result ≠ .err connectionClosed) (he : Enough conn turns) : Enough c.conn c.turns := by
  unfold Enough at he ⊢
  rw [h.turns, List.countP_append] at he
  rcases h.delivered with hd | hd | hd
  · exact absurd hd (h.stays_open hq).1
  · exact absurd hd hc
  · omega

theorem readFrames_follows (n : Nat) :
    ∀ (conn : Conn) (turns : List Turn),
      Follows decode conn.rest (Open args conn turns) (Enough conn turns ∧ turns.length < n)
        (readFrames decode args n conn turns) := by
  induction n with
  | zero => intro conn turns; exact .nil (by omega)
  | succ n ih =>
    intro conn turns
    obtain ⟨used, hc⟩ := readFrame_spec decode args conn turns
    unfold readFrames
    match readFrame decode args conn turns, hc with
    | ⟨.waiting, conn', turns'⟩, hc =>
      refine .nil fun hq h => ?_
      have he := hc.enough hq (by simp) h.1
      rw [hc.waiting rfl] at he
      exact Nat.not_lt_zero _ he
    | ⟨.ok frame, conn', turns'⟩, hc =>
      have hlen : turns'.length < turns.length := hc.shorter (by simp)
      refine .ok (hc.ok frame rfl) ((ih conn' turns').mono hc.stays_open fun hq h => ?_)
      exact ⟨hc.enough hq (by simp) h.1, by omega⟩
    | ⟨.err e, conn', turns'⟩, hc =>
      have hlen : turns'.length < turns.length := hc.shorter (by simp)
      dsimp only
      rcases hc.err e rfl with ⟨he, hp⟩ | he | ⟨he, _, hr⟩ | ⟨t, ht, hf, he⟩
      · rw [he]
        exact .last he hp
      · refine .disturbed ?_ fun hq => (hc.stays_open hq).1 he
        show frames (if _ then _ else _) = []
        split
        · exact frames_ended n turns' he
        · rfl
      · rw [if_pos he]
        refine .timeout he ?_
        rw [← hr]
        refine (ih conn' turns').mono hc.stays_open fun hq h => ⟨hc.enough hq ?_ h.1, by omega⟩
        intro heq
        cases heq
        cases he
      · have hto : e.timeout = false := by
          obtain ⟨e', he', hto⟩ := hf
          rw [he] at he'
          cases he'
          exact hto
        rw [hto]
        exact .disturbed rfl fun hq => (hq.2 t (hc.turns ▸ List.mem_append_left _ ht)).2 hf

/-- The deadline has not passed when the handshake's call is over, and nothing
that the session's calls look at is raised. -/
def QuietConnection (decode : List UInt8 → Except String α) (bytes : List UInt8)
    (turns : List Turn) : Prop :=
  Quiet ⟨true, true, false⟩ turns ∧
    (readFrame decode ⟨false, false, true⟩ ⟨{}, bytes⟩ turns).conn.flags.late = false

theorem readConnection_follows (n : Nat) (bytes : List UInt8) (turns : List Turn) :
    Follows decode bytes (QuietConnection decode bytes turns)
      (Enough ⟨{}, bytes⟩ turns ∧ turns.length ≤ n) (readConnection decode n bytes turns) := by
  obtain ⟨used, hc⟩ := readFrame_spec decode ⟨false, false, true⟩ ⟨{}, bytes⟩ turns
  -- the flags the session looks at are down after the handshake's call
  have hsession (hq : QuietConnection decode bytes turns) : Open ⟨true, true, false⟩
      (readFrame decode ⟨false, false, true⟩ ⟨{}, bytes⟩ turns).conn
      (readFrame decode ⟨false, false, true⟩ ⟨{}, bytes⟩ turns).turns := by
    refine ⟨fun he => ?_, fun t ht => hq.1 t (hc.turns ▸ List.mem_append_right _ ht)⟩
    rcases hc.raised _ he with he | ⟨t, ht, he⟩
    · simp [Ended] at he
    · exact (hq.1 t (hc.turns ▸ List.mem_append_left _ ht)).1 he
  have hopen (hq : QuietConnection decode bytes turns) : ¬Ended ⟨false, false, true⟩
      (readFrame decode ⟨false, false, true⟩ ⟨{}, bytes⟩ turns).conn.flags := by
    intro he
    rcases he with he | he | he
    · exact (hsession hq).1 (.inl he)
    · cases he.1
    · rw [hq.2] at he; cases he.2
  have henough (hq : QuietConnection decode bytes turns)
      (hne : (readFrame decode ⟨false, false, true⟩ ⟨{}, bytes⟩ turns).result ≠
        .err connectionClosed) (he : Enough ⟨{}, bytes⟩ turns) :
      Enough (readFrame decode ⟨false, false, true⟩ ⟨{}, bytes⟩ turns).conn
        (readFrame decode ⟨false, false, true⟩ ⟨{}, bytes⟩ turns).turns := by
    unfold Enough at he ⊢
    rw [hc.turns, List.countP_append] at he
    rcases hc.delivered with hd | hd | hd
    · exact absurd hd (hopen hq)
    · exact absurd hd hne
    · omega
  unfold readConnection
  match readFrame decode ⟨false, false, true⟩ ⟨{}, bytes⟩ turns, hc, hsession, hopen, henough with
  | ⟨.waiting, conn, turns'⟩, hc, _, _, henough =>
    refine .nil fun hq h => ?_
    have he := henough hq (by simp) h.1
    rw [hc.waiting rfl] at he
    exact Nat.not_lt_zero _ he
  | ⟨.ok frame, conn, turns'⟩, hc, hsession, _, henough =>
    have hlen : turns'.length < turns.length := hc.shorter (by simp)
    refine .ok (hc.ok frame rfl) ((readFrames_follows n conn turns').mono hsession fun hq h => ?_)
    exact ⟨henough hq (by simp) h.1, by omega⟩
  | ⟨.err e, conn, turns'⟩, hc, hsession, hopen, _ =>
    dsimp only
    rcases hc.err e rfl with ⟨he, hp⟩ | he | ⟨_, hidle, _⟩ | ⟨t, ht, hf, he⟩
    · exact .last he hp
    · exact .disturbed rfl fun hq => hopen hq he
    · cases hidle
    · exact .disturbed rfl fun hq => (hq.1 t (hc.turns ▸ List.mem_append_left _ ht)).2 hf

/-- Whatever the reads and wherever the time-outs, the calls return the frames
of the stream read at once, and a call that times out has taken nothing. -/
theorem frames_survive_timeouts (decode : List UInt8 → Except String α) (n : Nat)
    (bytes : List UInt8) (turns : List Turn) :
    (∀ args, Follows decode bytes (Quiet args turns) (Enough ⟨{}, bytes⟩ turns ∧ turns.length < n)
      (readFrames decode args n ⟨{}, bytes⟩ turns)) ∧
    Follows decode bytes (QuietConnection decode bytes turns)
      (Enough ⟨{}, bytes⟩ turns ∧ turns.length ≤ n) (readConnection decode n bytes turns) ∧
    ∀ args flags e, (readFrame decode args ⟨flags, bytes⟩ turns).result = .err e →
      e.timeout = true →
      (readFrame decode args ⟨flags, bytes⟩ turns).conn.rest = bytes ∨
        Ended args (readFrame decode args ⟨flags, bytes⟩ turns).conn.flags := by
  refine ⟨fun args => ?_, readConnection_follows n bytes turns, fun args flags e h he => ?_⟩
  · refine (readFrames_follows n ⟨{}, bytes⟩ turns).mono (fun hq => ⟨?_, hq⟩) fun _ h => h
    simp [Ended]
  · obtain ⟨used, hc⟩ := readFrame_spec decode args ⟨flags, bytes⟩ turns
    rcases hc.err e h with ⟨hno, _⟩ | hended | ⟨_, _, hr⟩ | ⟨t, _, ⟨e', ht', hno⟩, ht⟩
    · rw [he] at hno; cases hno
    · exact .inr hended
    · exact .inl hr
    · rw [ht] at ht'
      cases ht'
      rw [he] at hno
      cases hno

end

/-- Two bytes of a header, a time-out, its other two, a time-out in the body,
the body and the end of the stream. -/
def splitTurns : List Turn :=
  [⟨{}, .bytes 1, {}⟩, ⟨{}, .error ⟨.wouldBlock, ""⟩, {}⟩, ⟨{}, .bytes 9, {}⟩, ⟨{}, .bytes 0, {}⟩,
   ⟨{}, .error ⟨.timedOut, ""⟩, {}⟩, ⟨{}, .bytes 9, {}⟩, ⟨{}, .error ⟨.timedOut, ""⟩, {}⟩,
   ⟨{}, .bytes 0, {}⟩, ⟨{}, .bytes 0, {}⟩, ⟨{}, .bytes 0, {}⟩]

def rawBody (data : List UInt8) : Except String (List UInt8) := .ok data

theorem splitTurns_quiet : Quiet ⟨true, true, false⟩ splitTurns := by
  intro t ht
  simp only [splitTurns, List.mem_cons, List.not_mem_nil, or_false] at ht
  rcases ht with rfl | rfl | rfl | rfl | rfl | rfl | rfl | rfl | rfl | rfl <;>
    simp [Turn.Raises, Ended, Turn.Fails, IoError.timeout]

theorem splitTurns_frames :
    settled (readFrames rawBody ⟨true, true, false⟩ 11 ⟨{}, [0, 0, 0, 2, 7, 8]⟩
      splitTurns) = parseFrames rawBody [0, 0, 0, 2, 7, 8] :=
  ((frames_survive_timeouts rawBody 11 [0, 0, 0, 2, 7, 8] splitTurns).1 _).whole splitTurns_quiet
    (by unfold Enough; decide)

example : readFrames rawBody ⟨true, true, false⟩ 11 ⟨{}, [0, 0, 0, 2, 7, 8]⟩
    splitTurns = [.ok [7, 8], .error ⟨.timedOut, ""⟩, .error connectionClosed] := by decide

/-! ## The sender's half -/

/-- mirrors src-tauri/src/reliable_playback.rs:722-732 -/
def encodeFrame (data : List UInt8) : List UInt8 := be 4 data.length ++ data

/-- What the sender frames the reader finds, frame by frame. -/
theorem parseFrames_encodeFrame {α : Type} (decode : List UInt8 → Except String α)
    (data rest : List UInt8) (h : data.length ≤ maxFrameBytes) :
    parseFrames decode (encodeFrame data ++ rest) =
      match decode data with
      | .ok frame => .ok frame :: parseFrames decode rest
      | .error message => [.error ⟨.invalidData, message⟩] := by
  have hsize : ofBE (be 4 data.length) = data.length := ofBE_be (by unfold maxFrameBytes at h; omega)
  exact parseFrames_frame decode (length_be ..) (by rw [hsize]; exact h) hsize.symm

end RtpOscMidi.L1.ReliableFraming
