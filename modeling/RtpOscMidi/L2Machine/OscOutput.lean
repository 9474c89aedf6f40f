import RtpOscMidi.Core.LTS
import RtpOscMidi.Core.Bits
import RtpOscMidi.Core.Lists
import RtpOscMidi.L1Encoding.MidiMessage

/-!
# The OSC switches

`OscOutputState` combines what every source holds on every channel into one
switch for each of the 88 notes and one for the sustain pedal, and remembers
of each switch the value it has sent. A flush sends the switches whose value
differs, one by one, and stops at the first send that fails.

* `flush_spec`: what a flush sends and records, in both of its ends.
* `pressed_observe`: a frame does to the switches of its source what it does
  to the notes and the sustain pedal of an instrument.
* `reachable_sent`: what is recorded is what was last sent.
-/
namespace RtpOscMidi.L2.OscOutput

open Core L1.MidiMessage

/-- `note i` is the parameter of index `i + 1`, `sustain` the one without an
index. -/
inductive Switch where
  | note (i : Fin 88)
  | sustain
  deriving DecidableEq, Repr

/-- The order in which `flush` goes through the switches. -/
def switches : List Switch := (List.finRange 88).map .note ++ [.sustain]

/-- mirrors src-tauri/src/bridge/pipeline.rs:228-232 -/
structure OscSourceState where
  notes : Fin 16 → BitVec 128
  sustain : Fin 16 → Bool

def OscSourceState.default : OscSourceState := ⟨fun _ => 0, fun _ => false⟩

/-- mirrors src-tauri/src/bridge/pipeline.rs:222-226 -/
structure OscOutputState where
  sources : AList fun _ : String => OscSourceState
  sentNotes : BitVec 128
  sentSustain : Bool

namespace OscOutputState

def default : OscOutputState := ⟨∅, 0, false⟩

/-- mirrors src-tauri/src/bridge/pipeline.rs:235-238 -/
def resetSent (st : OscOutputState) : OscOutputState :=
  { st with sentNotes := 0, sentSustain := false }

/-- mirrors src-tauri/src/bridge/pipeline.rs:240-243 -/
def clear (st : OscOutputState) : OscOutputState := { st with sources := ∅ }.resetSent

end OscOutputState

/-- mirrors src-tauri/src/bridge/pipeline.rs:271-288 -/
def OscSourceState.update (source : OscSourceState) (status : UInt8) (data : List UInt8) :
    OscSourceState :=
  let c := channel status
  match parseNote data with
  | some note =>
    match note.index with
    | some index =>
      match note.kind with
      | .noteOn =>
        { source with notes := Function.update source.notes c (setBit (source.notes c) (index - 1)) }
      | .noteOff =>
        { source with
          notes := Function.update source.notes c (clearBit (source.notes c) (index - 1)) }
    | none => source
  | none =>
    match parseSustain data with
    | some sustain => { source with sustain := Function.update source.sustain c sustain.pressed }
    | none =>
      match data with
      | [_, d1, _] =>
        if status &&& 0xF0 = 0xB0 then
          if d1 = 120 ∨ (123 ≤ d1 ∧ d1 ≤ 127) then
            { source with notes := Function.update source.notes c 0 }
          else if d1 = 121 then { source with sustain := Function.update source.sustain c false }
          else source
        else source
      | _ => source

/-- mirrors the test of src-tauri/src/bridge/pipeline.rs:289-290 -/
def OscSourceState.isEmpty (source : OscSourceState) : Bool :=
  ((List.finRange 16).all fun c => source.notes c == 0) &&
    (List.finRange 16).all fun c => !source.sustain c

/-- `HashMap::retain` on the keys. -/
def retain (keep : String → Bool) (sources : AList fun _ : String => OscSourceState) :
    AList fun _ : String => OscSourceState :=
  ⟨sources.entries.filter fun e => keep e.1, sources.nodupKeys.sublist List.filter_sublist⟩

def startsWith (pre s : String) : Bool := pre.toList.isPrefixOf s.toList

/-- The test for the server's own release of every playback source.
mirrors src-tauri/src/bridge/pipeline.rs:260-263 -/
def isServerStop (frame : MidiFrame) : Bool :=
  match frame.data with
  | [status, d1, _] =>
    frame.source == "ReliablePLV:server-stop" && status &&& 0xF0 == 0xB0 && (d1 == 120 || d1 == 123)
  | _ => false

/-- mirrors src-tauri/src/bridge/pipeline.rs:245-294 -/
def observe (st : OscOutputState) (frame : MidiFrame) : OscOutputState :=
  match frame.data with
  | [] => st
  | status :: _ =>
    if frame.data = [0xFF] then
      if startsWith "RTP:" frame.source then { st with sources := st.sources.erase frame.source }
      else { st with sources := ∅ }
    else if ¬(0x80 ≤ status ∧ status < 0xF0) then st
    else if isServerStop frame then
      { st with sources := retain (fun key => !startsWith "ReliablePLV:" key) st.sources }
    else
      let source := ((st.sources.lookup frame.source).getD .default).update status frame.data
      if source.isEmpty then { st with sources := st.sources.erase frame.source }
      else { st with sources := st.sources.insert frame.source source }

/-! ## Flush -/

/-- The value recorded as sent. -/
def OscOutputState.sent (st : OscOutputState) : Switch → Bool
  | .note i => st.sentNotes.getLsbD i
  | .sustain => st.sentSustain

def OscOutputState.record (st : OscOutputState) (switch : Switch) (pressed : Bool) :
    OscOutputState :=
  match switch with
  | .note i =>
    { st with sentNotes := if pressed then setBit st.sentNotes i else clearBit st.sentNotes i }
  | .sustain => { st with sentSustain := pressed }

/-- mirrors src-tauri/src/bridge/pipeline.rs:301-309 -/
def wanted (st : OscOutputState) : Switch → Bool :=
  let states := st.sources.entries.map Sigma.snd
  let notes := (states.flatMap fun source => (List.finRange 16).map source.notes).foldl (· ||| ·) 0
  let sustain := states.any fun source => (List.finRange 16).any source.sustain
  fun
    | .note i => notes.getLsbD i
    | .sustain => sustain

abbrev Call := Switch × Bool

/-- `calls` are the calls of `send`, the one that failed included. -/
structure Flushed where
  result : Except String Unit
  st : OscOutputState
  calls : List Call

/-- The loop over the notes and the test of the sustain switch after it.
What `send` answers may depend on the calls before.
mirrors src-tauri/src/bridge/pipeline.rs:310-326 -/
def flushLoop (send : List Call → Call → Except String Unit) (want : Switch → Bool) :
    List Switch → OscOutputState → List Call → Flushed
  | [], st, calls => ⟨.ok (), st, calls⟩
  | switch :: switches, st, calls =>
    let pressed := want switch
    if pressed ≠ st.sent switch then
      match send calls (switch, pressed) with
      | .ok () =>
        flushLoop send want switches (st.record switch pressed) (calls ++ [(switch, pressed)])
      | .error e => ⟨.error e, st, calls ++ [(switch, pressed)]⟩
    else flushLoop send want switches st calls

/-- mirrors src-tauri/src/bridge/pipeline.rs:297-327 -/
def flush (send : List Call → Call → Except String Unit) (st : OscOutputState) : Flushed :=
  flushLoop send (wanted st) switches st []

theorem mem_switches (switch : Switch) : switch ∈ switches := by
  cases switch <;> simp [switches]

theorem switches_nodup : switches.Nodup := by decide

@[simp]
theorem sent_record (st : OscOutputState) (switch w : Switch) (pressed : Bool) :
    (st.record switch pressed).sent w = if w = switch then pressed else st.sent w := by
  cases switch with
  | note i =>
    cases w with
    | note j =>
      by_cases hij : j = i
      · subst hij
        have hlt : (j : Nat) < 128 := by omega
        cases pressed <;> simp [OscOutputState.record, OscOutputState.sent, hlt]
      · have hne : (j : Nat) ≠ i := fun h => hij (Fin.ext h)
        cases pressed <;> simp [OscOutputState.record, OscOutputState.sent, hij, hne]
    | sustain => simp [OscOutputState.record, OscOutputState.sent]
  | sustain => cases w <;> simp [OscOutputState.record, OscOutputState.sent]

@[simp]
theorem sources_record (st : OscOutputState) (switch : Switch) (pressed : Bool) :
    (st.record switch pressed).sources = st.sources := by cases switch <;> rfl

/-- The calls that are left to make for the switches of a list. -/
def pending (want : Switch → Bool) (order : List Switch) (st : OscOutputState) : List Call :=
  (order.filter fun w => want w != st.sent w).map fun w => (w, want w)

/-- The switches whose value is not the one recorded, each once. -/
def changes (st : OscOutputState) : List Call := pending (wanted st) switches st

def recordAll (st : OscOutputState) (calls : List Call) : OscOutputState :=
  calls.foldl (fun st c => st.record c.1 c.2) st

theorem sources_recordAll (calls : List Call) :
    ∀ st, (recordAll st calls).sources = st.sources := by
  induction calls with
  | nil => intro st; rfl
  | cons c calls ih =>
    intro st
    show (recordAll (st.record c.1 c.2) calls).sources = _
    rw [ih, sources_record]

theorem sent_recordAll_of_ne {w : Switch} (calls : List Call) :
    ∀ st, (∀ c ∈ calls, w ≠ c.1) → (recordAll st calls).sent w = st.sent w := by
  induction calls with
  | nil => intro st _; rfl
  | cons c calls ih =>
    intro st h
    show (recordAll (st.record c.1 c.2) calls).sent w = _
    rw [ih _ fun c' hc' => h c' (List.mem_cons_of_mem _ hc'), sent_record, if_neg (h c (by simp))]

/-- Recording one switch leaves the pending calls of the others. -/
theorem pending_record {want : Switch → Bool} {order : List Switch} (st : OscOutputState)
    {switch : Switch} (h : switch ∉ order) (pressed : Bool) :
    pending want order (st.record switch pressed) = pending want order st := by
  unfold pending
  congr 1
  refine List.filter_congr fun w hw => ?_
  have hne : w ≠ switch := fun he => h (he ▸ hw)
  rw [sent_record, if_neg hne]

theorem pending_cons_of_ne {want : Switch → Bool} (order : List Switch) {st : OscOutputState}
    {switch : Switch} (h : want switch ≠ st.sent switch) :
    pending want (switch :: order) st = (switch, want switch) :: pending want order st := by
  unfold pending
  rw [List.filter_cons_of_pos (by simpa using h), List.map_cons]

theorem pending_cons_of_eq {want : Switch → Bool} (order : List Switch) {st : OscOutputState}
    {switch : Switch} (h : want switch = st.sent switch) :
    pending want (switch :: order) st = pending want order st := by
  unfold pending
  rw [List.filter_cons_of_neg (by simpa using h)]

theorem mem_pending {want : Switch → Bool} {order : List Switch} {st : OscOutputState} {c : Call} :
    c ∈ pending want order st ↔ c.1 ∈ order ∧ c.2 = want c.1 ∧ want c.1 ≠ st.sent c.1 := by
  obtain ⟨w, v⟩ := c
  simp only [pending, List.mem_map, List.mem_filter, bne_iff_ne, Prod.mk.injEq]
  constructor
  · intro ⟨w', ⟨h, hne⟩, hw, hv⟩
    subst hw
    exact ⟨h, hv.symm, hne⟩
  · intro ⟨h, hv, hne⟩
    exact ⟨w, ⟨h, hne⟩, rfl, hv.symm⟩

/-- How a loop over `order` ends: with all its calls made, or at the first one
that failed. -/
inductive LoopEnd (want : Switch → Bool) (order : List Switch) (st : OscOutputState)
    (calls : List Call) (r : Flushed) : Prop where
  | done (result : r.result = .ok ()) (sent : r.calls = calls ++ pending want order st)
      (recorded : r.st = recordAll st (pending want order st))
      (left : pending want order r.st = [])
  | failed (e : String) (made : List Call) (c : Call) (rest : List Call)
      (result : r.result = .error e) (split : pending want order st = made ++ c :: rest)
      (sent : r.calls = calls ++ made ++ [c]) (recorded : r.st = recordAll st made)
      (left : pending want order r.st = c :: rest)

theorem flushLoop_spec (send : List Call → Call → Except String Unit) (want : Switch → Bool)
    (order : List Switch) (hnd : order.Nodup) :
    ∀ (st : OscOutputState) (calls : List Call),
      LoopEnd want order st calls (flushLoop send want order st calls) := by
  induction order with
  | nil => intro st calls; exact .done rfl (List.append_nil _).symm rfl rfl
  | cons switch order ih =>
    intro st calls
    obtain ⟨hmem, hnd⟩ := List.nodup_cons.mp hnd
    -- what the rest of the loop records leaves this switch alone
    have hframe (st' : OscOutputState) {made : List Call} (hsub : made ⊆ pending want order st) :
        (recordAll st' made).sent switch = st'.sent switch :=
      sent_recordAll_of_ne made st' fun c hc he => hmem (he ▸ (mem_pending.mp (hsub hc)).1)
    unfold flushLoop
    dsimp only
    by_cases hch : want switch = st.sent switch
    · rw [if_neg (not_not.mpr hch)]
      have hp := pending_cons_of_eq order hch
      cases ih hnd st calls with
      | done result sent recorded left =>
        refine .done result (hp ▸ sent) (hp ▸ recorded) ?_
        rw [pending_cons_of_eq, left]
        rw [recorded, hframe st (List.Subset.refl _), hch]
      | failed e made c rest result split sent recorded left =>
        refine .failed e made c rest result (hp ▸ split) sent recorded ?_
        rw [pending_cons_of_eq, left]
        rw [recorded, hframe st (by rw [split]; exact List.subset_append_left ..), hch]
    · rw [if_pos hch]
      have hp := pending_cons_of_ne order hch
      cases hs : send calls (switch, want switch) with
      | error e => exact .failed e [] (switch, want switch) _ rfl hp (by simp) rfl hp
      | ok =>
        dsimp only
        have hrec : pending want order (st.record switch (want switch)) = pending want order st :=
          pending_record st hmem _
        have hnow : (st.record switch (want switch)).sent switch = want switch := by
          rw [sent_record, if_pos rfl]
        cases ih hnd (st.record switch (want switch)) (calls ++ [(switch, want switch)]) with
        | done result sent recorded left =>
          rw [hrec] at sent recorded
          refine .done result (by rw [sent, hp, List.append_assoc]; rfl) (hp ▸ recorded) ?_
          rw [pending_cons_of_eq, left]
          rw [recorded, hframe _ (List.Subset.refl _), hnow]
        | failed e made c rest result split sent recorded left =>
          rw [hrec] at split
          refine .failed e ((switch, want switch) :: made) c rest result (by rw [hp, split]; rfl)
            (by rw [sent]; simp) recorded ?_
          rw [pending_cons_of_eq, left]
          rw [recorded, hframe _ (by rw [split]; exact List.subset_append_left ..), hnow]

theorem sources_flush (send : List Call → Call → Except String Unit) (st : OscOutputState) :
    (flush send st).st.sources = st.sources := by
  unfold flush
  cases flushLoop_spec send (wanted st) switches switches_nodup st [] with
  | done _ _ recorded _ => rw [recorded, sources_recordAll]
  | failed e made c rest _ _ _ recorded _ => rw [recorded, sources_recordAll]

theorem wanted_flush (send : List Call → Call → Except String Unit) (st : OscOutputState) :
    wanted (flush send st).st = wanted st := by
  unfold wanted
  rw [sources_flush]

/-- What a flush sends and records, and what it leaves to send. -/
theorem flush_spec (send : List Call → Call → Except String Unit) (st : OscOutputState) :
    (flush send st).result = .ok () ∧ (flush send st).calls = changes st ∧
      (flush send st).st = recordAll st (changes st) ∧ changes (flush send st).st = [] ∨
    ∃ e made c rest, (flush send st).result = .error e ∧ changes st = made ++ c :: rest ∧
      (flush send st).calls = made ++ [c] ∧ (flush send st).st = recordAll st made ∧
      changes (flush send st).st = c :: rest := by
  have hw := wanted_flush send st
  unfold changes
  rw [hw]
  cases flushLoop_spec send (wanted st) switches switches_nodup st [] with
  | done result sent recorded left => exact .inl ⟨result, sent, recorded, left⟩
  | failed e made c rest result split sent recorded left =>
    exact .inr ⟨e, made, c, rest, result, split, sent, recorded, left⟩

theorem mem_changes {st : OscOutputState} {c : Call} :
    c ∈ changes st ↔ c.2 = wanted st c.1 ∧ wanted st c.1 ≠ st.sent c.1 := by
  unfold changes
  rw [mem_pending]
  simp [mem_switches]

theorem changes_nodup (st : OscOutputState) : (changes st).Nodup := by
  refine List.Nodup.map_on ?_ (switches_nodup.filter _)
  intro w _ w' _ h
  exact (Prod.mk.inj h).1

theorem sent_of_changes_nil {st : OscOutputState} (h : changes st = []) (w : Switch) :
    st.sent w = wanted st w := by
  by_contra hne
  have hmem : (w, wanted st w) ∈ changes st := mem_changes.mpr ⟨rfl, fun he => hne he.symm⟩
  rw [h] at hmem
  cases hmem

/-! ## What the sources hold -/

def OscSourceState.has (source : OscSourceState) (c : Fin 16) : Switch → Bool
  | .note i => (source.notes c).getLsbD i
  | .sustain => source.sustain c

/-- The source holds the switch down on the channel. -/
def pressed (st : OscOutputState) (source : String) (c : Fin 16) (w : Switch) : Bool :=
  (st.sources.lookup source).any fun state => state.has c w

theorem wanted_eq_any (st : OscOutputState) (w : Switch) :
    wanted st w = (st.sources.entries.map Sigma.snd).any fun state =>
      (List.finRange 16).any fun c => state.has c w := by
  cases w with
  | note i =>
    refine (getLsbD_foldl_or (fun x => x) i _).trans ?_
    simp only [List.any_flatMap, List.any_map]
    rfl
  | sustain => rfl

/-- A switch is wanted down when some source holds it on some channel. -/
theorem wanted_iff (st : OscOutputState) (w : Switch) :
    wanted st w = true ↔ ∃ source c, pressed st source c w = true := by
  rw [wanted_eq_any, any_entries]
  unfold pressed
  refine exists_congr fun source => ?_
  cases st.sources.lookup source with
  | none => simp
  | some state => simp

theorem lookup_retain (keep : String → Bool) (sources : AList fun _ : String => OscSourceState)
    (s : String) : (retain keep sources).lookup s = if keep s then sources.lookup s else none := by
  refine Option.ext fun state => ?_
  have hmem : state ∈ (retain keep sources).lookup s ↔ keep s = true ∧ state ∈ sources.lookup s := by
    rw [AList.mem_lookup_iff, AList.mem_lookup_iff]
    simp [retain, and_comm]
  by_cases hk : keep s = true
  · rw [if_pos hk]
    simpa [hk] using hmem
  · rw [if_neg hk]
    simpa [hk] using hmem

/-- What a switch on a channel stands for. -/
def held (c : Fin 16) : Switch → Held
  | .note i => .note c ⟨i + 21, by omega⟩
  | .sustain => .pedal c 0

theorem adjustNote_index {note : UInt8} (i : Fin 88) :
    (∃ index, adjustNote note = some index ∧ index - 1 = i) ↔ note.toNat = i + 21 := by
  unfold adjustNote
  have hle : (noteMin ≤ note ∧ note ≤ noteMax) ↔ 21 ≤ note.toNat ∧ note.toNat ≤ 108 := by
    simp [noteMin, noteMax, UInt8.le_iff_toNat_le]
  have hmin : noteMin.toNat = 21 := rfl
  rw [hmin]
  have := i.isLt
  split
  · next h =>
    rw [hle] at h
    constructor
    · intro ⟨index, he, hi⟩
      cases he
      omega
    · intro he
      exact ⟨_, rfl, by omega⟩
  · next h =>
    rw [hle] at h
    constructor
    · intro ⟨index, he, _⟩
      cases he
    · intro he
      omega

theorem has_update_of_ne (source : OscSourceState) (status : UInt8) (data : List UInt8)
    {c : Fin 16} (hc : c ≠ channel status) (w : Switch) :
    (source.update status data).has c w = source.has c w := by
  unfold OscSourceState.update
  split
  · split
    · split <;> cases w <;> simp [OscSourceState.has, hc]
    · rfl
  · split
    · cases w <;> simp [OscSourceState.has, hc]
    · split
      · split
        · split
          · cases w <;> simp [OscSourceState.has, hc]
          · split
            · cases w <;> simp [OscSourceState.has, hc]
            · rfl
        · rfl
      · rfl

theorem has_update_note (source : OscSourceState) {status d1 d2 : UInt8} (h1 : ¬127 < d1)
    (h2 : ¬127 < d2) (hs : status &&& 0xF0 = 0x90 ∨ status &&& 0xF0 = 0x80) (w : Switch) :
    (source.update status [status, d1, d2]).has (channel status) w =
      (effect [status, d1, d2] (held (channel status) w)).getD (source.has (channel status) w) := by
  have hb1 : ¬0x80 ≤ d1 := fun h => h1 (UInt8.lt_of_lt_of_le (by decide) h)
  have hb2 : ¬0x80 ≤ d2 := fun h => h2 (UInt8.lt_of_lt_of_le (by decide) h)
  -- the message is a note-on exactly when `on` holds
  obtain ⟨on, hon⟩ : ∃ on : Bool, on = decide (status &&& 0xF0 = 0x90 ∧ 0 < d2) := ⟨_, rfl⟩
  have hp : parseNote [status, d1, d2] = some ⟨d1, (status &&& 0x0F) + 1,
      if on then .noteOn else .noteOff, adjustNote d1⟩ := by
    rcases hs with hs | hs
    · by_cases h0 : d2 = 0
      · simp [parseNote, hon, hs, h0, hb1]
      · simp [parseNote, hon, hs, h0, hb1, hb2, UInt8.pos_iff_ne_zero]
    · simp [parseNote, hon, hs, hb1, hb2]
  have heff (i : Fin 88) : effect [status, d1, d2] (held (channel status) (.note i)) =
      if d1.toNat = i + 21 then some on else none := by
    rcases hs with hs | hs
    · by_cases h0 : 0 < d2 <;> simp [effect, held, Held.channel, hs, h1, h2, hon, h0]
    · simp [effect, held, Held.channel, hs, h1, h2, hon]
  unfold OscSourceState.update
  rw [hp]
  cases w with
  | sustain =>
    have he : effect [status, d1, d2] (held (channel status) .sustain) = none := by
      rcases hs with hs | hs <;> simp [effect, held, Held.channel, hs]
    rw [he]
    dsimp only
    split
    · split <;> rfl
    · rfl
  | note i =>
    rw [heff]
    by_cases hi : d1.toNat = i + 21
    · obtain ⟨index, hindex, hsub⟩ := (adjustNote_index i).mpr hi
      have hlt : (i : Nat) < 128 := by omega
      rw [if_pos hi, hindex]
      cases on <;> simp [OscSourceState.has, hsub, hlt]
    · rw [if_neg hi]
      dsimp only
      cases hindex : adjustNote d1 with
      | none => rfl
      | some index =>
        have hne : (i : Nat) ≠ index - 1 := fun he =>
          hi ((adjustNote_index i).mp ⟨index, hindex, he.symm⟩)
        cases on <;> simp [OscSourceState.has, hne]

theorem has_update_control (source : OscSourceState) {status d1 d2 : UInt8} (h1 : ¬127 < d1)
    (h2 : ¬127 < d2) (hs : status &&& 0xF0 = 0xB0) (w : Switch) :
    (source.update status [status, d1, d2]).has (channel status) w =
      (effect [status, d1, d2] (held (channel status) w)).getD (source.has (channel status) w) := by
  have hle : d1 ≤ 127 := UInt8.not_lt.mp h1
  unfold OscSourceState.update
  have hn : parseNote [status, d1, d2] = none := by simp [parseNote, hs]
  rw [hn]
  by_cases h64 : d1 = 64
  · subst h64
    have hp : parseSustain [status, 64, d2] = some ⟨(status &&& 0x0F) + 1, 64 ≤ d2⟩ := by
      simp [parseSustain, hs]
    rw [hp]
    cases w with
    | note i => simp [OscSourceState.has, effect, held, hs]
    | sustain => simp [OscSourceState.has, effect, held, Held.channel, h2, hs, holdPedals]
  · have hp : parseSustain [status, d1, d2] = none := by simp [parseSustain, h64]
    rw [hp]
    cases w with
    | note i =>
      by_cases hm : d1 = 120 ∨ 123 ≤ d1
      · simp [OscSourceState.has, effect, held, Held.channel, h1, h2, hs, hle, hm]
      · by_cases h121 : d1 = 121 <;>
          simp [OscSourceState.has, effect, held, Held.channel, h1, h2, hs, hle, hm, h121]
    | sustain =>
      by_cases h121 : d1 = 121
      · subst h121
        simp [OscSourceState.has, effect, held, Held.channel, h2, hs, holdPedals]
      · by_cases hm : d1 = 120 ∨ 123 ≤ d1 <;>
          simp [OscSourceState.has, effect, held, Held.channel, h1, h2, hs, hle, hm, h121, h64,
            holdPedals]

/-- A three-byte message does to the switches of its source what it does to the
notes and the sustain pedal of an instrument. -/
theorem has_update (source : OscSourceState) {status d1 d2 : UInt8} (h1 : ¬127 < d1)
    (h2 : ¬127 < d2) (c : Fin 16) (w : Switch) :
    (source.update status [status, d1, d2]).has c w =
      (effect [status, d1, d2] (held c w)).getD (source.has c w) := by
  by_cases hc : c = channel status
  · subst hc
    by_cases hn : status &&& 0xF0 = 0x90 ∨ status &&& 0xF0 = 0x80
    · exact has_update_note source h1 h2 hn w
    · by_cases hb : status &&& 0xF0 = 0xB0
      · exact has_update_control source h1 h2 hb w
      · simp only [not_or] at hn
        have hu : source.update status [status, d1, d2] = source := by
          simp [OscSourceState.update, parseNote, parseSustain, hn, hb]
        have he : effect [status, d1, d2] (held (channel status) w) = none := by
          cases w <;> simp [effect, held, hn, hb]
        rw [hu, he]
        rfl
  · rw [has_update_of_ne source status _ hc]
    have hc' : channel status ≠ (held c w).channel := by
      cases w <;> exact fun h => hc h.symm
    simp [effect, hc']

theorem has_default (c : Fin 16) (w : Switch) : OscSourceState.default.has c w = false := by
  cases w <;> simp [OscSourceState.has, OscSourceState.default]

theorem has_of_isEmpty {source : OscSourceState} (h : source.isEmpty = true) (c : Fin 16)
    (w : Switch) : source.has c w = false := by
  simp only [OscSourceState.isEmpty, Bool.and_eq_true, List.all_eq_true, List.mem_finRange,
    forall_const, beq_iff_eq, Bool.not_eq_true'] at h
  cases w with
  | note i => simp [OscSourceState.has, h.1 c]
  | sustain => exact h.2 c

theorem pressed_default (st : OscOutputState) (s : String) (c : Fin 16) (w : Switch) :
    ((st.sources.lookup s).getD .default).has c w = pressed st s c w := by
  unfold pressed
  cases st.sources.lookup s with
  | none => exact has_default c w
  | some state => rfl

theorem pressed_observe (st : OscOutputState) {frame : MidiFrame} {status d1 d2 : UInt8}
    (hd : frame.data = [status, d1, d2]) (h1 : ¬127 < d1) (h2 : ¬127 < d2)
    (hstop : isServerStop frame = false) (s : String) (c : Fin 16) (w : Switch) :
    pressed (observe st frame) s c w =
      if s = frame.source then (effect frame.data (held c w)).getD (pressed st s c w)
      else pressed st s c w := by
  unfold observe
  rw [hd]
  dsimp only
  rw [if_neg (by simp)]
  by_cases hst : ¬(0x80 ≤ status ∧ status < 0xF0)
  · have he : effect [status, d1, d2] (held c w) = none := by
      by_contra he
      exact hst (voice_status status (status_of_effect he).2).1
    rw [if_pos hst, he]
    simp
  · rw [if_neg hst, if_neg (by simp [hstop])]
    have hup : (((st.sources.lookup frame.source).getD .default).update status
        [status, d1, d2]).has c w =
          (effect [status, d1, d2] (held c w)).getD (pressed st frame.source c w) := by
      rw [has_update _ h1 h2, pressed_default]
    by_cases hs : s = frame.source
    · subst hs
      rw [if_pos rfl, ← hup]
      split
      · next hempty => simp [pressed, has_of_isEmpty hempty]
      · simp [pressed]
    · rw [if_neg hs]
      split
      · simp only [pressed, AList.lookup_erase_ne hs]
      · simp only [pressed, AList.lookup_insert_ne hs]

/-- The server's release takes every playback source out. -/
theorem pressed_serverStop (st : OscOutputState) {frame : MidiFrame}
    (hstop : isServerStop frame = true) (s : String) (c : Fin 16) (w : Switch) :
    pressed (observe st frame) s c w = (!startsWith "ReliablePLV:" s && pressed st s c w) := by
  have hb := hstop
  unfold isServerStop at hb
  split at hb
  · next status d1 d2 hd =>
    simp only [Bool.and_eq_true, beq_iff_eq] at hb
    have hst := (voice_status status (.inr (.inr hb.1.2))).1
    unfold observe
    rw [hd]
    dsimp only
    rw [if_neg (by simp), if_neg (not_not.mpr hst), if_pos hstop]
    simp only [pressed, lookup_retain]
    cases startsWith "ReliablePLV:" s <;> simp
  · cases hb

theorem pressed_reset (st : OscOutputState) {frame : MidiFrame} (hd : frame.data = [0xFF])
    (s : String) (c : Fin 16) (w : Switch) :
    pressed (observe st frame) s c w =
      (startsWith "RTP:" frame.source && s != frame.source && pressed st s c w) := by
  unfold observe
  rw [hd]
  dsimp only
  rw [if_pos rfl]
  split
  · next hrtp =>
    by_cases hs : s = frame.source
    · subst hs
      simp [pressed]
    · simp [pressed, hrtp, hs]
  · next hrtp => simp [pressed, hrtp]

/-- What a frame does to the switches that the sources hold down: a message
does to those of its source what it does to the notes and the sustain pedal of
an instrument, the server's release takes every playback source out, a reset
its source, and all of them where it is no RTP source. -/
structure Observed (st : OscOutputState) (frame : MidiFrame) (st' : OscOutputState) : Prop where
  message : ∀ status d1 d2, frame.data = [status, d1, d2] → ¬127 < d1 → ¬127 < d2 →
    isServerStop frame = false → ∀ s c w, pressed st' s c w =
      if s = frame.source then (effect frame.data (held c w)).getD (pressed st s c w)
      else pressed st s c w
  serverStop : isServerStop frame = true → ∀ s c w,
    pressed st' s c w = (!startsWith "ReliablePLV:" s && pressed st s c w)
  reset : frame.data = [0xFF] → ∀ s c w, pressed st' s c w =
    (startsWith "RTP:" frame.source && s != frame.source && pressed st s c w)

theorem observe_observed (st : OscOutputState) (frame : MidiFrame) :
    Observed st frame (observe st frame) where
  message _ _ _ hd h1 h2 hstop := pressed_observe st hd h1 h2 hstop
  serverStop hstop := pressed_serverStop st hstop
  reset hd := pressed_reset st hd

/-- What a frame leaves of a source's state. -/
theorem lookup_observe (st : OscOutputState) (frame : MidiFrame) (s : String) :
    (observe st frame).sources.lookup s = st.sources.lookup s ∨
      (observe st frame).sources.lookup s = none ∨
      s = frame.source ∧ ∃ state, (observe st frame).sources.lookup s = some state ∧
        state.isEmpty = false := by
  unfold observe
  split
  · exact .inl rfl
  · next status _ _ =>
    split
    · split
      · by_cases hs : s = frame.source
        · subst hs; exact .inr (.inl (AList.lookup_erase ..))
        · exact .inl (AList.lookup_erase_ne hs)
      · exact .inr (.inl rfl)
    · split
      · exact .inl rfl
      · split
        · rw [lookup_retain]
          split
          · exact .inl rfl
          · exact .inr (.inl rfl)
        · dsimp only
          split
          · by_cases hs : s = frame.source
            · subst hs; exact .inr (.inl (AList.lookup_erase ..))
            · exact .inl (AList.lookup_erase_ne hs)
          · next hempty =>
            by_cases hs : s = frame.source
            · subst hs
              exact .inr (.inr ⟨rfl, _, AList.lookup_insert .., Bool.eq_false_of_not_eq_true hempty⟩)
            · exact .inl (AList.lookup_insert_ne hs)

theorem sent_observe (st : OscOutputState) (frame : MidiFrame) (w : Switch) :
    (observe st frame).sent w = st.sent w := by
  have h : (observe st frame).sentNotes = st.sentNotes ∧
      (observe st frame).sentSustain = st.sentSustain := by
    unfold observe
    split
    · exact ⟨rfl, rfl⟩
    split
    · split <;> exact ⟨rfl, rfl⟩
    split
    · exact ⟨rfl, rfl⟩
    split
    · exact ⟨rfl, rfl⟩
    dsimp only
    split <;> exact ⟨rfl, rfl⟩
  cases w with
  | note i => exact congrArg (fun x => x.getLsbD i) h.1
  | sustain => exact h.2

/-- No source is kept whose switches are all off. -/
def NoneEmpty (st : OscOutputState) : Prop :=
  ∀ s state, st.sources.lookup s = some state → state.isEmpty = false

theorem noneEmpty_observe {st : OscOutputState} (h : NoneEmpty st) (frame : MidiFrame) :
    NoneEmpty (observe st frame) := by
  intro s state hs
  rcases lookup_observe st frame s with heq | heq | ⟨-, state', heq, he⟩
  · exact h s state (heq ▸ hs)
  · rw [heq] at hs; cases hs
  · rw [heq] at hs
    cases hs
    exact he

/-! ## The order of the table -/

/-- Two states that differ in the order of the table only. -/
structure Same (st st' : OscOutputState) : Prop where
  sources : st.sources.entries.Perm st'.sources.entries
  notes : st.sentNotes = st'.sentNotes
  sustain : st.sentSustain = st'.sentSustain

theorem Same.sent {st st' : OscOutputState} (h : Same st st') (w : Switch) :
    st.sent w = st'.sent w := by
  cases w with
  | note i => exact congrArg (fun x => x.getLsbD i) h.notes
  | sustain => exact h.sustain

theorem Same.wanted {st st' : OscOutputState} (h : Same st st') : wanted st = wanted st' := by
  funext w
  rw [wanted_eq_any, wanted_eq_any]
  exact (h.sources.map _).any_eq

theorem Same.record {st st' : OscOutputState} (h : Same st st') (w : Switch) (v : Bool) :
    Same (st.record w v) (st'.record w v) := by
  cases w with
  | note i => exact ⟨h.sources, by simp only [OscOutputState.record, h.notes], h.sustain⟩
  | sustain => exact ⟨h.sources, h.notes, rfl⟩

theorem Same.flushLoop {send : List Call → Call → Except String Unit} {want : Switch → Bool}
    (order : List Switch) :
    ∀ {st st' : OscOutputState} (calls : List Call), Same st st' →
      (flushLoop send want order st calls).result = (flushLoop send want order st' calls).result ∧
      (flushLoop send want order st calls).calls = (flushLoop send want order st' calls).calls ∧
      Same (flushLoop send want order st calls).st (flushLoop send want order st' calls).st := by
  induction order with
  | nil => intro st st' calls h; exact ⟨rfl, rfl, h⟩
  | cons w order ih =>
    intro st st' calls h
    unfold OscOutput.flushLoop
    dsimp only
    rw [h.sent w]
    split
    · cases send calls (w, want w) with
      | ok => exact ih _ (h.record w _)
      | error e => exact ⟨rfl, rfl, h⟩
    · exact ih _ h

theorem Same.flush {st st' : OscOutputState} (h : Same st st')
    (send : List Call → Call → Except String Unit) :
    (flush send st).result = (flush send st').result ∧
      (flush send st).calls = (flush send st').calls ∧
      Same (flush send st).st (flush send st').st := by
  unfold OscOutput.flush
  rw [h.wanted]
  exact Same.flushLoop switches [] h

theorem Same.observe {st st' : OscOutputState} (h : Same st st') (frame : MidiFrame) :
    Same (observe st frame) (observe st' frame) := by
  unfold OscOutput.observe
  rw [AList.perm_lookup h.sources]
  split
  · exact h
  · split
    · split
      · exact ⟨AList.perm_erase h.sources, h.notes, h.sustain⟩
      · exact ⟨.refl _, h.notes, h.sustain⟩
    · split
      · exact h
      · split
        · exact ⟨h.sources.filter _, h.notes, h.sustain⟩
        · dsimp only
          split
          · exact ⟨AList.perm_erase h.sources, h.notes, h.sustain⟩
          · exact ⟨AList.perm_insert h.sources, h.notes, h.sustain⟩

/-! ## Runs -/

/-- What a run has done to the receiver: a switch sent, or its reset. -/
inductive Event where
  | sent (c : Call)
  | reset
  deriving DecidableEq, Repr

/-- The value a switch was last sent, since the last reset. -/
def lastSent (w : Switch) (log : List Event) : Bool :=
  log.foldl (fun v e =>
    match e with
    | .sent c => if w = c.1 then c.2 else v
    | .reset => false) false

inductive Op where
  | observe (frame : MidiFrame)
  | flush (send : List Call → Call → Except String Unit)
  | resetSent
  | clear
  /-- The table may be enumerated in another order from now on. -/
  | reorder (st : OscOutputState)

structure State where
  st : OscOutputState
  log : List Event

/-- The calls that succeeded. -/
def Flushed.successes (r : Flushed) : List Call :=
  match r.result with
  | .ok () => r.calls
  | .error _ => r.calls.dropLast

/-- One operation, and what it has done to the receiver. -/
inductive Step : State → Op → State → Prop
  | observe (s frame) : Step s (.observe frame) ⟨OscOutput.observe s.st frame, s.log⟩
  | flush (s send) : Step s (.flush send)
      ⟨(OscOutput.flush send s.st).st,
        s.log ++ (OscOutput.flush send s.st).successes.map Event.sent⟩
  | resetSent (s) : Step s .resetSent ⟨s.st.resetSent, s.log ++ [.reset]⟩
  | clear (s) : Step s .clear ⟨s.st.clear, s.log ++ [.reset]⟩
  | reorder (s st) : Same s.st st → Step s (.reorder st) ⟨st, s.log⟩

def system : LTS State Op where
  init s := s = ⟨.default, []⟩
  step := Step

theorem lastSent_sent (w : Switch) (log : List Event) (calls : List Call) :
    ∀ st : OscOutputState, st.sent w = lastSent w log →
      (recordAll st calls).sent w = lastSent w (log ++ calls.map Event.sent) := by
  induction calls generalizing log with
  | nil => intro st h; simpa [recordAll] using h
  | cons c calls ih =>
    intro st h
    rw [List.map_cons, List.append_cons]
    refine ih (log ++ [.sent c]) (st.record c.1 c.2) ?_
    rw [sent_record, h]
    simp [lastSent]

theorem lastSent_reset (w : Switch) (log : List Event) : lastSent w (log ++ [.reset]) = false := by
  simp [lastSent]

theorem sent_resetSent (st : OscOutputState) (w : Switch) : st.resetSent.sent w = false := by
  cases w with
  | note i => simp [OscOutputState.resetSent, OscOutputState.sent]
  | sustain => rfl

theorem recorded_successes (send : List Call → Call → Except String Unit) (st : OscOutputState) :
    (flush send st).st = recordAll st (flush send st).successes := by
  unfold Flushed.successes
  rcases flush_spec send st with ⟨hr, hc, hst, -⟩ | ⟨e, made, c, rest, hr, -, hc, hst, -⟩
  · rw [hr, hc]
    exact hst
  · rw [hr, hc, hst]
    simp

theorem reachable_sent (w : Switch) :
    system.Inductive fun s => s.st.sent w = lastSent w s.log where
  init := by
    intro s h
    subst h
    cases w <;> simp [OscOutputState.default, OscOutputState.sent, lastSent]
  step := by
    intro s op s' h hst
    cases hst with
    | observe frame => rw [sent_observe]; exact h
    | flush send => rw [recorded_successes]; exact lastSent_sent w s.log _ s.st h
    | resetSent => rw [lastSent_reset, sent_resetSent]
    | clear => rw [lastSent_reset, OscOutputState.clear, sent_resetSent]
    | reorder st hsame => rw [← hsame.sent w]; exact h

theorem reachable_noneEmpty : system.Inductive fun s => NoneEmpty s.st where
  init := by
    intro s h
    subst h
    intro s state hs
    cases hs
  step := by
    intro s op s' h hst
    cases hst with
    | observe frame => exact noneEmpty_observe h frame
    | flush send =>
      intro source state hs
      rw [sources_flush] at hs
      exact h source state hs
    | resetSent => exact h
    | clear => intro source state hs; cases hs
    | reorder st hsame =>
      intro source state hs
      rw [← AList.perm_lookup hsame.sources] at hs
      exact h source state hs

/-- In every run: the recorded values are the last ones sent; a switch is
wanted down when some source holds it, and the frames say what a source holds;
a flush that returns Ok has sent the changed switches and nothing else, and has
caught up with the sources; one that fails leaves what it has not sent to the
next; the order of the table does not matter; and no source is kept for
nothing. -/
theorem switches_follow_sources (s : State) (h : system.Reachable s) :
    (∀ w, s.st.sent w = lastSent w s.log) ∧
    ((∀ w, wanted s.st w = true ↔ ∃ source c, pressed s.st source c w = true) ∧
      ∀ frame, Observed s.st frame (observe s.st frame)) ∧
    ((changes s.st).Nodup ∧
      ∀ c, c ∈ changes s.st ↔ c.2 = wanted s.st c.1 ∧ c.2 ≠ s.st.sent c.1) ∧
    (∀ send, (flush send s.st).result = .ok () →
      (flush send s.st).calls = changes s.st ∧ ∀ w, (flush send s.st).st.sent w = wanted s.st w) ∧
    (∀ send e, (flush send s.st).result = .error e →
      ∃ made c rest, changes s.st = made ++ c :: rest ∧ (flush send s.st).calls = made ++ [c] ∧
        changes (flush send s.st).st = c :: rest) ∧
    (∀ st', Same s.st st' →
      (∀ frame, Same (observe s.st frame) (observe st' frame)) ∧
      ∀ send, (flush send s.st).result = (flush send st').result ∧
        (flush send s.st).calls = (flush send st').calls ∧
        Same (flush send s.st).st (flush send st').st) ∧
    ∀ source state, s.st.sources.lookup source = some state → state.isEmpty = false := by
  refine ⟨fun w => (reachable_sent w).reachable s h, ⟨wanted_iff s.st, observe_observed s.st⟩,
    ⟨changes_nodup _, fun c => ?_⟩, fun send hr => ?_, fun send e hr => ?_,
    fun st' hsame => ⟨hsame.observe, hsame.flush⟩, reachable_noneEmpty.reachable s h⟩
  · rw [mem_changes]
    exact and_congr_right fun hc => by rw [hc]
  · rcases flush_spec send s.st with ⟨-, hc, -, hleft⟩ | ⟨e, made, c, rest, hno, -⟩
    · refine ⟨hc, fun w => ?_⟩
      rw [sent_of_changes_nil hleft, wanted_flush]
    · rw [hr] at hno; cases hno
  · rcases flush_spec send s.st with ⟨hno, -⟩ | ⟨e', made, c, rest, -, hsplit, hc, -, hleft⟩
    · rw [hr] at hno; cases hno
    · exact ⟨made, c, rest, hsplit, hc, hleft⟩

/-- `send` of a receiver that is gone after `n` calls. -/
def sendUpTo (n : Nat) (calls : List Call) (_ : Call) : Except String Unit :=
  if calls.length < n then .ok () else .error "unreachable"

/-- Two sources hold one note, the first the pedal as well. -/
def chord : List MidiFrame :=
  [⟨0, "RTP:a", [0x90, 60, 100]⟩, ⟨0, "OSC:b", [0x91, 60, 100]⟩, ⟨0, "RTP:a", [0xB0, 64, 127]⟩]

def chordState : OscOutputState := chord.foldl observe .default

/-- The flush ended before the pedal; then the first source lets the note go. -/
def partlySent : State :=
  ⟨observe (flush (sendUpTo 1) chordState).st ⟨0, "RTP:a", [0x80, 60, 0]⟩,
    (flush (sendUpTo 1) chordState).successes.map .sent⟩

theorem partlySent_reachable : system.Reachable partlySent :=
  ⟨_, chord.map .observe ++ [.flush (sendUpTo 1), .observe ⟨0, "RTP:a", [0x80, 60, 0]⟩], rfl,
    .cons (Step.observe ..) (.cons (Step.observe ..) (.cons (Step.observe ..)
      (.cons (Step.flush ..) (.cons (Step.observe ..) (.nil _)))))⟩

theorem heldNote_sent :
    lastSent (.note 39) partlySent.log = true ∧
      (flush (sendUpTo 5) partlySent.st).calls = [(.sustain, true)] ∧
      (flush (sendUpTo 5) partlySent.st).st.sent (.note 39) = true ∧
      ∃ made c rest, changes partlySent.st = made ++ c :: rest ∧
        changes (flush (sendUpTo 0) partlySent.st).st = c :: rest := by
  have h := switches_follow_sources partlySent partlySent_reachable
  obtain ⟨hlast, -, -, hok, herror, -⟩ := h
  obtain ⟨hcalls, hsent⟩ := hok (sendUpTo 5) (by decide +kernel)
  refine ⟨?_, ?_, ?_, ?_⟩
  · rw [← hlast]
    decide +kernel
  · rw [hcalls]
    decide +kernel
  · rw [hsent]
    decide +kernel
  · obtain ⟨made, c, rest, hs, -, hl⟩ := herror (sendUpTo 0) "unreachable" (by decide +kernel)
    exact ⟨made, c, rest, hs, hl⟩

end RtpOscMidi.L2.OscOutput
