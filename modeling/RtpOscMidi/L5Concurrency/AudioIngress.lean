import RtpOscMidi.Core.LTS
import RtpOscMidi.Core.Lists
import RtpOscMidi.L2Machine.PendingMidi

/-!
# The way of a MIDI packet into the audio callback

Every `send_midi` is a call of its own here: it loads the route, stamps the
packet with the MIDI generation, checks the stamp, tries the lock of the
producer, looks at the free slots and pushes. A packet it cannot push is
counted, and for a release the generation is advanced, so that the callback
resets the plugin. `request_emergency_midi_reset` advances the generation or,
without a route, raises the flag. `stop_locked` withdraws the route, and puts
it back when the callback has not finished in time.

A step is one access of one call to what is shared, or a step of the callback
of `PendingMidi`. Calls are numbered in the order they are submitted;
`returned outcome c` records how many had been submitted when the call came
back, so the calls from `c` on came after it. The packets of one runtime are
followed, from its start until it is torn down.
-/
namespace RtpOscMidi.L5.AudioIngress

open Core L1.MidiMessage L2.MidiQueue L2.PendingMidi

/-- mirrors src-tauri/src/audio/runtime_state.rs:426 -/
def midiRingCapacity : Nat := 16384

/-- mirrors src-tauri/src/audio/engine.rs:86-92 -/
inductive MidiSendOutcome where
  | sent
  | droppedNonCritical
  | criticalFallbackReset
  | audioStopped
  deriving DecidableEq, Repr

/-- Where a call of `send_midi_packet_with_outcome` stands. -/
inductive Pc where
  /-- the route was there; before the generation is loaded for the stamp -/
  | loaded
  | stamped
  | checked
  /-- the lock of the producer is held -/
  | locked
  | room
  | unlocking (sent : Bool)
  | failed
  /-- the drop is counted; before the generation is advanced -/
  | fallback
  | returned (outcome : MidiSendOutcome) (calls : Nat)
  deriving DecidableEq, Repr

structure Send where
  packet : MidiPacket
  pc : Pc
  deriving DecidableEq, Repr

/-- A packet that came to `enqueue_midi`, the generation the callback had
observed then, and how many calls had been submitted when it last asked for a
reset. -/
structure Reached where
  call : Nat
  packet : MidiPacket
  observed : Nat
  lastRaise : Nat
  deriving DecidableEq, Repr

/-- `midi_tx`, as far as the ingress of this runtime goes. -/
inductive Route where
  | stored
  | withdrawn
  /-- the runtime is torn down -/
  | dropped
  deriving DecidableEq, Repr

structure St where
  audio : L2.PendingMidi.St
  route : Route
  /-- the call that holds the lock of the producer -/
  producer : Option Nat
  sends : List Send
  /-- requests for a reset that found a route, and that found none -/
  advances : Nat
  flags : Nat
  /-- every packet pushed, with the number of its call -/
  pushed : List (Nat × MidiPacket)
  /-- how many of them the callback is done with -/
  seen : Nat
  reached : List Reached
  /-- calls submitted when the callback last asked for a reset, for the flag
  or for a newer generation -/
  lastRaise : Nat

def init : St := ⟨L2.PendingMidi.init, .stored, none, [], 0, 0, [], 0, [], 0⟩

/-- mirrors src-tauri/src/audio/engine.rs:51-58 -/
def midiReserve : Nat := reserve midiRingCapacity

/-- `producer.slots()` -/
def St.slots (s : St) : Nat := midiRingCapacity - s.audio.ring.length

def St.setSend (s : St) (i : Nat) (x : Send) : St := { s with sends := s.sends.set i x }

/-- A call of `send_midi_packet_with_outcome` goes on.
mirrors src-tauri/src/audio/engine.rs:60-83,271-278 -/
def sendStep (s : St) (i : Nat) (x : Send) : Option St :=
  match x.pc with
  | .loaded =>
    some (s.setSend i ⟨{ x.packet with generation := s.audio.generation }, .stamped⟩)
  | .stamped =>
    if x.packet.generation ≠ s.audio.generation then
      some (s.setSend i { x with pc := .returned .audioStopped s.sends.length })
    else some (s.setSend i { x with pc := .checked })
  | .checked =>
    if s.producer = none then
      some { s.setSend i { x with pc := .locked } with producer := some i }
    else some (s.setSend i { x with pc := .failed })
  | .locked =>
    if ¬x.packet.isCriticalRelease ∧ s.slots ≤ midiReserve then
      some (s.setSend i { x with pc := .unlocking false })
    else some (s.setSend i { x with pc := .room })
  | .room =>
    if s.audio.ring.length < midiRingCapacity then
      some { s.setSend i { x with pc := .unlocking true } with
        audio := { s.audio with ring := s.audio.ring ++ [x.packet] }
        pushed := s.pushed ++ [(i, x.packet)] }
    else some (s.setSend i { x with pc := .unlocking false })
  | .unlocking true =>
    some { s.setSend i { x with pc := .returned .sent s.sends.length } with producer := none }
  | .unlocking false => some { s.setSend i { x with pc := .failed } with producer := none }
  | .failed =>
    let pc := if x.packet.isCriticalRelease then Pc.fallback
      else .returned .droppedNonCritical s.sends.length
    some { s.setSend i { x with pc } with
      audio := { s.audio with
        queue := { s.audio.queue with midiDropCount := s.audio.queue.midiDropCount + 1 } } }
  | .fallback =>
    some { s.setSend i { x with pc := .returned .criticalFallbackReset s.sends.length } with
      audio := { s.audio with generation := s.audio.generation + 1 } }
  | .returned _ _ => none

/-- The callback is about to ask for a reset, for the flag or for a newer
generation. -/
def raises (a : L2.PendingMidi.St) : Bool :=
  match a.callback with
  | .advance => true
  | .observe | .popped _ _ => a.generation != a.midiGeneration
  | _ => false

/-- A step of `drain_midi`, with what the history records of it. -/
def drainStep (s : St) : Option St :=
  (drainMidi s.audio).map fun audio =>
    let lastRaise := if raises s.audio then s.sends.length else s.lastRaise
    match s.audio.callback, s.pushed[s.seen]? with
    | .popped msg _, some (call, _) =>
      { s with
        audio, lastRaise
        seen := s.seen + 1
        reached := if msg.generation = audio.midiGeneration then
            s.reached ++ [⟨call, msg, audio.midiGeneration, lastRaise⟩]
          else s.reached }
    | _, _ => { s with audio, lastRaise }

inductive Lbl where
  /-- a call comes in and loads the route -/
  | submit (packet : MidiPacket)
  | send (i : Nat)
  /-- a request for a reset loads the route -/
  | request
  | requestAdvance
  | requestFlag
  | drain
  | miss
  | playing (k : Nat) (done : Bool)
  /-- `stop_locked` swaps the route out -/
  | withdraw
  /-- the callback has not finished in time; the route is put back -/
  | restore
  | teardown
  deriving DecidableEq, Repr

def step (s : St) : Lbl → Option St
  | .submit packet =>
    some { s with sends := s.sends ++ [⟨packet,
      if s.route = .stored then .loaded else .returned .audioStopped (s.sends.length + 1)⟩] }
  | .send i => s.sends[i]?.bind (sendStep s i)
  -- mirrors src-tauri/src/audio/engine.rs:183-197
  | .request =>
    some (if s.route = .stored then { s with advances := s.advances + 1 }
      else { s with flags := s.flags + 1 })
  | .requestAdvance =>
    if s.advances = 0 then none
    else some { s with
      advances := s.advances - 1
      audio := { s.audio with generation := s.audio.generation + 1 } }
  | .requestFlag =>
    if s.flags = 0 then none
    else some { s with flags := s.flags - 1, audio := { s.audio with emergency := true } }
  | .drain => if s.route = .dropped then none else drainStep s
  | .miss =>
    if s.audio.callback = .drained then
      some { s with audio := { s.audio with callback := .start } }
    else none
  | .playing k done =>
    if s.audio.callback = .drained then some { s with audio := playing s.audio k done } else none
  -- mirrors src-tauri/src/audio/engine_lifecycle.rs:246
  | .withdraw => if s.route = .stored then some { s with route := .withdrawn } else none
  -- mirrors src-tauri/src/audio/engine_lifecycle.rs:276-292
  | .restore => if s.route = .withdrawn then some { s with route := .stored } else none
  -- mirrors src-tauri/src/audio/engine_lifecycle.rs:293-294
  | .teardown =>
    if s.route = .withdrawn ∧ s.audio.callback = .start then
      some { s with route := .dropped, audio := { s.audio with emergency := false } }
    else none

def system : LTS St Lbl := LTS.ofStep (· = init) step

/-! ## What compensates a release that is lost -/

/-- The callback takes nothing more from the ring before it looks at the flag
again. -/
def Still : Callback → Prop
  | .start | .drained | .pop 0 | .popped _ 0 => True
  | _ => False

instance : DecidablePred Still := fun c => by
  unfold Still
  split <;> infer_instance

/-- The callback asks for a reset before it takes anything more from the ring. -/
def WillRaise (a : L2.PendingMidi.St) : Prop :=
  a.generation ≠ a.midiGeneration ∨ a.callback = .advance ∨ (a.emergency = true ∧ Still a.callback)

instance (a : L2.PendingMidi.St) : Decidable (WillRaise a) := inferInstanceAs (Decidable (_ ∨ _))

/-- A release that came back with `AudioStopped`. -/
def Send.refused (x : Send) : Bool :=
  x.packet.isCriticalRelease && match x.pc with
    | .returned .audioStopped _ => true
    | _ => false

/-- The route is put back only when every release refused in the meantime has
been followed by a reset, or will be before anything more is taken. -/
def Compensated (s : St) : Lbl → Prop
  | .restore => ∀ i < s.sends.length, s.sends[i]?.any Send.refused = true →
      i < s.lastRaise ∨ WillRaise s.audio
  | _ => True

instance (s : St) (l : Lbl) : Decidable (Compensated s l) := by
  unfold Compensated
  split <;> infer_instance

/-! ## Stamps, pushes and the lock -/

def inHand : Callback → List MidiPacket
  | .popped msg _ => [msg]
  | _ => []

/-- The packets pushed that the callback is not done with. -/
def St.flight (s : St) : List (Nat × MidiPacket) := s.pushed.drop s.seen

def Pc.holdsLock : Pc → Bool
  | .locked | .room | .unlocking _ => true
  | _ => false

def Pc.hasPushed : Pc → Bool
  | .unlocking true | .returned .sent _ => true
  | _ => false

def Pc.hasStamp : Pc → Bool
  | .loaded | .returned .audioStopped _ => false
  | _ => true

def St.hasReached (s : St) (i : Nat) : Prop := ∃ r ∈ s.reached, r.call = i

structure Inv (s : St) : Prop where
  seen_le : s.seen ≤ s.pushed.length
  aligned : s.flight.map Prod.snd = inHand s.audio.callback ++ s.audio.ring
  observed_le : s.audio.midiGeneration ≤ s.audio.generation
  owner : ∀ (i : Nat) (x : Send), s.sends[i]? = some x → x.pc.holdsLock = true → s.producer = some i
  room : ∀ (i : Nat) (x : Send), s.sends[i]? = some x → x.pc = .room →
    x.packet.isCriticalRelease = false → midiReserve < s.slots
  pushed_send : ∀ q ∈ s.pushed, ∃ x, s.sends[q.1]? = some x ∧ x.packet = q.2 ∧
    x.pc.hasPushed = true
  send_pushed : ∀ (i : Nat) (x : Send), s.sends[i]? = some x → x.pc.hasPushed = true →
    ∃ q ∈ s.pushed, q.1 = i
  once : (s.pushed.map Prod.fst).Nodup
  /-- a stamp the callback has left behind has been followed by a reset -/
  stamp : ∀ (i : Nat) (x : Send), s.sends[i]? = some x → x.pc.hasStamp = true →
    x.packet.generation ≤ s.audio.generation ∧
      (x.packet.generation < s.audio.midiGeneration → i < s.lastRaise)
  reached_sub : (s.reached.map fun r => (r.call, r.packet)).Sublist (s.pushed.take s.seen)
  reached_stamp : ∀ r ∈ s.reached, r.packet.generation = r.observed ∧
    r.observed ≤ s.audio.midiGeneration
  dealt : ∀ q ∈ s.pushed.take s.seen, s.hasReached q.1 ∨ q.1 < s.lastRaise

variable {s s' : St} {i : Nat} {x x' : Send}

theorem inv_init : Inv init where
  seen_le := Nat.le_refl 0
  aligned := rfl
  observed_le := Nat.le_refl 0
  owner i x h := by simp [init] at h
  room i x h := by simp [init] at h
  pushed_send q h := by simp [init] at h
  send_pushed i x h := by simp [init] at h
  once := List.nodup_nil
  stamp i x h := by simp [init] at h
  reached_sub := List.Sublist.refl _
  reached_stamp r h := by simp [init] at h
  dealt q h := by simp [init] at h

theorem hasStamp_of_hasPushed {pc : Pc} (h : pc.hasPushed = true) : pc.hasStamp = true := by
  cases pc with
  | unlocking sent => rfl
  | returned outcome calls =>
    cases outcome with
    | sent => rfl
    | droppedNonCritical => rfl
    | criticalFallbackReset => rfl
    | audioStopped => cases h
  | _ => cases h

theorem Inv.pushed_lt (I : Inv s) : ∀ q ∈ s.pushed, q.1 < s.sends.length := by
  intro q hq
  obtain ⟨x, hx, -, -⟩ := I.pushed_send q hq
  exact lt_of_getElem?_eq_some hx

theorem Inv.pushed_stamp (I : Inv s) {q : Nat × MidiPacket} (hq : q ∈ s.pushed) :
    q.2.generation ≤ s.audio.generation ∧
      (q.2.generation < s.audio.midiGeneration → q.1 < s.lastRaise) := by
  obtain ⟨x, hx, hp, hpc⟩ := I.pushed_send q hq
  have hs := I.stamp q.1 x hx (hasStamp_of_hasPushed hpc)
  rw [hp] at hs
  exact hs

theorem Inv.reached_pushed (I : Inv s) {r : Reached} (hr : r ∈ s.reached) :
    (r.call, r.packet) ∈ s.pushed :=
  List.mem_of_mem_take (I.reached_sub.subset (List.mem_map_of_mem hr))

theorem Inv.reached_lt (I : Inv s) {r : Reached} (hr : r ∈ s.reached) : r.call < s.sends.length :=
  I.pushed_lt _ (I.reached_pushed hr)

/-- A call goes on without a push. -/
theorem Inv.moveSend {p : Option Nat} {g : Nat} {q : Queue} (I : Inv s) (hx : s.sends[i]? = some x)
    (hg : s.audio.generation ≤ g)
    (howner : x'.pc.holdsLock = true → p = some i)
    (hother : ∀ (j : Nat), j ≠ i → s.producer = some j → p = some j)
    (hroom : x'.pc = .room → x'.packet.isCriticalRelease = false → midiReserve < s.slots)
    (hpush : x'.pc.hasPushed = x.pc.hasPushed) (hpacket : x.pc.hasPushed = true → x'.packet = x.packet)
    (hstamp : x'.pc.hasStamp = true → x'.packet.generation ≤ g ∧
      (x'.packet.generation < s.audio.midiGeneration → i < s.lastRaise)) :
    Inv { s with
      sends := s.sends.set i x', producer := p
      audio := { s.audio with generation := g, queue := q } } := by
  have hlt : i < s.sends.length := lt_of_getElem?_eq_some hx
  refine ⟨I.seen_le, I.aligned, Nat.le_trans I.observed_le hg, ?_, ?_, ?_, ?_, I.once, ?_, I.reached_sub,
    I.reached_stamp, I.dealt⟩
  · intro j y hy hl
    rcases getElem?_set_cases hy with ⟨rfl, rfl⟩ | ⟨hne, hy⟩
    · exact howner hl
    · exact hother j hne (I.owner j y hy hl)
  · intro j y hy hr hc
    rcases getElem?_set_cases hy with ⟨rfl, rfl⟩ | ⟨hne, hy⟩
    · exact hroom hr hc
    · exact I.room j y hy hr hc
  · intro q hq
    obtain ⟨y, hy, hp, hpc⟩ := I.pushed_send q hq
    by_cases hqi : q.1 = i
    · rw [hqi, hx] at hy
      cases hy
      refine ⟨x', ?_, (hpacket hpc).trans hp, hpush.trans hpc⟩
      rw [hqi]
      exact List.getElem?_set_self hlt
    · refine ⟨y, ?_, hp, hpc⟩
      show (s.sends.set i x')[q.1]? = some y
      rw [List.getElem?_set_ne (fun e => hqi e.symm)]
      exact hy
  · intro j y hy hpc
    rcases getElem?_set_cases hy with ⟨rfl, rfl⟩ | ⟨hne, hy⟩
    · exact I.send_pushed j x hx (hpush ▸ hpc)
    · exact I.send_pushed j y hy hpc
  · intro j y hy hs
    rcases getElem?_set_cases hy with ⟨rfl, rfl⟩ | ⟨hne, hy⟩
    · exact hstamp hs
    · obtain ⟨hle, hlt⟩ := I.stamp j y hy hs
      exact ⟨Nat.le_trans hle hg, hlt⟩

/-- The one push of a call. -/
theorem Inv.push (I : Inv s) (hx : s.sends[i]? = some x) (hpc : x.pc = .room) :
    Inv { s.setSend i { x with pc := .unlocking true } with
      audio := { s.audio with ring := s.audio.ring ++ [x.packet] }
      pushed := s.pushed ++ [(i, x.packet)] } := by
  have hlt : i < s.sends.length := lt_of_getElem?_eq_some hx
  have hself : (s.sends.set i { x with pc := .unlocking true })[i]?
      = some { x with pc := .unlocking true } := List.getElem?_set_self hlt
  have hnew : ∀ q ∈ s.pushed, q.1 ≠ i := by
    intro q hq e
    obtain ⟨y, hy, -, hpush⟩ := I.pushed_send q hq
    rw [e, hx] at hy
    cases hy
    rw [hpc] at hpush
    cases hpush
  have hprod : s.producer = some i := I.owner i x hx (by rw [hpc]; rfl)
  have htake : (s.pushed ++ [(i, x.packet)]).take s.seen = s.pushed.take s.seen :=
    List.take_append_of_le_length I.seen_le
  have hdrop : (s.pushed ++ [(i, x.packet)]).drop s.seen = s.flight ++ [(i, x.packet)] :=
    List.drop_append_of_le_length I.seen_le
  refine ⟨?_, ?_, I.observed_le, ?_, ?_, ?_, ?_, ?_, ?_, ?_, I.reached_stamp, ?_⟩
  · have hle := I.seen_le
    show s.seen ≤ (s.pushed ++ [(i, x.packet)]).length
    rw [List.length_append]
    omega
  · show ((s.pushed ++ [(i, x.packet)]).drop s.seen).map Prod.snd
      = inHand s.audio.callback ++ (s.audio.ring ++ [x.packet])
    rw [hdrop, List.map_append, I.aligned, List.append_assoc]
    rfl
  · intro j y hy hl
    rcases getElem?_set_cases hy with ⟨rfl, rfl⟩ | ⟨hne, hy⟩
    · exact hprod
    · exact I.owner j y hy hl
  · intro j y hy hr hc
    rcases getElem?_set_cases hy with ⟨rfl, rfl⟩ | ⟨hne, hy⟩
    · cases hr
    · have hj := I.owner j y hy (by rw [hr]; rfl)
      rw [hprod] at hj
      exact absurd (Option.some.inj hj).symm hne
  · intro q hq
    rcases List.mem_append.mp hq with hq | hq
    · obtain ⟨y, hy, hp, hpush⟩ := I.pushed_send q hq
      refine ⟨y, ?_, hp, hpush⟩
      show (s.sends.set i _)[q.1]? = some y
      rw [List.getElem?_set_ne (fun e => hnew q hq e.symm)]
      exact hy
    · rw [List.mem_singleton.mp hq]
      exact ⟨_, hself, rfl, rfl⟩
  · intro j y hy hpush
    rcases getElem?_set_cases hy with ⟨rfl, rfl⟩ | ⟨hne, hy⟩
    · exact ⟨_, List.mem_append_right _ List.mem_cons_self, rfl⟩
    · obtain ⟨q, hq, hqj⟩ := I.send_pushed j y hy hpush
      exact ⟨q, List.mem_append_left _ hq, hqj⟩
  · show ((s.pushed ++ [(i, x.packet)]).map Prod.fst).Nodup
    rw [List.map_append]
    refine List.nodup_append.mpr ⟨I.once, List.nodup_singleton i, ?_⟩
    intro a ha b hb
    obtain ⟨q, hq, rfl⟩ := List.mem_map.mp ha
    rw [List.mem_singleton.mp hb]
    exact hnew q hq
  · intro j y hy hs
    rcases getElem?_set_cases hy with ⟨rfl, rfl⟩ | ⟨hne, hy⟩
    · exact I.stamp j x hx (by rw [hpc]; rfl)
    · exact I.stamp j y hy hs
  · show (s.reached.map fun r => (r.call, r.packet)).Sublist
      ((s.pushed ++ [(i, x.packet)]).take s.seen)
    rw [htake]
    exact I.reached_sub
  · show ∀ q ∈ (s.pushed ++ [(i, x.packet)]).take s.seen, _
    rw [htake]
    exact I.dealt

theorem inv_sendStep (I : Inv s) (hx : s.sends[i]? = some x) (h : sendStep s i x = some s') :
    Inv s' := by
  have hst := I.stamp i x hx
  have hown := I.owner i x hx
  have hge := Nat.le_refl s.audio.generation
  cases hpc : x.pc with
  | loaded =>
    simp only [sendStep, hpc, Option.some.injEq] at h
    subst h
    exact I.moveSend (q := s.audio.queue) hx hge nofun (fun _ _ hp => hp) nofun
      (by rw [hpc]; rfl) (by rw [hpc]; nofun)
      fun _ => ⟨hge, fun hlt => absurd hlt (Nat.not_lt.mpr I.observed_le)⟩
  | stamped =>
    rw [hpc] at hst
    simp only [sendStep, hpc] at h
    split at h
    · cases h
      exact I.moveSend (q := s.audio.queue) hx hge nofun (fun _ _ hp => hp) nofun
        (by rw [hpc]; rfl) (fun _ => rfl) nofun
    · cases h
      exact I.moveSend (q := s.audio.queue) hx hge nofun (fun _ _ hp => hp) nofun
        (by rw [hpc]; rfl) (fun _ => rfl) fun _ => hst rfl
  | checked =>
    rw [hpc] at hst
    simp only [sendStep, hpc] at h
    split at h
    · rename_i hfree
      cases h
      refine I.moveSend (q := s.audio.queue) hx hge (fun _ => rfl) (fun j _ hp => ?_) nofun
        (by rw [hpc]; rfl) (fun _ => rfl) fun _ => hst rfl
      rw [hfree] at hp
      cases hp
    · cases h
      exact I.moveSend (q := s.audio.queue) hx hge nofun (fun _ _ hp => hp) nofun
        (by rw [hpc]; rfl) (fun _ => rfl) fun _ => hst rfl
  | locked =>
    rw [hpc] at hst hown
    simp only [sendStep, hpc] at h
    split at h
    · cases h
      exact I.moveSend (q := s.audio.queue) hx hge (fun _ => hown rfl) (fun _ _ hp => hp) nofun
        (by rw [hpc]; rfl) (fun _ => rfl) fun _ => hst rfl
    · rename_i hroom
      cases h
      refine I.moveSend (q := s.audio.queue) hx hge (fun _ => hown rfl) (fun _ _ hp => hp)
        (fun _ hc => ?_) (by rw [hpc]; rfl) (fun _ => rfl) fun _ => hst rfl
      have hc' : x.packet.isCriticalRelease = false := hc
      simp only [hc', Bool.false_eq_true, not_false_eq_true, true_and] at hroom
      omega
  | room =>
    rw [hpc] at hst hown
    simp only [sendStep, hpc] at h
    split at h
    · cases h
      exact I.push hx hpc
    · cases h
      exact I.moveSend (q := s.audio.queue) hx hge (fun _ => hown rfl) (fun _ _ hp => hp) nofun
        (by rw [hpc]; rfl) (fun _ => rfl) fun _ => hst rfl
  | unlocking sent =>
    rw [hpc] at hst hown
    have hother : ∀ (j : Nat), j ≠ i → s.producer = some j → (none : Option Nat) = some j := by
      intro j hne hp
      rw [hown rfl] at hp
      exact absurd (Option.some.inj hp).symm hne
    cases sent with
    | true =>
      simp only [sendStep, hpc, Option.some.injEq] at h
      subst h
      exact I.moveSend (q := s.audio.queue) hx hge nofun hother nofun
        (by rw [hpc]; rfl) (fun _ => rfl) fun _ => hst rfl
    | false =>
      simp only [sendStep, hpc, Option.some.injEq] at h
      subst h
      exact I.moveSend (q := s.audio.queue) hx hge nofun hother nofun
        (by rw [hpc]; rfl) (fun _ => rfl) fun _ => hst rfl
  | failed =>
    rw [hpc] at hst
    simp only [sendStep, hpc, Option.some.injEq] at h
    subst h
    split
    · exact I.moveSend hx hge nofun (fun _ _ hp => hp) nofun
        (by rw [hpc]; rfl) (fun _ => rfl) fun _ => hst rfl
    · exact I.moveSend hx hge nofun (fun _ _ hp => hp) nofun
        (by rw [hpc]; rfl) (fun _ => rfl) fun _ => hst rfl
  | fallback =>
    rw [hpc] at hst
    simp only [sendStep, hpc, Option.some.injEq] at h
    subst h
    exact I.moveSend (q := s.audio.queue) hx (Nat.le_succ _) nofun (fun _ _ hp => hp) nofun
      (by rw [hpc]; rfl) (fun _ => rfl)
      fun _ => ⟨Nat.le_succ_of_le (hst rfl).1, (hst rfl).2⟩
  | returned outcome calls => simp [sendStep, hpc] at h

end RtpOscMidi.L5.AudioIngress
