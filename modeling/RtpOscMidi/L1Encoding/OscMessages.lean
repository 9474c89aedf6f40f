import RtpOscMidi.L1Encoding.OscArguments

/-!
# Reading messages and time tags

The decoder reads from a message what the message carries, and from a time tag
the instant nearest to the wall clock.
-/
namespace RtpOscMidi.L1.OscPacket

open Core Core.Binary32 MidiMessage

/-! ## Messages -/

theorem status_facts (status : UInt8) :
    (messageLength status = none ∨ messageLength status = some 1 ∨ messageLength status = some 2 ∨
      messageLength status = some 3) ∧
    (messageLength status ≠ none → status ≠ 0xF0) ∧
    (status &&& 0xF0 = 0x90 → messageLength status = some 3) := by
  revert status
  exact forall_byte (by decide +kernel)

/-- `normalizeMessage` on the bytes that a status asks for. -/
theorem normalize_take {status d1 d2 : UInt8} {len : Nat} (h : messageLength status = some len)
    (data : List UInt8) :
    normalizeMessage ([status, d1, d2].take len) = some data ↔
      ¬([d1, d2].take (len - 1)).any (128 ≤ ·) ∧
        data = (if status &&& 0xF0 = 0x90 ∧ d2 = 0 then 0x80 ||| (status &&& 15) else status) ::
          [d1, d2].take (len - 1) := by
  obtain ⟨hcases, hne, hon⟩ := status_facts status
  have hsys : status ≠ 0xF0 := hne (by rw [h]; nofun)
  by_cases h3 : status &&& 0xF0 = 0x90
  · obtain rfl : len = 3 := by rw [hon h3] at h; cases h; rfl
    simp [normalizeMessage, hsys, h, h3]
    grind
  · rw [h] at hcases
    rcases hcases with hl | hl | hl | hl
    · cases hl
    · cases hl; simp [normalizeMessage, hsys, h, h3, @eq_comm _ data]
    · cases hl; simp [normalizeMessage, hsys, h, h3, @eq_comm _ data]
    · cases hl; simp [normalizeMessage, hsys, h, h3, @eq_comm _ data]

/-- `midiArgument` on its four bytes. -/
theorem midiArgument_four (port status d1 d2 : UInt8) :
    midiArgument ",m".toList [port, status, d1, d2] = match messageLength status with
      | none => err "invalid OSC MIDI status"
      | some len =>
        if ([d1, d2].take (len - 1)).any (128 ≤ ·) then err "invalid OSC MIDI data"
        else .ok ((if status &&& 0xF0 = 0x90 ∧ d2 = 0 then 0x80 ||| (status &&& 15) else status) ::
          [d1, d2].take (len - 1)) := by
  obtain ⟨hcases, -, -⟩ := status_facts status
  unfold midiArgument
  rw [if_neg (by simp)]
  have h1 : index [port, status, d1, d2] 1 = .ok status := rfl
  have h2 : index [port, status, d1, d2] 2 = .ok d1 := rfl
  have h3 : index [port, status, d1, d2] 3 = .ok d2 := rfl
  rw [h1, h2, h3]
  simp only [ok_bind]
  rcases hcases with h | h | h | h <;> rw [h] <;> rfl

theorem midiArgument_eq_ok {tags : List Char} {args data : List UInt8}
    (ha : Arguments (tags.drop 1) args) :
    midiArgument tags args = .ok data ↔ tags = ",m".toList ∧ ∃ port status d1 d2 len,
      args = [port, status, d1, d2] ∧ messageLength status = some len ∧
        normalizeMessage ([status, d1, d2].take len) = some data := by
  by_cases ht : tags = ",m".toList
  · subst ht
    have hl := arguments_four (.inr (.inr rfl)) ha
    match args, hl with
    | [port, status, d1, d2], _ =>
      rw [midiArgument_four]
      cases hs : messageLength status with
      | none => simp [err, hs]
      | some len =>
        simp only [true_and]
        split
        · next hany =>
          constructor
          · intro h; cases h
          · intro ⟨_, _, _, _, _, he, hl, hn⟩
            cases he
            obtain rfl : len = _ := Option.some.inj (hs.symm.trans hl)
            exact absurd hany ((normalize_take hs data).mp hn).1
        · next hany =>
          constructor
          · intro h
            cases h
            exact ⟨port, status, d1, d2, len, rfl, hs, (normalize_take hs _).mpr ⟨hany, rfl⟩⟩
          · intro ⟨_, _, _, _, _, he, hl, hn⟩
            cases he
            obtain rfl : len = _ := Option.some.inj (hs.symm.trans hl)
            rw [((normalize_take hs data).mp hn).2]
  · rw [midiArgument, if_pos ht]
    constructor
    · intro h; cases h
    · intro ⟨h, _⟩; exact absurd h ht

theorem midiArgument_ne_panicked {tags : List Char} {args : List UInt8}
    (ha : Arguments (tags.drop 1) args) : midiArgument tags args ≠ .error .panicked := by
  by_cases ht : tags = ",m".toList
  · subst ht
    have hl := arguments_four (.inr (.inr rfl)) ha
    match args, hl with
    | [port, status, d1, d2], _ =>
      rw [midiArgument_four]
      split
      · exact err_ne_panicked _
      · split
        · exact err_ne_panicked _
        · exact ok_ne_panicked _
  · rw [midiArgument, if_pos ht]
    exact err_ne_panicked _

theorem toI32_eq {n m : Nat} (hn : n < 256 ^ 4) (hm : m < 2147483648) : toI32 n = m ↔ n = m := by
  unfold toI32
  split <;> omega

/-- Four bytes are the number they carry. -/
theorem eq_be_four {bytes : List UInt8} {n : Nat} (hl : bytes.length = 4) (h : ofBE bytes = n) :
    bytes = be 4 n := by
  rw [← h, ← hl, be_ofBE]

theorem switchPressed_eq_ok {tags : List Char} {args : List UInt8} {pressed : Bool}
    (ha : Arguments (tags.drop 1) args) :
    switchPressed tags args = .ok pressed ↔ Switch tags args pressed := by
  unfold switchPressed
  by_cases hi : tags = ",i".toList
  · subst hi
    have hl := arguments_four (.inl rfl) ha
    have hlt : ofBE args < 256 ^ 4 := hl ▸ ofBE_lt args
    rw [if_pos rfl, beNat_eq hl]
    simp only [ok_bind]
    constructor
    · intro h
      split at h
      · next h0 =>
        cases h
        rw [eq_be_four hl ((toI32_eq hlt (by decide)).mp h0)]
        exact .int false
      split at h
      · next h1 =>
        cases h
        rw [eq_be_four hl ((toI32_eq hlt (by decide)).mp h1)]
        exact .int true
      · cases h
    · intro h
      cases h with
      | int =>
        cases pressed
        · rfl
        · rfl
  rw [if_neg hi]
  by_cases hf : tags = ",f".toList
  · subst hf
    have hl := arguments_four (.inr (.inl rfl)) ha
    have hlt : ofBE args < 256 ^ 4 := hl ▸ ofBE_lt args
    rw [if_pos rfl, beNat_eq hl]
    simp only [ok_bind]
    have hbits : args = be 4 (UInt32.ofNat (ofBE args)).toNat := by
      refine eq_be_four hl ?_
      rw [UInt32.toNat_ofNat']
      omega
    constructor
    · intro h
      split at h
      · cases h
      · next hfin =>
        cases h
        have := @Switch.float (UInt32.ofNat (ofBE args)) (by simpa using hfin)
        rwa [← hbits] at this
    · intro h
      cases h with
      | float hfin =>
        rename_i bits
        have hb : UInt32.ofNat (ofBE (be 4 bits.toNat)) = bits := by
          rw [ofBE_be (Nat.lt_of_lt_of_eq bits.toNat_lt (by decide)), UInt32.ofNat_toNat]
        rw [hb, if_neg (by simp [hfin])]
        rfl
  rw [if_neg hf]
  by_cases ht : tags = ",T".toList
  · subst ht
    obtain rfl := arguments_empty (.inl rfl) ha
    rw [if_pos rfl]
    constructor
    · intro h; cases h; exact .true
    · intro h; cases h with | true => rfl
  rw [if_neg ht]
  by_cases hn : tags = ",F".toList
  · subst hn
    obtain rfl := arguments_empty (.inr rfl) ha
    rw [if_pos rfl]
    constructor
    · intro h; cases h; exact .false
    · intro h; cases h with | false => rfl
  rw [if_neg hn]
  constructor
  · intro h; cases h
  · intro h
    cases h with
    | int => exact absurd rfl hi
    | float => exact absurd rfl hf
    | true => exact absurd rfl ht
    | false => exact absurd rfl hn

theorem switchPressed_ne_panicked {tags : List Char} {args : List UInt8}
    (ha : Arguments (tags.drop 1) args) : switchPressed tags args ≠ .error .panicked := by
  unfold switchPressed
  split
  · next hi =>
    subst hi
    rw [beNat_eq (arguments_four (.inl rfl) ha)]
    simp only [ok_bind]
    split
    · exact ok_ne_panicked _
    split
    · exact ok_ne_panicked _
    · exact err_ne_panicked _
  split
  · next hf =>
    subst hf
    rw [beNat_eq (arguments_four (.inr (.inl rfl)) ha)]
    simp only [ok_bind]
    split
    · exact err_ne_panicked _
    · exact ok_ne_panicked _
  split
  · exact ok_ne_panicked _
  split
  · exact ok_ne_panicked _
  · exact err_ne_panicked _

theorem stripPrefix_eq_some {pre text name : List Char} :
    stripPrefix pre text = some name ↔ text = pre ++ name := by
  unfold stripPrefix
  constructor
  · intro h
    split at h
    · next hp =>
      obtain ⟨name', rfl⟩ := List.isPrefixOf_iff_prefix.mp hp
      cases h
      rw [List.drop_left]
    · cases h
  · intro h
    rw [h, if_pos (List.isPrefixOf_iff_prefix.mpr ⟨name, rfl⟩), List.drop_left]

theorem parameterPath_second : 1 < parameterPath.length ∧ parameterPath[1]? = some 'a' := by
  decide +kernel

theorem parameterPath_ne_midi (name : List Char) : parameterPath ++ name ≠ "/midi".toList := by
  refine fun h => absurd (congrArg (fun text => text[1]?) h) ?_
  simp only [List.getElem?_append_left parameterPath_second.1, parameterPath_second.2]
  decide

theorem midiOf_eq_ok {address tags : List Char} {args : List UInt8} {o : Option (List UInt8)}
    (ha : Arguments (tags.drop 1) args) :
    midiOf address tags args = .ok o ↔ Carries address tags args o := by
  unfold midiOf
  by_cases hm : address = "/midi".toList
  · subst hm
    rw [if_pos rfl, bind_eq_ok]
    constructor
    · intro ⟨data, h, ho⟩
      cases ho
      obtain ⟨rfl, _, _, _, _, _, rfl, hlen, hn⟩ := (midiArgument_eq_ok ha).mp h
      exact .midi hlen hn
    · intro h
      generalize haddr : "/midi".toList = address at h
      cases h with
      | midi hlen hn =>
        exact ⟨_, (midiArgument_eq_ok ha).mpr ⟨rfl, _, _, _, _, _, rfl, hlen, hn⟩, rfl⟩
      | switch => exact absurd haddr.symm (parameterPath_ne_midi _)
      | other hne => exact absurd haddr.symm hne
  · rw [if_neg hm]
    cases ht : (stripPrefix parameterPath address).bind switchTarget with
    | some target =>
      obtain ⟨name, hname, htarget⟩ := Option.bind_eq_some_iff.mp ht
      have haddr := stripPrefix_eq_some.mp hname
      subst haddr
      dsimp only
      rw [bind_eq_ok]
      constructor
      · intro ⟨pressed, h, ho⟩
        cases ho
        exact .switch htarget ((switchPressed_eq_ok ha).mp h)
      · intro h
        generalize haddr : parameterPath ++ name = address at h
        cases h with
        | midi => exact absurd haddr (parameterPath_ne_midi _)
        | switch htarget' hs =>
          obtain rfl := List.append_cancel_left haddr
          obtain rfl := Option.some.inj (htarget.symm.trans htarget')
          exact ⟨_, (switchPressed_eq_ok ha).mpr hs, rfl⟩
        | other _ hno =>
          have := hno name haddr.symm
          rw [htarget] at this
          cases this
    | none =>
      have hno : ∀ name, address = parameterPath ++ name → switchTarget name = none := by
        intro name haddr
        rw [stripPrefix_eq_some.mpr haddr] at ht
        exact ht
      constructor
      · intro h
        cases h
        exact .other hm hno
      · intro h
        cases h with
        | midi => exact absurd rfl hm
        | switch htarget =>
          have := hno _ rfl
          rw [htarget] at this
          cases this
        | other => rfl

theorem midiOf_ne_panicked {address tags : List Char} {args : List UInt8}
    (ha : Arguments (tags.drop 1) args) : midiOf address tags args ≠ .error .panicked := by
  unfold midiOf
  split
  · exact bind_ne_panicked (midiArgument_ne_panicked ha) fun _ _ => ok_ne_panicked _
  · split
    · exact bind_ne_panicked (switchPressed_ne_panicked ha) fun _ _ => ok_ne_panicked _
    · exact ok_ne_panicked _

theorem switchMessage_key : ∀ (pressed : Bool) (key : Fin 88),
    normalizeMessage (switchMessage (some (key + 1)) pressed) =
      some (switchMessage (some (key + 1)) pressed) := by
  decide +kernel

/-- What a switch sends is a normalized message: its keys are the 88 of a
piano. -/
theorem switchMessage_normalized {name : List Char} {target : Option Nat} (pressed : Bool)
    (h : switchTarget name = some target) :
    normalizeMessage (switchMessage target pressed) = some (switchMessage target pressed) := by
  unfold switchTarget at h
  split at h
  · cases h
    cases pressed <;> rfl
  · obtain ⟨index, hi, ht⟩ := Option.map_eq_some_iff.mp h
    obtain ⟨_, hrange⟩ := Option.filter_eq_some_iff.mp hi
    simp only [Bool.and_eq_true, decide_eq_true_eq] at hrange
    obtain ⟨key, rfl⟩ : ∃ key : Fin 88, index = key + 1 := ⟨⟨index - 1, by omega⟩, by simp; omega⟩
    subst ht
    exact switchMessage_key pressed key

/-- Every message is a normalized one. -/
theorem Carries.normalized {address tags : List Char} {args data : List UInt8}
    (h : Carries address tags args (some data)) : normalizeMessage data = some data := by
  cases h with
  | midi _ hn => exact normalizeMessage_idempotent hn
  | switch ht _ => exact switchMessage_normalized _ ht

/-! ## Deadlines -/

theorem toInt_sub (a b : UInt32) :
    (a - b).toInt32.toInt = ((a.toNat : Int) - b.toNat).bmod (2 ^ 32) := by
  show (a - b).toBitVec.toInt = _
  rw [UInt32.toBitVec_sub, BitVec.toInt_sub]
  simp only [BitVec.toInt_eq_toNat_bmod, Int.bmod_sub_bmod, Int.sub_bmod_bmod]
  rfl

/-- The wrapping arithmetic finds the nearest era. -/
theorem tagDelta_eq {wall : Int} (h : 0 ≤ wall) (tag : UInt64) :
    tagDelta tag wall.toNat = offset wall tag := by
  obtain ⟨unixNs, rfl⟩ := Int.eq_ofNat_of_zero_le h
  have hs : (tag >>> 32).toUInt32.toNat = tag.toNat / 2 ^ 32 := by
    rw [UInt64.toNat_toUInt32, UInt64.toNat_shiftRight, Nat.shiftRight_eq_div_pow]
    have := tag.toNat_lt
    simp
    omega
  have hf : tag.toUInt32.toNat = tag.toNat % 2 ^ 32 := UInt64.toNat_toUInt32 tag
  have hn : ((UInt32.ofNat (unixNs / 1000000000 + 2208988800)).toNat : Int) =
      ((2208988800 + (unixNs : Int) / 1000000000) % (2 ^ 32 : Nat) : Int) := by
    rw [UInt32.toNat_ofNat']
    omega
  unfold tagDelta offset nsPerSecond
  dsimp only
  rw [Int.toNat_natCast, toInt_sub, hs, hf, hn, Int.sub_emod_bmod, Int.sub_sub]
  rfl

/-- The tag's instant on the Unix clock, in one of the NTP eras. -/
def tagNs (era : Int) (tag : UInt64) : Int :=
  (era * 2 ^ 32 + (tag.toNat / 2 ^ 32 : Nat) - 2208988800) * nsPerSecond +
    (tag.toNat % 2 ^ 32 * 1000000000 / 2 ^ 32 : Nat)

/-- `offset` is the distance to the tag in the era where its seconds are within
half an era of the wall clock's. -/
theorem offset_era (wall : Int) (tag : UInt64) : ∃ era, offset wall tag = tagNs era tag - wall ∧
    -2 ^ 31 ≤ era * 2 ^ 32 + (tag.toNat / 2 ^ 32 : Nat) - 2208988800 - wall / nsPerSecond ∧
    era * 2 ^ 32 + (tag.toNat / 2 ^ 32 : Nat) - 2208988800 - wall / nsPerSecond < 2 ^ 31 := by
  unfold offset tagNs nsPerSecond
  generalize tag.toNat % 2 ^ 32 * 1000000000 / 2 ^ 32 = fraction
  generalize hx : ((tag.toNat / 2 ^ 32 : Nat) - 2208988800 - wall / 1000000000 : Int) = x
  obtain ⟨era, hera⟩ := @Int.dvd_self_sub_bmod x (2 ^ 32)
  have hlo := @Int.le_bmod x (2 ^ 32) (by decide)
  have hhi := @Int.bmod_lt x (2 ^ 32) (by decide)
  refine ⟨-era, ?_, ?_, ?_⟩ <;> omega

/-- The two checks of a bundle's tag. -/
theorem deadline_chain {wall : Int} {now d : Nat} {chain : List UInt64} {tag : UInt64} :
    (¬(tag ≠ 1 ∧ (chain.find? (· ≠ 1)).any fun outer => (tag - outer).toInt64 < 0) ∧
        deadline tag wall now (due wall now chain) = .ok d) ↔
      (tag = 1 ∨ Timed wall now chain tag) ∧ d = due wall now (tag :: chain) := by
  unfold deadline
  by_cases h1 : tag = 1
  · simp [h1, due, @eq_comm _ d]
  have hdue : (if offset wall tag ≤ 0 then now else now + (offset wall tag).toNat) =
      tagDue wall now tag := by
    unfold tagDue
    split <;> omega
  have hany : (¬(tag ≠ 1 ∧ (chain.find? (· ≠ 1)).any fun outer => (tag - outer).toInt64 < 0)) ↔
      ∀ outer, chain.find? (· ≠ 1) = some outer → 0 ≤ (tag - outer).toInt64 := by
    cases chain.find? (· ≠ 1) <;> simp [h1]
  rw [if_neg h1, hany]
  constructor
  · intro ⟨horder, h⟩
    split at h
    · cases h
    next hwall =>
    rw [tagDelta_eq (by omega)] at h
    dsimp only at h
    split at h
    · cases h
    next hahead =>
    rw [hdue] at h
    split at h
    · cases h
    next hnest =>
    cases h
    have hle : due wall now chain ≤ tagDue wall now tag := Nat.le_of_not_lt hnest
    refine ⟨.inr ⟨by omega, by omega, horder, hle⟩, ?_⟩
    rw [due, if_neg h1, Nat.max_eq_left hle]
  · intro ⟨ht, hd⟩
    rcases ht with ht | ⟨hwall, hahead, horder, hnest⟩
    · exact absurd ht h1
    refine ⟨horder, ?_⟩
    rw [if_neg (by omega), tagDelta_eq hwall]
    dsimp only
    rw [if_neg (by omega), hdue, if_neg (Nat.not_lt.mpr hnest), hd, due, if_neg h1,
      Nat.max_eq_left hnest]

theorem deadline_ne_panicked (tag : UInt64) (wall : Int) (now parent : Nat) :
    deadline tag wall now parent ≠ .error .panicked := by
  unfold deadline
  split
  · exact ok_ne_panicked _
  split
  · exact err_ne_panicked _
  dsimp only
  split
  · exact err_ne_panicked _
  generalize (if tagDelta tag wall.toNat ≤ 0 then now else _) = d
  split
  · exact err_ne_panicked _
  · exact ok_ne_panicked _

end RtpOscMidi.L1.OscPacket
