import RtpOscMidi.L1Encoding.OscGrammar

/-!
# Reading strings and arguments

Slice by slice the decoder accepts what the grammar spells, and reads no byte
outside the packet.
-/
namespace RtpOscMidi.L1.OscPacket

open Core Core.Binary32 MidiMessage

/-! ## Slices and strings -/

theorem ok_bind {α β : Type} (a : α) (f : α → Result β) : (Except.ok a >>= f) = f a := rfl

theorem bind_eq_ok {α β : Type} {x : Result α} {f : α → Result β} {b : β} :
    (x >>= f) = .ok b ↔ ∃ a, x = .ok a ∧ f a = .ok b := by
  cases x with
  | error e =>
    constructor
    · intro h; cases h
    · intro ⟨_, h, _⟩; cases h
  | ok a =>
    constructor
    · intro h; exact ⟨a, rfl, h⟩
    · intro ⟨_, h, hf⟩; cases h; exact hf

theorem bind_ne_panicked {α β : Type} {x : Result α} {f : α → Result β}
    (hx : x ≠ .error .panicked) (hf : ∀ a, x = .ok a → f a ≠ .error .panicked) :
    (x >>= f) ≠ .error .panicked := by
  cases x with
  | error e => intro h; exact hx (by cases h; rfl)
  | ok a => exact hf a rfl

theorem err_ne_panicked {α : Type} (message : String) :
    (err message : Result α) ≠ .error .panicked := by
  intro h; cases h

theorem ok_ne_panicked {α : Type} (a : α) : (.ok a : Result α) ≠ .error .panicked := by
  intro h; cases h

theorem take_eq_ok {bytes part rest : List UInt8} {size : Nat} :
    take bytes size = .ok (part, rest) ↔ bytes = part ++ rest ∧ part.length = size := by
  unfold take
  constructor
  · intro h
    split at h
    · next hle =>
      cases h
      exact ⟨(List.take_append_drop ..).symm, by rw [List.length_take]; omega⟩
    · cases h
  · intro ⟨hb, hl⟩
    subst hb hl
    rw [if_pos (by rw [List.length_append]; omega), List.take_left, List.drop_left]

theorem take_ne_panicked (bytes : List UInt8) (size : Nat) : take bytes size ≠ .error .panicked := by
  unfold take
  split
  · intro h; cases h
  · intro h; cases h

/-- The first zero of a string and what lies before it. -/
theorem findIdx_zero {bytes : List UInt8} {stop : Nat} (h : bytes.findIdx? (· == 0) = some stop) :
    ∃ chars post, bytes = chars ++ 0 :: post ∧ chars.length = stop ∧ ∀ b ∈ chars, b ≠ 0 := by
  obtain ⟨hlt, h0, hne⟩ := List.findIdx?_eq_some_iff_getElem.mp h
  refine ⟨bytes.take stop, bytes.drop (stop + 1), ?_, by rw [List.length_take]; omega, ?_⟩
  · rw [← beq_iff_eq.mp h0, List.getElem_cons_drop, List.take_append_drop]
  · intro b hb
    obtain ⟨j, hj, rfl⟩ := List.mem_iff_getElem.mp hb
    rw [List.length_take] at hj
    rw [List.getElem_take]
    simpa using hne j (by omega)

theorem findIdx_of_zero {chars post : List UInt8} (h : ∀ b ∈ chars, b ≠ 0) :
    (chars ++ 0 :: post).findIdx? (· == 0) = some chars.length := by
  rw [List.findIdx?_eq_some_iff_getElem]
  refine ⟨by simp, by simp, fun j hj => ?_⟩
  rw [List.getElem_append_left (by omega)]
  simpa using h _ (List.getElem_mem _)

theorem slice_zero (bytes : List UInt8) {stop : Nat} (h : stop ≤ bytes.length) :
    slice bytes 0 stop = .ok (bytes.take stop) := by
  simp [slice, h]

theorem slice_suffix (bytes : List UInt8) {start : Nat} (h : start ≤ bytes.length) :
    slice bytes start bytes.length = .ok (bytes.drop start) := by
  have : (bytes.drop start).take (bytes.length - start) = bytes.drop start :=
    List.take_of_length_le (by simp)
  simp [slice, h, this]

/-- `string` where the first zero is known. -/
theorem string_of_zero {chars post : List UInt8} (h : ∀ b ∈ chars, b ≠ 0) :
    string (chars ++ 0 :: post) =
      if align (chars.length + 4) ≤ (chars ++ 0 :: post).length then
        if !(chars.all (· < 128)) ||
            (((chars ++ 0 :: post).take (align (chars.length + 4))).drop chars.length).any (· != 0)
        then err "invalid OSC string padding"
        else .ok (toChars chars, (chars ++ 0 :: post).drop (align (chars.length + 4)))
      else err "truncated OSC argument" := by
  have hle : chars.length ≤ align (chars.length + 4) := by unfold align; omega
  unfold string
  rw [findIdx_of_zero h]
  unfold take
  dsimp only
  by_cases hn : align (chars.length + 4) ≤ (chars ++ 0 :: post).length
  · have hpart : ((chars ++ 0 :: post).take (align (chars.length + 4))).length =
        align (chars.length + 4) := by rw [List.length_take]; omega
    have htext : ((chars ++ 0 :: post).take (align (chars.length + 4))).take chars.length = chars := by
      rw [List.take_take, Nat.min_eq_left hle, List.take_left]
    rw [if_pos hn, if_pos hn]
    show (slice _ 0 chars.length >>= _) = _
    rw [slice_zero _ (Nat.le_trans hle (Nat.le_of_eq hpart.symm)), htext]
    show (slice _ chars.length (List.length _) >>= _) = _
    rw [slice_suffix _ (Nat.le_trans hle (Nat.le_of_eq hpart.symm))]
    rfl
  · rw [if_neg hn, if_neg hn]
    rfl

theorem string_eq_ok {bytes rest : List UInt8} {text : List Char} :
    string bytes = .ok (text, rest) ↔ ∃ enc, bytes = enc ++ rest ∧ PaddedString text enc := by
  constructor
  · intro h
    cases hz : bytes.findIdx? (· == 0) with
    | none =>
      unfold string at h
      rw [hz] at h
      cases h
    | some stop =>
      obtain ⟨chars, post, rfl, rfl, hne⟩ := findIdx_zero hz
      rw [string_of_zero hne] at h
      split at h
      · next hle =>
        split at h
        · cases h
        · next hpad =>
          cases h
          simp only [Bool.or_eq_true, Bool.not_eq_true', not_or, Bool.not_eq_false,
            List.all_eq_true, decide_eq_true_eq, List.any_eq_true, bne_iff_ne, not_exists, not_and,
            Decidable.not_not] at hpad
          obtain ⟨hascii, hzero⟩ := hpad
          refine ⟨(chars ++ 0 :: post).take (align (chars.length + 4)),
            (List.take_append_drop ..).symm, chars, align (chars.length + 4) - chars.length, rfl, ?_,
            by unfold align; omega, by unfold align; omega, by unfold align; omega,
            fun b hb => ⟨hne b hb, hascii b hb⟩⟩
          generalize hn : align (chars.length + 4) = n at hzero hle ⊢
          have hcn : chars.length ≤ n := by rw [← hn]; unfold align; omega
          generalize hpart : (chars ++ 0 :: post).take n = part at hzero ⊢
          have htext : part.take chars.length = chars := by
            rw [← hpart, List.take_take, Nat.min_eq_left hcn, List.take_left]
          have hpad : part.drop chars.length = List.replicate (n - chars.length) 0 := by
            rw [List.eq_replicate_iff]
            exact ⟨by rw [List.length_drop, ← hpart, List.length_take]; omega, hzero⟩
          rw [← hpad]
          calc part = part.take chars.length ++ part.drop chars.length :=
                (List.take_append_drop ..).symm
            _ = chars ++ part.drop chars.length := by rw [htext]
      · cases h
  · intro ⟨enc, hb, chars, k, ht, he, h1, h4, hmod, hchars⟩
    subst ht he hb
    have hn : align (chars.length + 4) = (chars ++ List.replicate k 0).length := by
      rw [List.length_append, List.length_replicate]; unfold align; omega
    have hzero : chars ++ List.replicate k 0 ++ rest =
        chars ++ 0 :: (List.replicate (k - 1) 0 ++ rest) := by
      obtain ⟨k, rfl⟩ : ∃ k', k = k' + 1 := ⟨k - 1, by omega⟩
      simp [List.replicate_succ]
    have hle : align (chars.length + 4) ≤ (chars ++ List.replicate k 0 ++ rest).length := by
      rw [hn]; simp only [List.length_append]; omega
    rw [hzero, string_of_zero fun b hb => (hchars b hb).1, ← hzero, if_pos hle, hn, List.take_left,
      List.drop_left, List.drop_left, if_neg]
    simp only [Bool.or_eq_true, Bool.not_eq_true', not_or, Bool.not_eq_false, List.all_eq_true,
      decide_eq_true_eq, List.any_eq_true, bne_iff_ne, not_exists, not_and, Decidable.not_not]
    exact ⟨fun b hb => (hchars b hb).2, fun b hb => List.eq_of_mem_replicate hb⟩

theorem string_ne_panicked (bytes : List UInt8) : string bytes ≠ .error .panicked := by
  cases hz : bytes.findIdx? (· == 0) with
  | none =>
    unfold string
    rw [hz]
    exact err_ne_panicked _
  | some stop =>
    obtain ⟨chars, post, rfl, -, hne⟩ := findIdx_zero hz
    rw [string_of_zero hne]
    split
    · split
      · exact err_ne_panicked _
      · exact ok_ne_panicked _
    · exact err_ne_panicked _

theorem beNat_eq {bytes : List UInt8} {size : Nat} (h : bytes.length = size) :
    beNat bytes size = .ok (ofBE bytes) := if_pos h

theorem toI32_nonneg {n : Nat} (h : n < 256 ^ 4) : 0 ≤ toI32 n ↔ n < 2147483648 := by
  unfold toI32
  split <;> omega

theorem toI32_toNat {n : Nat} (h : n < 2147483648) : (toI32 n).toNat = n := by
  unfold toI32
  rw [if_pos h]
  rfl

/-! ## Arguments -/

/-- A blob's padded data, read and written. -/
theorem padding_zero {data : List UInt8} {size : Nat} (hl : data.length = align (size + 3)) :
    (data.drop size).any (· != 0) = false ↔
      ∃ body k, data = body ++ List.replicate k 0 ∧ body.length = size ∧ k < 4 ∧
        (body.length + k) % 4 = 0 := by
  have hsize : size ≤ data.length := by rw [hl]; unfold align; omega
  constructor
  · intro h
    simp only [List.any_eq_false, bne_iff_ne, ne_eq, Decidable.not_not] at h
    have hz : data.drop size = List.replicate (data.length - size) 0 := by
      rw [List.eq_replicate_iff]
      exact ⟨List.length_drop, h⟩
    refine ⟨data.take size, data.length - size, ?_, by rw [List.length_take]; omega, ?_, ?_⟩
    · rw [← hz, List.take_append_drop]
    · rw [hl]; unfold align; omega
    · rw [List.length_take, hl]; unfold align at hl ⊢; omega
  · intro ⟨body, k, hd, hb, _, _⟩
    subst hd hb
    rw [List.drop_left, List.any_eq_false]
    intro b hb
    simp [List.eq_of_mem_replicate hb]

theorem align_three {n k : Nat} (hk : k < 4) (h : (n + k) % 4 = 0) : align (n + 3) = n + k := by
  unfold align; omega

/-- The branch of `skipArgument` for a blob. -/
theorem skipArgument_blob {bytes rest : List UInt8} :
    skipArgument 'b' bytes = .ok rest ↔ ∃ data k, bytes =
      be 4 data.length ++ (data ++ List.replicate k 0) ++ rest ∧ data.length < 2147483648 ∧ k < 4 ∧
        (data.length + k) % 4 = 0 := by
  unfold skipArgument
  rw [if_neg (by decide), if_neg (by decide), if_neg (by decide), if_pos rfl, bind_eq_ok]
  constructor
  · intro ⟨⟨head, tail⟩, ht, h⟩
    obtain ⟨hb, hl⟩ := take_eq_ok.mp ht
    obtain ⟨size, hsize, h⟩ := bind_eq_ok.mp h
    rw [beNat_eq hl] at hsize
    cases hsize
    dsimp only at h
    split at h
    · cases h
    next hneg =>
    have hlt : ofBE head < 2147483648 := (toI32_nonneg (hl ▸ ofBE_lt head)).mp (by omega)
    rw [toI32_toNat hlt] at h
    obtain ⟨⟨data, rest'⟩, hd, h⟩ := bind_eq_ok.mp h
    obtain ⟨htail, hdl⟩ := take_eq_ok.mp hd
    obtain ⟨padding, hp, h⟩ := bind_eq_ok.mp h
    rw [slice_suffix _ (by rw [hdl]; unfold align; omega)] at hp
    cases hp
    split at h
    · cases h
    next hzero =>
    cases h
    obtain ⟨body, k, hbody, hbl, hk, hmod⟩ :=
      (padding_zero hdl).mp (Bool.eq_false_of_not_eq_true hzero)
    refine ⟨body, k, ?_, by omega, hk, hmod⟩
    rw [hbl, ← hl, be_ofBE, ← hbody, hb, htail]
    simp only [List.append_assoc]
  · intro ⟨data, k, hb, hlt, hk, hmod⟩
    have hsize : ofBE (be 4 data.length) = data.length := ofBE_be (by omega)
    refine ⟨(be 4 data.length, data ++ List.replicate k 0 ++ rest), take_eq_ok.mpr ⟨?_, by simp⟩, ?_⟩
    · rw [hb, List.append_assoc]
    show (beNat (be 4 data.length) 4 >>= _) = _
    rw [beNat_eq (length_be ..), hsize]
    refine bind_eq_ok.mpr ⟨_, rfl, ?_⟩
    rw [if_neg (by have := (toI32_nonneg (by omega)).mpr hlt; omega), toI32_toNat hlt,
      align_three hk hmod]
    have hdl : (data ++ List.replicate k 0).length = align (data.length + 3) := by
      rw [align_three hk hmod]; simp
    refine bind_eq_ok.mpr ⟨(data ++ List.replicate k 0, rest), take_eq_ok.mpr ⟨rfl, by simp⟩, ?_⟩
    refine bind_eq_ok.mpr ⟨_, slice_suffix _ (by simp), ?_⟩
    rw [(padding_zero hdl).mpr ⟨data, k, rfl, rfl, hk, hmod⟩]
    rfl

theorem skipArgument_eq_ok {tag : Char} {bytes rest : List UInt8} :
    skipArgument tag bytes = .ok rest ↔ ∃ arg, bytes = arg ++ rest ∧ Argument tag arg := by
  by_cases hb : tag = 'b'
  · subst hb
    rw [skipArgument_blob]
    constructor
    · intro ⟨data, k, hb, hlt, hk, hmod⟩
      exact ⟨_, hb, .blob hlt hk hmod⟩
    · intro ⟨arg, hb, ha⟩
      cases ha with
      | four h => simp at h
      | eight h => simp at h
      | none h => simp at h
      | blob hlt hk hmod => exact ⟨_, _, hb, hlt, hk, hmod⟩
  unfold skipArgument
  by_cases h4 : tag = 'i' ∨ tag = 'f' ∨ tag = 'm'
  · rw [if_pos h4, bind_eq_ok]
    constructor
    · intro ⟨⟨arg, rest'⟩, ht, hr⟩
      cases hr
      obtain ⟨hb, hl⟩ := take_eq_ok.mp ht
      exact ⟨arg, hb, .four h4 hl⟩
    · intro ⟨arg, hb, ha⟩
      have hl : arg.length = 4 := by
        rcases h4 with rfl | rfl | rfl <;> cases ha <;> simp_all
      exact ⟨(arg, rest), take_eq_ok.mpr ⟨hb, hl⟩, rfl⟩
  rw [if_neg h4]
  by_cases h8 : tag = 'h' ∨ tag = 't' ∨ tag = 'd'
  · rw [if_pos h8, bind_eq_ok]
    constructor
    · intro ⟨⟨arg, rest'⟩, ht, hr⟩
      cases hr
      obtain ⟨hb, hl⟩ := take_eq_ok.mp ht
      exact ⟨arg, hb, .eight h8 hl⟩
    · intro ⟨arg, hb, ha⟩
      have hl : arg.length = 8 := by
        rcases h8 with rfl | rfl | rfl <;> cases ha <;> simp_all
      exact ⟨(arg, rest), take_eq_ok.mpr ⟨hb, hl⟩, rfl⟩
  rw [if_neg h8]
  by_cases hs : tag = 's'
  · subst hs
    rw [if_pos rfl, bind_eq_ok]
    constructor
    · intro ⟨⟨text, rest'⟩, ht, hr⟩
      cases hr
      obtain ⟨arg, hb, htext⟩ := string_eq_ok.mp ht
      exact ⟨arg, hb, .text htext⟩
    · intro ⟨arg, hb, ha⟩
      obtain ⟨text, htext⟩ : ∃ text, PaddedString text arg := by
        cases ha <;> simp_all
        exact ⟨_, ‹_›⟩
      exact ⟨(text, rest), string_eq_ok.mpr ⟨arg, hb, htext⟩, rfl⟩
  rw [if_neg hs]
  rw [if_neg hb]
  by_cases hn : tag = 'T' ∨ tag = 'F' ∨ tag = 'N' ∨ tag = 'I'
  · rw [if_pos hn]
    constructor
    · intro h
      cases h
      exact ⟨[], rfl, .none hn⟩
    · intro ⟨arg, hb, ha⟩
      have hl : arg = [] := by
        rcases hn with rfl | rfl | rfl | rfl <;> cases ha <;> simp_all
      rw [hb, hl]
      rfl
  · rw [if_neg hn]
    constructor
    · intro h; cases h
    · intro ⟨arg, _, ha⟩
      cases ha <;> simp_all

theorem skipArgument_ne_panicked (tag : Char) (bytes : List UInt8) :
    skipArgument tag bytes ≠ .error .panicked := by
  unfold skipArgument
  split
  · exact bind_ne_panicked (take_ne_panicked _ _) fun _ _ => ok_ne_panicked _
  split
  · exact bind_ne_panicked (take_ne_panicked _ _) fun _ _ => ok_ne_panicked _
  split
  · exact bind_ne_panicked (string_ne_panicked _) fun _ _ => ok_ne_panicked _
  split
  · refine bind_ne_panicked (take_ne_panicked _ _) fun ⟨head, rest⟩ ht => ?_
    show (beNat head 4 >>= _) ≠ _
    rw [beNat_eq (take_eq_ok.mp ht).2]
    show (if toI32 (ofBE head) < 0 then _ else _) ≠ _
    split
    · exact err_ne_panicked _
    · refine bind_ne_panicked (take_ne_panicked _ _) fun ⟨data, rest'⟩ hd => ?_
      have hl := (take_eq_ok.mp hd).2
      show (slice data _ data.length >>= _) ≠ _
      rw [slice_suffix _ (by rw [hl]; unfold align; omega)]
      show (if _ then _ else _) ≠ _
      split
      · exact err_ne_panicked _
      · exact ok_ne_panicked _
  split
  · exact ok_ne_panicked _
  · exact err_ne_panicked _

theorem skipArguments_eq_ok {tags : List Char} {bytes rest : List UInt8} :
    skipArguments tags bytes = .ok rest ↔ ∃ args, bytes = args ++ rest ∧ Arguments tags args := by
  induction tags generalizing bytes with
  | nil =>
    constructor
    · intro h
      cases h
      exact ⟨[], rfl, .nil⟩
    · intro ⟨args, hb, ha⟩
      cases ha
      rw [hb]
      rfl
  | cons tag tags ih =>
    rw [skipArguments, bind_eq_ok]
    constructor
    · intro ⟨rest', hs, h⟩
      obtain ⟨arg, hb, ha⟩ := skipArgument_eq_ok.mp hs
      obtain ⟨args, hr, has⟩ := ih.mp h
      exact ⟨arg ++ args, by rw [hb, hr, List.append_assoc], .cons ha has⟩
    · intro ⟨args, hb, ha⟩
      cases ha with
      | cons h hs =>
        rename_i arg args
        exact ⟨args ++ rest, skipArgument_eq_ok.mpr ⟨arg, by rw [hb, List.append_assoc], h⟩,
          ih.mpr ⟨args, rfl, hs⟩⟩

theorem skipArguments_ne_panicked (tags : List Char) (bytes : List UInt8) :
    skipArguments tags bytes ≠ .error .panicked := by
  induction tags generalizing bytes with
  | nil => exact ok_ne_panicked _
  | cons tag tags ih => exact bind_ne_panicked (skipArgument_ne_panicked _ _) fun _ _ => ih _

/-- A single argument of four bytes. -/
theorem arguments_four {tag : Char} {args : List UInt8} (h : tag = 'i' ∨ tag = 'f' ∨ tag = 'm')
    (ha : Arguments [tag] args) : args.length = 4 := by
  cases ha with
  | cons harg hnil =>
    cases hnil
    rw [List.append_nil]
    rcases h with rfl | rfl | rfl <;> cases harg <;> simp_all

/-- A single argument without bytes. -/
theorem arguments_empty {tag : Char} {args : List UInt8} (h : tag = 'T' ∨ tag = 'F')
    (ha : Arguments [tag] args) : args = [] := by
  cases ha with
  | cons harg hnil =>
    cases hnil
    rw [List.append_nil]
    rcases h with rfl | rfl <;> cases harg <;> simp_all

end RtpOscMidi.L1.OscPacket
