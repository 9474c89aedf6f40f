import RtpOscMidi.L1Encoding.OscMessages

/-!
# Reading packets

* `packet_eq_ok`: a packet inside bundles is read exactly when the grammar
  spells it, and its messages follow those read before.
* `decode_spec`: the same for a datagram, with the limits and the deadlines.
* `well_formed_refused`: the grammar alone is not enough.
-/
namespace RtpOscMidi.L1.OscPacket

open Core Core.Binary32 MidiMessage

/-! ## Packets -/

theorem PaddedString.length {text : List Char} {bytes : List UInt8} (h : PaddedString text bytes) :
    bytes.length % 4 = 0 ∧ 0 < bytes.length := by
  obtain ⟨chars, k, -, rfl, h1, -, hmod, -⟩ := h
  rw [List.length_append, List.length_replicate]
  omega

theorem Argument.length {tag : Char} {bytes : List UInt8} (h : Argument tag bytes) :
    bytes.length % 4 = 0 := by
  cases h with
  | four _ hl => rw [hl]
  | eight _ hl => rw [hl]
  | text ht => exact ht.length.1
  | blob _ _ hmod => simp only [List.length_append, length_be, List.length_replicate]; omega
  | none => rfl

theorem Arguments.length {tags : List Char} {bytes : List UInt8} (h : Arguments tags bytes) :
    bytes.length % 4 = 0 := by
  induction h with
  | nil => rfl
  | cons ha _ ih =>
    have := ha.length
    rw [List.length_append]
    omega

mutual

theorem Spells.length {tree : Tree} {bytes : List UInt8} :
    Spells tree bytes → bytes.length % 4 = 0 ∧ 0 < bytes.length
  | .message ha _ ht _ hargs => by
    have := ha.length
    have := ht.length
    have := hargs.length
    simp only [List.length_append]
    omega
  | .bundle ha hbody => by
    have := ha.length
    have := hbody.length
    simp only [List.length_append, length_be]
    omega

theorem SpellsAll.length {trees : List Tree} {bytes : List UInt8} :
    SpellsAll trees bytes → bytes.length % 4 = 0
  | .nil => rfl
  | .cons ht _ hts => by
    have := ht.length
    have := hts.length
    simp only [List.length_append, length_be]
    omega

end

theorem elements_nil (packet : List UInt8 → List ScheduledMidi → Result (List ScheduledMidi))
    (out : List ScheduledMidi) : elements packet [] out = .ok out := by
  rw [elements]
  rfl

/-- One round of the loop over a bundle's elements. -/
theorem elements_eq_ok_cons
    {packet : List UInt8 → List ScheduledMidi → Result (List ScheduledMidi)}
    {bytes : List UInt8} {out out' : List ScheduledMidi} (hne : bytes ≠ []) :
    elements packet bytes out = .ok out' ↔ ∃ element rest mid,
      bytes = be 4 element.length ++ (element ++ rest) ∧ 0 < element.length ∧
        element.length % 4 = 0 ∧ element.length < 2147483648 ∧
        packet element out = .ok mid ∧ elements packet rest mid = .ok out' := by
  rw [elements, if_neg (by simpa using hne)]
  constructor
  · intro h
    split at h
    · cases h
    next head tail h4 =>
    obtain ⟨hb, hl⟩ := take_eq_ok.mp h4
    rw [beNat_eq hl] at h
    dsimp only at h
    split at h
    · cases h
    next hsize =>
    have hlt : ofBE head < 2147483648 := (toI32_nonneg (hl ▸ ofBE_lt head)).mp (by omega)
    have hpos : 0 < ofBE head := by
      have := (@toI32_eq _ 0 (hl ▸ ofBE_lt head) (by decide)).not.mp (by omega)
      omega
    rw [toI32_toNat hlt] at h hsize
    split at h
    · cases h
    next element rest he =>
    obtain ⟨htail, hel⟩ := take_eq_ok.mp he
    split at h
    · cases h
    next mid hp =>
    refine ⟨element, rest, mid, ?_, by omega, by omega, by omega, hp, h⟩
    rw [hel, ← eq_be_four hl rfl, ← htail, hb]
  · rintro ⟨element, rest, mid, hb, hpos, hmod, hlt, hp, h⟩
    have h4 : take bytes 4 = .ok (be 4 element.length, element ++ rest) :=
      take_eq_ok.mpr ⟨hb, by simp⟩
    rw [h4]
    dsimp only
    rw [beNat_eq (length_be ..), ofBE_be (by omega)]
    dsimp only
    have hnn := (@toI32_eq element.length _ (by omega) hlt).mpr rfl
    rw [hnn, if_neg (by omega)]
    have he : take (element ++ rest) (element.length : Int).toNat = .ok (element, rest) :=
      take_eq_ok.mpr ⟨rfl, rfl⟩
    rw [he]
    dsimp only
    rw [hp]
    exact h

theorem length_timetable (wall : Int) (now generation start : Nat)
    (leaves : List (List UInt64 × List UInt8)) :
    (timetable wall now generation start leaves).length = leaves.length := List.length_mapIdx

theorem timetable_append (wall : Int) (now generation start : Nat)
    (leaves leaves' : List (List UInt64 × List UInt8)) :
    timetable wall now generation start (leaves ++ leaves') =
      timetable wall now generation start leaves ++
        timetable wall now generation (start + leaves.length) leaves' := by
  simp only [timetable, List.mapIdx_append]
  congr 2
  funext i leaf
  rw [Nat.add_assoc, Nat.add_comm i]

/-- What the grammar and the time tags say of a packet that comes after `out`. -/
def Reads (wall : Int) (now generation : Nat) (levels : Nat) (chain : List UInt64)
    (bytes : List UInt8) (out out' : List ScheduledMidi) : Prop :=
  ∃ tree leaves, Spells tree bytes ∧ Within levels tree ∧ Timely wall now chain tree ∧
    Yields chain tree leaves ∧ out.length + leaves.length ≤ maxPacketMessages ∧
    out' = out ++ timetable wall now generation out.length leaves

/-- `Reads` for the elements of a bundle. -/
def ReadsAll (wall : Int) (now generation : Nat) (levels : Nat) (chain : List UInt64)
    (bytes : List UInt8) (out out' : List ScheduledMidi) : Prop :=
  ∃ trees leaves, SpellsAll trees bytes ∧ (∀ tree ∈ trees, Within levels tree) ∧
    TimelyAll wall now chain trees ∧ YieldsAll chain trees leaves ∧
    out.length + leaves.length ≤ maxPacketMessages ∧
    out' = out ++ timetable wall now generation out.length leaves

theorem readsAll_cons {wall : Int} {now generation levels : Nat} {chain : List UInt64}
    {bytes : List UInt8} {out out' : List ScheduledMidi} (hne : bytes ≠ []) :
    ReadsAll wall now generation levels chain bytes out out' ↔ ∃ element rest mid,
      bytes = be 4 element.length ++ (element ++ rest) ∧ 0 < element.length ∧
        element.length % 4 = 0 ∧ element.length < 2147483648 ∧
        Reads wall now generation levels chain element out mid ∧
        ReadsAll wall now generation levels chain rest mid out' := by
  constructor
  · intro ⟨trees, leaves, hs, hw, ht, hy, hn, ho⟩
    cases hs with
    | nil => exact absurd rfl hne
    | cons hspell hlt hspells =>
      cases ht with
      | cons htree htrees =>
        cases hy with
        | cons hyield hyields =>
          rename_i tree trees element body leaves leaves'
          rw [List.length_append] at hn
          refine ⟨element, body, out ++ timetable wall now generation out.length leaves, rfl,
            hspell.length.2, hspell.length.1, hlt,
            ⟨tree, leaves, hspell, hw _ List.mem_cons_self, htree, hyield, by omega, rfl⟩,
            ⟨trees, leaves', hspells, fun t h => hw t (List.mem_cons_of_mem _ h), htrees, hyields, ?_, ?_⟩⟩
          · rw [List.length_append, length_timetable]; omega
          · rw [ho, timetable_append, List.length_append, length_timetable, List.append_assoc]
  · intro ⟨element, rest, mid, hb, _, _, hlt, ⟨tree, leaves, hs, hw, ht, hy, hn, ho⟩,
      ⟨trees, leaves', hss, hws, hts, hys, hns, hos⟩⟩
    subst hb ho
    rw [List.length_append, length_timetable] at hns
    refine ⟨tree :: trees, leaves ++ leaves', .cons hs hlt hss, ?_, .cons ht hts, .cons hy hys, ?_, ?_⟩
    · exact List.forall_mem_cons.mpr ⟨hw, hws⟩
    · rw [List.length_append]; omega
    · rw [hos, timetable_append, List.length_append, length_timetable, List.append_assoc]

theorem Reads.length {wall : Int} {now generation levels : Nat} {chain : List UInt64}
    {bytes : List UInt8} {out out' : List ScheduledMidi}
    (h : Reads wall now generation levels chain bytes out out') :
    out'.length ≤ maxPacketMessages := by
  obtain ⟨_, _, _, _, _, _, hn, rfl⟩ := h
  rw [List.length_append, length_timetable]
  exact hn

/-- The loop reads what its body reads, one element after another. -/
theorem elements_eq_ok {wall : Int} {now generation levels : Nat} {chain : List UInt64}
    {packet : List UInt8 → List ScheduledMidi → Result (List ScheduledMidi)}
    (hp : ∀ bytes out out', out.length ≤ maxPacketMessages →
      (packet bytes out = .ok out' ↔ Reads wall now generation levels chain bytes out out'))
    (bytes : List UInt8) (out out' : List ScheduledMidi) (hn : out.length ≤ maxPacketMessages) :
    elements packet bytes out = .ok out' ↔
      ReadsAll wall now generation levels chain bytes out out' := by
  induction hl : bytes.length using Nat.strongRecOn generalizing bytes out with
  | ind n ih =>
    by_cases hne : bytes = []
    · subst hne
      rw [elements_nil]
      constructor
      · intro h
        cases h
        exact ⟨[], [], .nil, nofun, .nil, .nil, hn, by simp [timetable]⟩
      · intro ⟨trees, leaves, hs, hw, ht, hy, hn, ho⟩
        cases hs
        cases hy
        simp [ho, timetable]
    · rw [elements_eq_ok_cons hne, readsAll_cons hne]
      have hstep : ∀ element rest mid, bytes = be 4 element.length ++ (element ++ rest) →
          ((packet element out = .ok mid ∧ elements packet rest mid = .ok out') ↔
            (Reads wall now generation levels chain element out mid ∧
              ReadsAll wall now generation levels chain rest mid out')) := by
        intro element rest mid hb
        rw [hp _ _ _ hn]
        refine and_congr_right fun hr => ih rest.length ?_ rest mid hr.length rfl
        rw [← hl, hb]
        simp only [List.length_append, length_be]
        omega
      constructor
      · intro ⟨element, rest, mid, hb, hpos, hmod, hlt, h⟩
        exact ⟨element, rest, mid, hb, hpos, hmod, hlt, (hstep element rest mid hb).mp h⟩
      · intro ⟨element, rest, mid, hb, hpos, hmod, hlt, h⟩
        exact ⟨element, rest, mid, hb, hpos, hmod, hlt, (hstep element rest mid hb).mpr h⟩

theorem find_cons (tag : UInt64) (chain : List UInt64) :
    (if tag = 1 then chain.find? (· ≠ 1) else some tag) = (tag :: chain).find? (· ≠ 1) := by
  by_cases h : tag = 1 <;> simp [h]

theorem bundle_head : "#bundle".toList.head? ≠ some '/' := by decide

/-- The branch of `packet` for a bundle, after its address. -/
theorem packet_bundle {wall : Int} {now generation left : Nat} {parent : Nat}
    {parentTag : Option UInt64} {a rest : List UInt8} {out out' : List ScheduledMidi}
    (ha : PaddedString "#bundle".toList a) (hmod : (a ++ rest).length % 4 = 0) :
    packet wall now generation (left + 1) parent parentTag (a ++ rest) out = .ok out' ↔
      ∃ (tag : UInt64) (body : List UInt8) (d : Nat), rest = be 8 tag.toNat ++ body ∧
        ¬(tag ≠ 1 ∧ parentTag.any fun parent => (tag - parent).toInt64 < 0) ∧
        deadline tag wall now parent = .ok d ∧
        elements (packet wall now generation left d (if tag = 1 then parentTag else some tag)) body out =
          .ok out' := by
  have hne : ¬((a ++ rest).isEmpty ∨ (a ++ rest).length % 4 ≠ 0) := by
    have := ha.length.2
    simp only [List.isEmpty_iff_length_eq_zero, List.length_append] at hmod ⊢
    omega
  have hs : string (a ++ rest) = .ok ("#bundle".toList, rest) := string_eq_ok.mpr ⟨a, rfl, ha⟩
  rw [packet, if_neg hne, hs, ok_bind]
  dsimp only
  rw [if_pos rfl, bind_eq_ok]
  constructor
  · intro ⟨⟨head, body⟩, ht, h⟩
    obtain ⟨hb, hl⟩ := take_eq_ok.mp ht
    dsimp only at h
    rw [beNat_eq hl] at h
    simp only [ok_bind] at h
    split at h
    · cases h
    next horder =>
    obtain ⟨d, hd, he⟩ := bind_eq_ok.mp h
    refine ⟨UInt64.ofNat (ofBE head), body, d, ?_, horder, hd, he⟩
    have hlt := ofBE_lt head
    rw [hl] at hlt
    rw [UInt64.toNat_ofNat_of_lt' (Nat.lt_of_lt_of_eq hlt (by decide)), ← hl, be_ofBE, hb]
  · intro ⟨tag, body, d, hr, horder, hd, he⟩
    refine ⟨(be 8 tag.toNat, body), take_eq_ok.mpr ⟨hr, by simp⟩, ?_⟩
    dsimp only
    rw [beNat_eq (length_be ..), ofBE_be (Nat.lt_of_lt_of_eq tag.toNat_lt (by decide))]
    simp only [ok_bind, UInt64.ofNat_toNat]
    rw [if_neg horder, hd]
    exact he

/-- The branch of `packet` for a message, after its address. -/
theorem packet_message {wall : Int} {now generation left : Nat} {parent : Nat}
    {parentTag : Option UInt64} {address : List Char} {a rest : List UInt8}
    {out out' : List ScheduledMidi} (ha : PaddedString address a)
    (hb : address ≠ "#bundle".toList) (hmod : (a ++ rest).length % 4 = 0) :
    packet wall now generation (left + 1) parent parentTag (a ++ rest) out = .ok out' ↔
      ∃ tags t arguments o, rest = t ++ arguments ∧ address.head? = some '/' ∧
        PaddedString tags t ∧ tags.head? = some ',' ∧ Arguments (tags.drop 1) arguments ∧
        Carries address tags arguments o ∧
        match o with
        | none => out' = out
        | some data => out.length < maxPacketMessages ∧
          out' = out ++ [⟨parent, out.length, data, generation⟩] := by
  have hne : ¬((a ++ rest).isEmpty ∨ (a ++ rest).length % 4 ≠ 0) := by
    have := ha.length.2
    simp only [List.isEmpty_iff_length_eq_zero, List.length_append] at hmod ⊢
    omega
  have hs : string (a ++ rest) = .ok (address, rest) := string_eq_ok.mpr ⟨a, rfl, ha⟩
  rw [packet, if_neg hne, hs]
  simp only [ok_bind]
  rw [if_neg hb]
  constructor
  · intro h
    split at h
    · cases h
    next hslash =>
    obtain ⟨⟨tags, arguments⟩, ht, h⟩ := bind_eq_ok.mp h
    obtain ⟨t, hr, htags⟩ := string_eq_ok.mp ht
    dsimp only at h
    split at h
    · cases h
    next hcomma =>
    obtain ⟨remaining, hskip, h⟩ := bind_eq_ok.mp h
    split at h
    · cases h
    next hempty =>
    obtain rfl : remaining = [] := by simpa using hempty
    obtain ⟨args, hargs, hA⟩ := skipArguments_eq_ok.mp hskip
    rw [List.append_nil] at hargs
    subst hargs
    obtain ⟨o, ho, h⟩ := bind_eq_ok.mp h
    refine ⟨tags, t, arguments, o, hr, Decidable.not_not.mp hslash, htags,
      Decidable.not_not.mp hcomma, hA, (midiOf_eq_ok hA).mp ho, ?_⟩
    cases o with
    | none => cases h; rfl
    | some data =>
      dsimp only at h ⊢
      split at h
      · cases h
      · cases h
        exact ⟨by omega, rfl⟩
  · rintro ⟨tags, t, arguments, o, hr, hslash, htags, hcomma, hA, hcar, ho⟩
    rw [if_neg (Decidable.not_not.mpr hslash)]
    refine bind_eq_ok.mpr ⟨(tags, arguments), string_eq_ok.mpr ⟨t, hr, htags⟩, ?_⟩
    dsimp only
    rw [if_neg (Decidable.not_not.mpr hcomma)]
    refine bind_eq_ok.mpr ⟨[], skipArguments_eq_ok.mpr ⟨arguments, by simp, hA⟩, ?_⟩
    rw [if_neg (by simp)]
    refine bind_eq_ok.mpr ⟨o, (midiOf_eq_ok hA).mpr hcar, ?_⟩
    cases o with
    | none => rw [ho]; rfl
    | some data =>
      dsimp only at ho ⊢
      rw [if_neg (by omega), ho.2]
      rfl

/-- What a packet spells is decided by its first string. -/
theorem Spells.of_string {tree : Tree} {bytes rest : List UInt8} {address : List Char}
    (hs : string bytes = .ok (address, rest)) (h : Spells tree bytes) :
    (∃ tags t arguments, tree = .message address tags arguments ∧ rest = t ++ arguments ∧
      address.head? = some '/' ∧ PaddedString tags t ∧ tags.head? = some ',' ∧
      Arguments (tags.drop 1) arguments) ∨
    (∃ tag elements body, tree = .bundle tag elements ∧ address = "#bundle".toList ∧
      rest = be 8 tag.toNat ++ body ∧ SpellsAll elements body) := by
  cases h with
  | message ha hslash ht hcomma hargs =>
    rw [string_eq_ok.mpr ⟨_, rfl, ha⟩] at hs
    cases hs
    exact .inl ⟨_, _, _, rfl, rfl, hslash, ht, hcomma, hargs⟩
  | bundle ha hbody =>
    rw [string_eq_ok.mpr ⟨_, rfl, ha⟩] at hs
    cases hs
    exact .inr ⟨_, _, _, rfl, rfl, rfl, hbody⟩

/-- `packet` accepts the grammar, and gives its messages their deadlines. -/
theorem packet_eq_ok (wall : Int) (now generation levels : Nat) (chain : List UInt64)
    (bytes : List UInt8) (out out' : List ScheduledMidi) (hn : out.length ≤ maxPacketMessages) :
    packet wall now generation levels (due wall now chain) (chain.find? (· ≠ 1)) bytes out =
        .ok out' ↔ Reads wall now generation levels chain bytes out out' := by
  induction levels generalizing chain bytes out out' with
  | zero =>
    constructor
    · intro h; cases h
    · intro ⟨_, _, _, hw, _⟩; exact hw.elim
  | succ left ih =>
    by_cases hsize : bytes.isEmpty ∨ bytes.length % 4 ≠ 0
    · rw [packet, if_pos hsize]
      constructor
      · intro h; cases h
      · intro ⟨tree, _, hs, _⟩
        obtain ⟨hmod, hpos⟩ := hs.length
        rw [List.isEmpty_iff_length_eq_zero] at hsize
        omega
    cases hs : string bytes with
    | error e =>
      rw [packet, if_neg hsize, hs]
      constructor
      · intro h; cases h
      · intro ⟨tree, _, hspell, _⟩
        cases hspell with
        | message ha => rw [string_eq_ok.mpr ⟨_, rfl, ha⟩] at hs; cases hs
        | bundle ha => rw [string_eq_ok.mpr ⟨_, rfl, ha⟩] at hs; cases hs
    | ok p =>
      obtain ⟨address, rest⟩ := p
      obtain ⟨a, rfl, ha⟩ := string_eq_ok.mp hs
      have hmod : (a ++ rest).length % 4 = 0 := by omega
      by_cases hb : address = "#bundle".toList
      · subst hb
        rw [packet_bundle ha hmod]
        constructor
        · intro ⟨tag, body, d, hr, horder, hd, he⟩
          obtain ⟨htag, rfl⟩ := deadline_chain.mp ⟨horder, hd⟩
          rw [find_cons] at he
          obtain ⟨trees, leaves, hspells, hw, ht, hy, hcount, ho⟩ :=
            (elements_eq_ok (ih (tag :: chain)) body out out' hn).mp he
          exact ⟨.bundle tag trees, leaves, hr ▸ .bundle ha hspells, hw, .bundle htag ht,
            .bundle hy, hcount, ho⟩
        · intro ⟨tree, leaves, hspell, hw, ht, hy, hcount, ho⟩
          rcases hspell.of_string hs with ⟨_, _, _, _, _, hslash, _⟩ |
            ⟨tag, trees, body, rfl, _, hr, hspells⟩
          · exact absurd hslash bundle_head
          cases ht with
          | bundle htag htrees =>
            cases hy with
            | bundle hyields =>
              obtain ⟨horder, hd⟩ := deadline_chain.mpr ⟨htag, rfl⟩
              refine ⟨tag, body, _, hr, horder, hd, ?_⟩
              rw [find_cons]
              exact (elements_eq_ok (ih (tag :: chain)) body out out' hn).mpr
                ⟨trees, leaves, hspells, hw, htrees, hyields, hcount, ho⟩
      · rw [packet_message ha hb hmod]
        constructor
        · intro ⟨tags, t, arguments, o, hr, hslash, htags, hcomma, hA, hcar, ho⟩
          have hspell : Spells (.message address tags arguments) (a ++ rest) :=
            hr ▸ .message ha hslash htags hcomma hA
          cases o with
          | none => exact ⟨_, [], hspell, trivial, .message, .silent hcar, hn, by simp [ho, timetable]⟩
          | some data =>
            exact ⟨_, [(chain, data)], hspell, trivial, .message, .message hcar, ho.1, ho.2⟩
        · intro ⟨tree, leaves, hspell, hw, ht, hy, hcount, ho⟩
          rcases hspell.of_string hs with ⟨tags, t, arguments, rfl, hr, hslash, htags, hcomma, hA⟩ |
            ⟨_, _, _, _, hbundle, _⟩
          · cases hy with
            | silent hcar =>
              exact ⟨tags, t, arguments, none, hr, hslash, htags, hcomma, hA, hcar,
                by simpa [timetable] using ho⟩
            | message hcar =>
              exact ⟨tags, t, arguments, some _, hr, hslash, htags, hcomma, hA, hcar, hcount, ho⟩
          · exact absurd hbundle hb

theorem elements_ne_panicked
    {packet : List UInt8 → List ScheduledMidi → Result (List ScheduledMidi)}
    (hp : ∀ bytes out, packet bytes out ≠ .error .panicked) (bytes : List UInt8)
    (out : List ScheduledMidi) : elements packet bytes out ≠ .error .panicked := by
  fun_induction elements packet bytes out with
  | case1 => exact ok_ne_panicked _
  | case2 _ _ _ _ h4 => exact fun h => take_ne_panicked _ _ (h4.trans (congrArg _ (Except.error.inj h)))
  | case3 _ _ _ _ _ h4 _ hsize =>
    rw [beNat_eq (take_eq_ok.mp h4).2] at hsize
    cases hsize
  | case4 => exact err_ne_panicked _
  | case5 _ _ _ _ _ _ _ _ _ _ _ he =>
    exact fun h => take_ne_panicked _ _ (he.trans (congrArg _ (Except.error.inj h)))
  | case6 _ _ _ _ _ _ _ _ _ _ _ _ _ _ hpack =>
    exact fun h => hp _ _ (hpack.trans (congrArg _ (Except.error.inj h)))
  | case7 _ _ _ _ _ _ _ _ _ _ _ _ _ _ _ ih => exact ih

/-- No slice or index of the decoder is out of range. -/
theorem packet_ne_panicked (wall : Int) (now generation levels parent : Nat)
    (parentTag : Option UInt64) (bytes : List UInt8) (out : List ScheduledMidi) :
    packet wall now generation levels parent parentTag bytes out ≠ .error .panicked := by
  induction levels generalizing parent parentTag bytes out with
  | zero => exact err_ne_panicked _
  | succ left ih =>
    rw [packet]
    split
    · exact err_ne_panicked _
    refine bind_ne_panicked (string_ne_panicked _) fun ⟨address, remaining⟩ _ => ?_
    dsimp only
    split
    · refine bind_ne_panicked (take_ne_panicked _ _) fun ⟨head, body⟩ ht => ?_
      dsimp only
      rw [beNat_eq (take_eq_ok.mp ht).2]
      simp only [ok_bind]
      split
      · exact err_ne_panicked _
      · exact bind_ne_panicked (deadline_ne_panicked _ _ _ _) fun d _ => elements_ne_panicked (ih d _) _ _
    split
    · exact err_ne_panicked _
    refine bind_ne_panicked (string_ne_panicked _) fun ⟨tags, arguments⟩ _ => ?_
    dsimp only
    split
    · exact err_ne_panicked _
    refine bind_ne_panicked (skipArguments_ne_panicked _ _) fun remaining hskip => ?_
    split
    · exact err_ne_panicked _
    next hempty =>
    obtain rfl : remaining = [] := by simpa using hempty
    obtain ⟨args, hargs, hA⟩ := skipArguments_eq_ok.mp hskip
    rw [List.append_nil] at hargs
    subst hargs
    refine bind_ne_panicked (midiOf_ne_panicked hA) fun o _ => ?_
    cases o with
    | none => exact ok_ne_panicked _
    | some data =>
      dsimp only
      split
      · exact err_ne_panicked _
      · exact ok_ne_panicked _

/-! ## The output -/

theorem due_le_cons (wall : Int) (now : Nat) (tag : UInt64) (chain : List UInt64) :
    due wall now chain ≤ due wall now (tag :: chain) := by
  rw [due]
  split
  · exact Nat.le_refl _
  · exact Nat.le_max_right ..

theorem now_le_due (wall : Int) (now : Nat) (chain : List UInt64) : now ≤ due wall now chain := by
  induction chain with
  | nil => exact Nat.le_refl _
  | cons tag chain ih => exact Nat.le_trans ih (due_le_cons ..)

theorem due_cons_ahead {wall : Int} {now : Nat} {chain : List UInt64} {tag : UInt64}
    (ht : tag = 1 ∨ Timed wall now chain tag) (h : due wall now chain ≤ now + 10000000000) :
    due wall now (tag :: chain) ≤ now + 10000000000 := by
  rw [due]
  rcases ht with rfl | ⟨_, hahead, _, _⟩
  · exact h
  · split
    · exact h
    · have : tagDue wall now tag ≤ now + 10000000000 := by
        unfold tagDue; unfold maxAheadNs at hahead; omega
      omega

/-- A message of the output is normalized and due within ten seconds. -/
def Sound (wall : Int) (now : Nat) (leaf : List UInt64 × List UInt8) : Prop :=
  normalizeMessage leaf.2 = some leaf.2 ∧ due wall now leaf.1 ≤ now + 10000000000

mutual

theorem Yields.sound {wall : Int} {now : Nat} {chain : List UInt64} {tree : Tree}
    {leaves : List (List UInt64 × List UInt8)} (h : due wall now chain ≤ now + 10000000000)
    (ht : Timely wall now chain tree) :
    Yields chain tree leaves → ∀ leaf ∈ leaves, Sound wall now leaf
  | .message hcar => by
    intro leaf hleaf
    rw [List.mem_singleton.mp hleaf]
    exact ⟨hcar.normalized, h⟩
  | .silent _ => nofun
  | .bundle hys => by
    cases ht with
    | bundle htag hts => exact YieldsAll.sound (due_cons_ahead htag h) hts hys

theorem YieldsAll.sound {wall : Int} {now : Nat} {chain : List UInt64} {trees : List Tree}
    {leaves : List (List UInt64 × List UInt8)} (h : due wall now chain ≤ now + 10000000000)
    (ht : TimelyAll wall now chain trees) :
    YieldsAll chain trees leaves → ∀ leaf ∈ leaves, Sound wall now leaf
  | .nil => nofun
  | .cons hy hys => by
    intro leaf hleaf
    cases ht with
    | cons ht hts =>
      rcases List.mem_append.mp hleaf with hl | hl
      · exact Yields.sound h ht hy leaf hl
      · exact YieldsAll.sound h hts hys leaf hl

end

theorem decode_ok (bytes : List UInt8) (wall : Int) (now generation : Nat) (out : List ScheduledMidi) :
    decode bytes wall now generation = (.ok (), out) ↔
      packet wall now generation 17 now none bytes [] = .ok out := by
  unfold decode
  cases packet wall now generation 17 now none bytes [] <;> simp

/-- A datagram is refused whole or accepted; it is accepted exactly when the
grammar spells it, its nesting and its message count are within the limits and
its time tags may be kept. The output is then the packet's messages in order,
numbered from 0, normalized, each due when `due` says for the tags around it:
at the nearest tag that is not `immediately`, in the era nearest to the wall
clock, but no earlier than `now` or the bundle around it. -/
theorem decode_spec (bytes : List UInt8) (wall : Int) (now generation : Nat) :
    ((decode bytes wall now generation).1 = .ok () ∨
      ∃ message, decode bytes wall now generation = (.error (.refused message), [])) ∧
    (∀ out, decode bytes wall now generation = (.ok (), out) ↔
      ∃ tree leaves, Spells tree bytes ∧ Within 17 tree ∧ Timely wall now [] tree ∧
        Yields [] tree leaves ∧ leaves.length ≤ maxPacketMessages ∧
        out = timetable wall now generation 0 leaves) ∧
    (∀ out, decode bytes wall now generation = (.ok (), out) → out.length ≤ 1024 ∧
      ∀ i (h : i < out.length), out[i].order = i ∧
        normalizeMessage out[i].data = some out[i].data ∧
        now ≤ out[i].deadline ∧ out[i].deadline ≤ now + 10000000000) ∧
    (∀ tag chain, due wall now chain ≤ due wall now (tag :: chain)) ∧
    (∀ tag, ∃ era, offset wall tag = tagNs era tag - wall ∧
      -2 ^ 31 ≤ era * 2 ^ 32 + (tag.toNat / 2 ^ 32 : Nat) - 2208988800 - wall / nsPerSecond ∧
      era * 2 ^ 32 + (tag.toNat / 2 ^ 32 : Nat) - 2208988800 - wall / nsPerSecond < 2 ^ 31) := by
  have hiff : ∀ out, decode bytes wall now generation = (.ok (), out) ↔
      ∃ tree leaves, Spells tree bytes ∧ Within 17 tree ∧ Timely wall now [] tree ∧
        Yields [] tree leaves ∧ leaves.length ≤ maxPacketMessages ∧
        out = timetable wall now generation 0 leaves := by
    intro out
    have hp := packet_eq_ok wall now generation 17 [] bytes [] out (Nat.zero_le _)
    rw [decode_ok]
    refine hp.trans ?_
    simp only [Reads, List.length_nil, Nat.zero_add, List.nil_append]
  refine ⟨?_, hiff, ?_, fun tag chain => due_le_cons wall now tag chain, offset_era wall⟩
  · have hne := packet_ne_panicked wall now generation 17 now none bytes []
    unfold decode
    cases hp : packet wall now generation 17 now none bytes [] with
    | ok out => exact .inl rfl
    | error e =>
      cases e with
      | refused message => exact .inr ⟨message, rfl⟩
      | panicked => exact absurd hp hne
  · intro out hout
    obtain ⟨tree, leaves, _, _, ht, hy, hn, rfl⟩ := (hiff out).mp hout
    refine ⟨(length_timetable ..).symm ▸ hn, fun i h => ?_⟩
    rw [length_timetable] at h
    obtain ⟨hnorm, hahead⟩ :=
      hy.sound (Nat.le_add_right now _) ht leaves[i] (List.getElem_mem h)
    simp only [timetable, List.getElem_mapIdx, Nat.zero_add]
    exact ⟨trivial, hnorm, now_le_due .., hahead⟩

/-- A bundle of one note. -/
def noteBundle (tag : UInt64) : List UInt8 :=
  [35, 98, 117, 110, 100, 108, 101, 0] ++ (be 8 tag.toNat ++ (be 4 16 ++
    ([47, 109, 105, 100, 105, 0, 0, 0, 44, 109, 0, 0, 0, 0x90, 60, 100] ++ [])))

def noteTree (tag : UInt64) : Tree :=
  .bundle tag [.message "/midi".toList ",m".toList [0, 0x90, 60, 100]]

theorem noteBundle_spells (tag : UInt64) : Spells (noteTree tag) (noteBundle tag) := by
  have hbundle : PaddedString "#bundle".toList [35, 98, 117, 110, 100, 108, 101, 0] :=
    ⟨[35, 98, 117, 110, 100, 108, 101], 1, by decide, rfl, by simp⟩
  have haddress : PaddedString "/midi".toList [47, 109, 105, 100, 105, 0, 0, 0] :=
    ⟨[47, 109, 105, 100, 105], 3, by decide, rfl, by simp⟩
  have htags : PaddedString ",m".toList [44, 109, 0, 0] :=
    ⟨[44, 109], 2, by decide, rfl, by simp⟩
  have hargs : Arguments ['m'] ([0, 0x90, 60, 100] ++ []) :=
    .cons (.four (.inr (.inr rfl)) rfl) .nil
  exact .bundle hbundle (.cons (.message haddress (by decide) htags (by decide) hargs) (by decide) .nil)

theorem noteTree_yields (tag : UInt64) : Yields [] (noteTree tag) [([tag], [0x90, 60, 100])] :=
  .bundle (.cons (.message (.midi (rfl : messageLength 0x90 = some 3) (by decide))) .nil)

example : decode (noteBundle 9487534691884990464) 0 0 7 =
    (.ok (), [⟨9000000000, 0, [0x90, 60, 100], 7⟩]) := by
  decide +kernel

/-- A well-formed bundle eleven seconds ahead of the wall clock is refused. -/
theorem well_formed_refused : ∃ tree bytes leaves, Spells tree bytes ∧ Within 17 tree ∧
    Yields [] tree leaves ∧ leaves.length ≤ maxPacketMessages ∧
    decode bytes 0 0 0 = (.error (.refused "OSC deadline exceeds ten seconds"), []) :=
  ⟨_, noteBundle 9487534700474925056, _, noteBundle_spells _, by simp [noteTree, Within],
    noteTree_yields _, by decide, by decide +kernel⟩

end RtpOscMidi.L1.OscPacket
