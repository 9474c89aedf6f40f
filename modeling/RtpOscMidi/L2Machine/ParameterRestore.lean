import RtpOscMidi.L1Encoding.StateCodec

/-!
# Restoring VST3 parameters

Which live parameter each saved one is for: the one with its id, or, where no
live parameter has that id, the one at its index with its name. A snapshot of
an old format has no ids and goes by the index alone.

Every saved entry is matched by itself, so two of them may be for one live
parameter. `resolved_iff` says when they are not, by the ids, the indexes and
the names of the two lists.
-/
namespace RtpOscMidi.L2.ParameterRestore

open Core Core.Binary32 L1.StateCodec

/-- mirrors src-tauri/src/audio/state_codec.rs:32 -/
def vst3ParameterIsReadOnly : UInt32 := 2

/-- What the plugin says of a parameter, as far as it is looked at here. -/
structure ParameterInfo where
  id : UInt32
  flags : UInt32
  name : String
  deriving DecidableEq, Repr

abbrev Live := Nat × ParameterInfo

def isReadOnly (flags : UInt32) : Bool := flags &&& vst3ParameterIsReadOnly != 0

def eqIgnoreAsciiCase (a b : String) : Bool := a.map Char.toLower == b.map Char.toLower

/-- The live parameter a saved one is for. -/
def select (current : List Live) (byIndexOnly : Bool) (parameter : StateParameter) : Option Live :=
  if byIndexOnly then current.find? fun p => p.1 == parameter.index.toNat
  else
    (current.find? fun p => p.2.id == parameter.id).or
      (current.find? fun p => p.1 == parameter.index.toNat &&
        (parameter.name.isEmpty || eqIgnoreAsciiCase p.2.name parameter.name))

/-- mirrors src-tauri/src/audio/state_codec.rs:655-679, one turn of the loop -/
def assignment (current : List Live) (byIndexOnly : Bool) (parameter : StateParameter) :
    Option (Nat × UInt32) :=
  match select current byIndexOnly parameter with
  | none => none
  | some (index, info) =>
    if isReadOnly info.flags || !isFinite parameter.value then none
    else some (index, clamp parameter.value 0 0x3F800000)

/-- mirrors src-tauri/src/audio/state_codec.rs:649-681 -/
def resolveVst3ParameterAssignments (current : List Live) (saved : List StateParameter)
    (byIndexOnly : Bool) : List (Nat × UInt32) :=
  saved.filterMap (assignment current byIndexOnly)

theorem assignment_eq_some {current : List Live} {byIndexOnly : Bool} {e : StateParameter}
    {a : Nat × UInt32} :
    assignment current byIndexOnly e = some a ↔
      ∃ p, select current byIndexOnly e = some p ∧ isReadOnly p.2.flags = false ∧
        isFinite e.value = true ∧ a = (p.1, clamp e.value 0 0x3F800000) := by
  unfold assignment
  split
  · rename_i hselect
    simp [hselect]
  · rename_i index info hselect
    simp only [hselect, Option.some.injEq]
    split
    · rename_i hskip
      simp only [reduceCtorEq, false_iff, not_exists, not_and]
      rintro p rfl hwritable hfinite
      simp [hwritable, hfinite] at hskip
    · rename_i hkeep
      simp only [Bool.or_eq_true, Bool.not_eq_true', not_or, Bool.not_eq_true,
        Bool.not_eq_false] at hkeep
      constructor
      · intro ha
        cases ha
        exact ⟨(index, info), rfl, hkeep.1, hkeep.2, rfl⟩
      · rintro ⟨p, rfl, -, -, rfl⟩
        rfl

theorem mem_of_select {current : List Live} {byIndexOnly : Bool} {e : StateParameter} {p : Live}
    (h : select current byIndexOnly e = some p) : p ∈ current := by
  unfold select at h
  split at h
  · exact List.mem_of_find?_eq_some h
  · rcases Option.or_eq_some_iff.mp h with h | ⟨-, h⟩
    · exact List.mem_of_find?_eq_some h
    · exact List.mem_of_find?_eq_some h

theorem isFinite_clamp_unit {value : UInt32} (h : isFinite value = true) :
    isFinite (clamp value 0 0x3F800000) = true := by
  rcases clamp_cases value 0 0x3F800000 with ⟨heq, -⟩ | ⟨heq, -⟩ | ⟨heq, -⟩
  · rw [heq, h]
  · rw [heq]
    decide
  · rw [heq]
    decide

/-- At most one value for each live parameter, so that none overrides
another; the entry of a live id gives that parameter its value; and nothing
for read-only parameters or from values that are no numbers. -/
structure Resolved (current : List Live) (saved : List StateParameter) (byIndexOnly : Bool) :
    Prop where
  once : ((resolveVst3ParameterAssignments current saved byIndexOnly).map Prod.fst).Nodup
  exact_id : byIndexOnly = false → ∀ e ∈ saved, ∀ p,
    (current.find? fun p => p.2.id == e.id) = some p →
      isReadOnly p.2.flags = false → isFinite e.value = true →
      (p.1, clamp e.value 0 0x3F800000) ∈ resolveVst3ParameterAssignments current saved byIndexOnly
  allowed : ∀ a ∈ resolveVst3ParameterAssignments current saved byIndexOnly,
    isFinite a.2 = true ∧ ∃ p ∈ current, p.1 = a.1 ∧ isReadOnly p.2.flags = false

theorem exact_of_id {current : List Live} {saved : List StateParameter} {e : StateParameter}
    {p : Live} (he : e ∈ saved) (hfind : (current.find? fun p => p.2.id == e.id) = some p)
    (hwritable : isReadOnly p.2.flags = false) (hfinite : isFinite e.value = true) :
    (p.1, clamp e.value 0 0x3F800000) ∈ resolveVst3ParameterAssignments current saved false := by
  refine List.mem_filterMap.mpr ⟨e, he, assignment_eq_some.mpr ⟨p, ?_, hwritable, hfinite, rfl⟩⟩
  simp [select, hfind]

theorem allowed_of_mem {current : List Live} {saved : List StateParameter} {byIndexOnly : Bool}
    {a : Nat × UInt32} (ha : a ∈ resolveVst3ParameterAssignments current saved byIndexOnly) :
    isFinite a.2 = true ∧ ∃ p ∈ current, p.1 = a.1 ∧ isReadOnly p.2.flags = false := by
  obtain ⟨e, -, heq⟩ := List.mem_filterMap.mp ha
  obtain ⟨p, hselect, hwritable, hfinite, rfl⟩ := assignment_eq_some.mp heq
  exact ⟨isFinite_clamp_unit hfinite, p, mem_of_select hselect, rfl, hwritable⟩

/-! ## Two saved entries -/

/-- `p` is the first live parameter that meets `P`. -/
def First (current : List Live) (P : Live → Prop) (p : Live) : Prop :=
  P p ∧ ∃ before after, current = before ++ p :: after ∧ ∀ q ∈ before, ¬P q

/-- No live parameter has the id. -/
def Gone (current : List Live) (id : UInt32) : Prop := ∀ p ∈ current, p.2.id ≠ id

def HasId (id : UInt32) (p : Live) : Prop := p.2.id = id

/-- The parameter is where the entry says, under the name the entry has. -/
def AtPlace (e : StateParameter) (p : Live) : Prop :=
  p.1 = e.index.toNat ∧ (e.name = "" ∨ eqIgnoreAsciiCase p.2.name e.name = true)

def Fixed (p : Live) : Prop := isReadOnly p.2.flags = true

/-- `e` has a live id and `e'` has not, and `e'` is not at the place of the
parameter of `e`. -/
def NotOver (current : List Live) (e e' : StateParameter) : Prop :=
  Gone current e'.id → ∀ p q, First current (HasId e.id) p → First current (AtPlace e') q →
    p.1 = e'.index.toNat → Fixed p ∨ Fixed q

/-- Two saved entries, where ids are looked at. `indexes` is for live lists
that give one index to two ids. -/
structure Apart (current : List Live) (e e' : StateParameter) : Prop where
  ids : e.id = e'.id → ∀ p, First current (HasId e.id) p → Fixed p
  indexes : e.id ≠ e'.id → ∀ p p', First current (HasId e.id) p →
    First current (HasId e'.id) p' → p.1 = p'.1 → Fixed p ∨ Fixed p'
  places : Gone current e.id → Gone current e'.id → e.index = e'.index → ∀ p p',
    First current (AtPlace e) p → First current (AtPlace e') p' → Fixed p ∨ Fixed p'
  after : NotOver current e e'
  before : NotOver current e' e

/-- Two saved entries of an old format. -/
def ApartByIndex (current : List Live) (e e' : StateParameter) : Prop :=
  e.index = e'.index → ∀ p, First current (·.1 = e.index.toNat) p → Fixed p

/-- No two saved entries with finite values have the id, or the index and the
name, of one live parameter that can be written. -/
def Distinct (current : List Live) (saved : List StateParameter) (byIndexOnly : Bool) : Prop :=
  saved.Pairwise fun e e' => isFinite e.value = true → isFinite e'.value = true →
    if byIndexOnly then ApartByIndex current e e' else Apart current e e'

theorem find?_eq_some_iff_first {current : List Live} {f : Live → Bool} {P : Live → Prop}
    (h : ∀ p, f p = true ↔ P p) {p : Live} : current.find? f = some p ↔ First current P p := by
  rw [List.find?_eq_some_iff_append, h]
  refine and_congr_right fun _ => exists_congr fun before => exists_congr fun after =>
    and_congr_right fun _ => forall₂_congr fun q _ => ?_
  rw [Bool.not_eq_true', ← Bool.not_eq_true, h]

theorem find?_id {current : List Live} {id : UInt32} {p : Live} :
    (current.find? fun p => p.2.id == id) = some p ↔ First current (HasId id) p :=
  find?_eq_some_iff_first fun _ => beq_iff_eq

theorem find?_id_eq_none {current : List Live} {id : UInt32} :
    (current.find? fun p => p.2.id == id) = none ↔ Gone current id := by
  simp [Gone]

/-- The live parameter of an entry, by its id or by its place. -/
theorem select_eq_some {current : List Live} {e : StateParameter} {p : Live} :
    select current false e = some p ↔
      First current (HasId e.id) p ∨ Gone current e.id ∧ First current (AtPlace e) p := by
  have hplace : (current.find? fun p => p.1 == e.index.toNat &&
      (e.name.isEmpty || eqIgnoreAsciiCase p.2.name e.name)) = some p ↔
      First current (AtPlace e) p :=
    find?_eq_some_iff_first fun q => by simp [AtPlace]
  rw [← find?_id, ← find?_id_eq_none, ← hplace]
  exact Option.or_eq_some_iff

theorem select_byIndex {current : List Live} {e : StateParameter} {p : Live} :
    select current true e = some p ↔ First current (·.1 = e.index.toNat) p :=
  find?_eq_some_iff_first fun _ => beq_iff_eq

theorem First.index {current : List Live} {e : StateParameter} {p : Live}
    (h : First current (AtPlace e) p) : p.1 = e.index.toNat := h.1.1

/-- The entries are for different parameters, or for one that is not written. -/
def Separate (current : List Live) (byIndexOnly : Bool) (e e' : StateParameter) : Prop :=
  ∀ p p', select current byIndexOnly e = some p → select current byIndexOnly e' = some p' →
    p.1 = p'.1 → Fixed p ∨ Fixed p'

theorem Separate.notOver {current : List Live} {e e' : StateParameter}
    (h : Separate current false e e') : NotOver current e e' := fun hgone p q hp hq hindex =>
  h p q (select_eq_some.mpr (.inl hp)) (select_eq_some.mpr (.inr ⟨hgone, hq⟩))
    (hindex.trans hq.index.symm)

theorem Separate.symm {current : List Live} {byIndexOnly : Bool} {e e' : StateParameter}
    (h : Separate current byIndexOnly e e') : Separate current byIndexOnly e' e :=
  fun p p' hp hp' hindex => (h p' p hp' hp hindex.symm).symm

theorem separate_iff_apart {current : List Live} {e e' : StateParameter} :
    Separate current false e e' ↔ Apart current e e' := by
  constructor
  · intro h
    refine ⟨fun hid p hp => ?_, fun _ p p' hp hp' => ?_, fun hgone hgone' hindex p p' hp hp' => ?_,
      h.notOver, h.symm.notOver⟩
    · exact (h p p (select_eq_some.mpr (.inl hp)) (select_eq_some.mpr (.inl (hid ▸ hp))) rfl).elim
        id id
    · exact h p p' (select_eq_some.mpr (.inl hp)) (select_eq_some.mpr (.inl hp'))
    · refine h p p' (select_eq_some.mpr (.inr ⟨hgone, hp⟩))
        (select_eq_some.mpr (.inr ⟨hgone', hp'⟩)) ?_
      rw [hp.index, hp'.index, hindex]
  · intro h p p' hp hp' hindex
    rcases select_eq_some.mp hp with hp | ⟨hgone, hp⟩
    · rcases select_eq_some.mp hp' with hp' | ⟨hgone', hp'⟩
      · by_cases hid : e.id = e'.id
        · exact .inl (h.ids hid p hp)
        · exact h.indexes hid p p' hp hp' hindex
      · exact h.after hgone' p p' hp hp' (hindex.trans hp'.index)
    · rcases select_eq_some.mp hp' with hp' | ⟨hgone', hp'⟩
      · exact (h.before hgone p' p hp' hp (hindex.symm.trans hp.index)).symm
      · refine h.places hgone hgone' (UInt32.toNat_inj.mp ?_) p p' hp hp'
        rw [← hp.index, ← hp'.index, hindex]

theorem separate_iff_apartByIndex {current : List Live} {e e' : StateParameter} :
    Separate current true e e' ↔ ApartByIndex current e e' := by
  constructor
  · intro h hindex p hp
    exact (h p p (select_byIndex.mpr hp) (select_byIndex.mpr (hindex ▸ hp)) rfl).elim id id
  · intro h p p' hp hp' hindex
    have hp := select_byIndex.mp hp
    refine .inl (h (UInt32.toNat_inj.mp ?_) p hp)
    rw [← hp.1, ← (select_byIndex.mp hp').1, hindex]

/-- Two entries with finite values that are separate. -/
theorem assignment_ne_iff {current : List Live} {byIndexOnly : Bool} {e e' : StateParameter} :
    (∀ a, assignment current byIndexOnly e = some a →
      ∀ a', assignment current byIndexOnly e' = some a' → a.1 ≠ a'.1) ↔
    (isFinite e.value = true → isFinite e'.value = true → Separate current byIndexOnly e e') := by
  constructor
  · intro h hfinite hfinite' p p' hp hp' hindex
    by_contra hnot
    simp only [Fixed, not_or, Bool.not_eq_true] at hnot
    exact h _ (assignment_eq_some.mpr ⟨p, hp, hnot.1, hfinite, rfl⟩) _
      (assignment_eq_some.mpr ⟨p', hp', hnot.2, hfinite', rfl⟩) hindex
  · intro h a ha a' ha' hindex
    obtain ⟨p, hp, hwritable, hfinite, rfl⟩ := assignment_eq_some.mp ha
    obtain ⟨p', hp', hwritable', hfinite', rfl⟩ := assignment_eq_some.mp ha'
    rcases h hfinite hfinite' p p' hp hp' hindex with hfixed | hfixed
    · exact Bool.false_ne_true (hwritable.symm.trans hfixed)
    · exact Bool.false_ne_true (hwritable'.symm.trans hfixed)

theorem nodup_iff_distinct (current : List Live) (saved : List StateParameter)
    (byIndexOnly : Bool) :
    ((resolveVst3ParameterAssignments current saved byIndexOnly).map Prod.fst).Nodup ↔
      Distinct current saved byIndexOnly := by
  unfold resolveVst3ParameterAssignments Distinct
  rw [List.Nodup, List.pairwise_map, List.pairwise_filterMap]
  refine List.Pairwise.iff fun e e' => assignment_ne_iff.trans ?_
  cases byIndexOnly with
  | false => exact forall₂_congr fun _ _ => separate_iff_apart
  | true => exact forall₂_congr fun _ _ => separate_iff_apartByIndex

/-- The restore is as it should be exactly where no two saved entries have the
id, or the index and the name, of one live parameter. -/
theorem resolved_iff (current : List Live) (saved : List StateParameter) (byIndexOnly : Bool) :
    Resolved current saved byIndexOnly ↔ Distinct current saved byIndexOnly := by
  constructor
  · intro h
    exact (nodup_iff_distinct ..).mp h.once
  · intro h
    refine ⟨(nodup_iff_distinct ..).mpr h, ?_, fun a ha => allowed_of_mem ha⟩
    rintro rfl e he p hfind hwritable hfinite
    exact exact_of_id he hfind hwritable hfinite

/-- An entry of an id that is gone comes after the one of the live id and goes
to the same parameter, by its index and name. -/
theorem weak_match_overrides :
    let current : List Live := [(0, ⟨1, 0, "Gain"⟩)]
    let saved : List StateParameter := [⟨1, 5, 0, "Gain", 0x3E800000⟩, ⟨99, 0, 0, "Gain", 0x3F400000⟩]
    resolveVst3ParameterAssignments current saved false = [(0, 0x3E800000), (0, 0x3F400000)] ∧
      ¬Resolved current saved false := by
  refine ⟨by decide +kernel, fun h => ?_⟩
  have honce := h.once
  revert honce
  decide +kernel

end RtpOscMidi.L2.ParameterRestore
