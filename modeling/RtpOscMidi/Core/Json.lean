import RtpOscMidi.Core.Binary32

/-!
# JSON values and the records they carry

A `Codec` writes values of a type as JSON and reads them, and carries the law
that says what comes back: the value itself where it is `good`, and nothing
otherwise. `Fields` are the fields of a record, read by their names in
whatever object holds them; the names are different (`Fields.record`), a field
may have a value to be read where it is missing (`Fields.cons`), and one may be
left out (`Fields.skip`).

The only number that JSON cannot carry is one that is not finite:
`Codec.float` writes it as `null`, which it does not read. A value may also be
refused by a check of its own (`Codec.check`).
-/
namespace Core

abbrev Finite32 := { bits : UInt32 // Binary32.isFinite bits = true }

inductive Json where
  | null
  | bool (b : Bool)
  | int (n : Int)
  | float (x : Finite32)
  | str (s : String)
  | arr (l : List Json)
  | obj (l : List (String × Json))

/-- What is written of a value, what is read, and which values come back. -/
structure Codec (α : Type) where
  enc : α → Json
  dec : Json → Option α
  good : α → Bool
  dec_enc : ∀ a, dec (enc a) = if good a then some a else none

namespace Codec

variable {α β : Type}

/-- A codec by which every value comes back. -/
def total (enc : α → Json) (dec : Json → Option α) (h : ∀ a, dec (enc a) = some a) : Codec α :=
  ⟨enc, dec, fun _ => true, h⟩

def ofBool : Codec Bool := total .bool (fun | .bool b => some b | _ => none) fun _ => rfl

def ofString : Codec String := total .str (fun | .str s => some s | _ => none) fun _ => rfl

/-- Integers of a range, by what is read in it. -/
def ofInt (toInt : α → Int) (read : Int → Option α) (h : ∀ a, read (toInt a) = some a) : Codec α :=
  total (fun a => .int (toInt a)) (fun | .int n => read n | _ => none) h

def u32 : Codec UInt32 :=
  ofInt (fun n => n.toNat) (fun n => if 0 ≤ n ∧ n < 2 ^ 32 then some (UInt32.ofNat n.toNat) else none)
    fun a => by
      have hlt := a.toNat_lt
      rw [if_pos (by omega), Int.toNat_natCast, UInt32.ofNat_toNat]

def u64 : Codec UInt64 :=
  ofInt (fun n => n.toNat) (fun n => if 0 ≤ n ∧ n < 2 ^ 64 then some (UInt64.ofNat n.toNat) else none)
    fun a => by
      have hlt := a.toNat_lt
      rw [if_pos (by omega), Int.toNat_natCast, UInt64.ofNat_toNat]

def i32 : Codec Int32 :=
  ofInt Int32.toInt (fun n => if -2 ^ 31 ≤ n ∧ n < 2 ^ 31 then some (Int32.ofInt n) else none)
    fun a => by
      have hle := a.le_toInt
      have hlt := a.toInt_lt
      rw [if_pos ⟨hle, hlt⟩, Int32.ofInt_toInt]

/-- A number that may be none: what is not finite is written as `null`. -/
def float : Codec UInt32 where
  enc x := if h : Binary32.isFinite x = true then .float ⟨x, h⟩ else .null
  dec := fun | .float x => some x.1 | _ => none
  good := Binary32.isFinite
  dec_enc x := by
    by_cases h : Binary32.isFinite x = true
    · simp [h]
    · simp [h]

def readOption (read : Json → Option α) : Json → Option (Option α)
  | .null => some none
  | j => (read j).map some

theorem readOption_ne {read : Json → Option α} {j : Json} (h : j ≠ .null) :
    readOption read j = (read j).map some := by
  cases j with
  | null => exact absurd rfl h
  | bool b => rfl
  | int n => rfl
  | float x => rfl
  | str s => rfl
  | arr l => rfl
  | obj l => rfl

/-- `null` for none, so the values themselves may not be written so. -/
def option (c : Codec α) (hnull : ∀ a, c.enc a ≠ .null) : Codec (Option α) where
  enc := fun | none => .null | some a => c.enc a
  dec := readOption c.dec
  good := fun | none => true | some a => c.good a
  dec_enc a := by
    cases a with
    | none => rfl
    | some a =>
      rw [readOption_ne (hnull a), c.dec_enc]
      split <;> rfl

def list (c : Codec α) : Codec (List α) where
  enc l := .arr (l.map c.enc)
  dec := fun | .arr l => l.mapM c.dec | _ => none
  good l := l.all c.good
  dec_enc l := by
    induction l with
    | nil => rfl
    | cons a l ih =>
      simp only [List.map_cons, List.mapM_cons, c.dec_enc, List.all_cons] at ih ⊢
      rw [ih]
      by_cases ha : c.good a = true
      · by_cases hl : l.all c.good = true
        · simp [ha, hl]
        · simp [ha, hl]
      · simp [ha]

/-- A type that is another by other names. -/
def via (c : Codec β) (e : α ≃ β) : Codec α where
  enc a := c.enc (e a)
  dec j := (c.dec j).map e.symm
  good a := c.good (e a)
  dec_enc a := by
    rw [c.dec_enc]
    split
    · rw [Option.map_some, e.symm_apply_apply]
    · rfl

/-- Any value is written, and what `read` does not refuse is read. -/
def check (c : Codec α) (read : α → Option α) (accepts : α → Bool)
    (h : ∀ a, read a = if accepts a then some a else none) : Codec α where
  enc := c.enc
  dec j := (c.dec j).bind read
  good a := c.good a && accepts a
  dec_enc a := by
    rw [c.dec_enc]
    by_cases ha : c.good a = true
    · rw [if_pos ha, Option.bind_some, h, ha, Bool.true_and]
    · rw [if_neg ha, Option.bind_none, Bool.not_eq_true _ |>.mp ha, Bool.false_and]
      rfl

/-! Which values come back, codec by codec. -/

@[simp] theorem good_total {enc : α → Json} {dec : Json → Option α}
    {h : ∀ a, dec (enc a) = some a} (a : α) : (total enc dec h).good a = true := rfl

@[simp] theorem good_ofBool (b : Bool) : ofBool.good b = true := rfl

@[simp] theorem good_ofString (s : String) : ofString.good s = true := rfl

@[simp] theorem good_ofInt {toInt : α → Int} {read : Int → Option α}
    {h : ∀ a, read (toInt a) = some a} (a : α) : (ofInt toInt read h).good a = true := rfl

@[simp] theorem good_u32 (n : UInt32) : u32.good n = true := rfl

@[simp] theorem good_u64 (n : UInt64) : u64.good n = true := rfl

@[simp] theorem good_i32 (n : Int32) : i32.good n = true := rfl

@[simp] theorem good_float (x : UInt32) : float.good x = Binary32.isFinite x := rfl

@[simp] theorem good_list (c : Codec α) (l : List α) : c.list.good l = l.all c.good := rfl

@[simp] theorem good_check (c : Codec α) {read : α → Option α} {accepts : α → Bool}
    {h : ∀ a, read a = if accepts a then some a else none} (a : α) :
    (c.check read accepts h).good a = (c.good a && accepts a) := rfl

@[simp] theorem good_via (c : Codec β) (e : α ≃ β) (a : α) : (c.via e).good a = c.good (e a) := rfl

/-- Every value comes back. -/
def Total (c : Codec α) : Prop := ∀ a, c.good a = true

theorem Total.option {c : Codec α} (h : c.Total) (hnull : ∀ a, c.enc a ≠ .null) :
    (c.option hnull).Total
  | none => rfl
  | some a => h a

theorem Total.list {c : Codec α} (h : c.Total) : c.list.Total :=
  fun _ => List.all_eq_true.mpr fun a _ => h a

theorem Total.via {c : Codec β} (h : c.Total) (e : α ≃ β) : (c.via e).Total := fun a => h (e a)

end Codec

/-- The fields of a record; where the names are different, `dec` reads them in
any object that has what is written under these names. -/
structure Fields (α : Type) where
  names : List String
  enc : α → List (String × Json)
  dec : List (String × Json) → Option α
  good : α → Bool
  lookup_eq_none : ∀ a name, name ∉ names → (enc a).lookup name = none
  dec_enc : names.Nodup → ∀ a o, (∀ name ∈ names, o.lookup name = (enc a).lookup name) →
    dec o = if good a then some a else none

namespace Fields

variable {α β : Type}

theorem lookup_cons_ne {name key : String} {j : Json} {o : List (String × Json)}
    (h : name ≠ key) : ((key, j) :: o).lookup name = o.lookup name := by
  rw [List.lookup_cons, beq_false_of_ne h]

def nil : Fields Unit where
  names := []
  enc _ := []
  dec _ := some ()
  good _ := true
  lookup_eq_none _ _ _ := rfl
  dec_enc _ _ _ _ := rfl

/-- A field; `missing` is read where there is none. -/
def cons (name : String) (missing : Option α) (c : Codec α) (rest : Fields β) :
    Fields (α × β) where
  names := name :: rest.names
  enc x := (name, c.enc x.1) :: rest.enc x.2
  dec o := do
    let a ← match o.lookup name with
      | some j => c.dec j
      | none => missing
    let b ← rest.dec o
    return (a, b)
  good x := c.good x.1 && rest.good x.2
  lookup_eq_none x key h := by
    rw [List.mem_cons, not_or] at h
    rw [lookup_cons_ne h.1]
    exact rest.lookup_eq_none x.2 key h.2
  dec_enc hnodup x o h := by
    obtain ⟨hnew, hrest⟩ := List.nodup_cons.mp hnodup
    have hhead : o.lookup name = some (c.enc x.1) := by
      rw [h name List.mem_cons_self, List.lookup_cons_self]
    have htail := rest.dec_enc hrest x.2 o fun key hkey => by
      have hne : key ≠ name := fun heq => hnew (heq ▸ hkey)
      rw [h key (List.mem_cons_of_mem _ hkey), lookup_cons_ne hne]
    simp only [hhead, c.dec_enc, htail]
    by_cases ha : c.good x.1 = true
    · by_cases hb : rest.good x.2 = true
      · simp [ha, hb]
      · simp [ha, hb]
    · simp [ha]

/-- A field that is left out where there is nothing to write. -/
def skip (name : String) (c : Codec α) (rest : Fields β) : Fields (Option α × β) where
  names := name :: rest.names
  enc x := match x.1 with
    | some a => (name, c.enc a) :: rest.enc x.2
    | none => rest.enc x.2
  dec o := do
    let a ← match o.lookup name with
      | some j => (c.dec j).map some
      | none => some none
    let b ← rest.dec o
    return (a, b)
  good x := (match x.1 with
    | some a => c.good a
    | none => true) && rest.good x.2
  lookup_eq_none x key h := by
    rw [List.mem_cons, not_or] at h
    cases x.1 with
    | none => exact rest.lookup_eq_none x.2 key h.2
    | some a =>
      simp only
      rw [lookup_cons_ne h.1]
      exact rest.lookup_eq_none x.2 key h.2
  dec_enc hnodup x o h := by
    obtain ⟨hnew, hrest⟩ := List.nodup_cons.mp hnodup
    obtain ⟨a, b⟩ := x
    cases a with
    | none =>
      have hhead : o.lookup name = none := by
        rw [h name List.mem_cons_self]
        exact rest.lookup_eq_none b name hnew
      have htail := rest.dec_enc hrest b o fun key hkey => h key (List.mem_cons_of_mem _ hkey)
      simp only [hhead, htail, Bool.true_and]
      by_cases hb : rest.good b = true
      · simp [hb]
      · simp [hb]
    | some a =>
      have hhead : o.lookup name = some (c.enc a) := by
        rw [h name List.mem_cons_self]
        simp
      have htail := rest.dec_enc hrest b o fun key hkey => by
        rw [h key (List.mem_cons_of_mem _ hkey)]
        have hne : key ≠ name := fun heq => hnew (heq ▸ hkey)
        exact lookup_cons_ne hne
      simp only [hhead, c.dec_enc, htail]
      by_cases ha : c.good a = true
      · by_cases hb : rest.good b = true
        · simp [ha, hb]
        · simp [ha, hb]
      · simp [ha]

/-- A record of its own. -/
def record (f : Fields α) (hnodup : f.names.Nodup) : Codec α where
  enc a := .obj (f.enc a)
  dec := fun | .obj o => f.dec o | _ => none
  good := f.good
  dec_enc a := f.dec_enc hnodup a _ fun _ _ => rfl

@[simp] theorem good_nil (u : Unit) : nil.good u = true := rfl

@[simp] theorem good_cons {name : String} {missing : Option α} {c : Codec α} {rest : Fields β}
    (x : α × β) : (cons name missing c rest).good x = (c.good x.1 && rest.good x.2) := rfl

@[simp] theorem good_skip {name : String} {c : Codec α} {rest : Fields β} (x : Option α × β) :
    (skip name c rest).good x = (x.1.all c.good && rest.good x.2) := by
  obtain ⟨a, b⟩ := x
  cases a with
  | none => rfl
  | some a => rfl

@[simp] theorem good_record (f : Fields α) (hnodup : f.names.Nodup) (a : α) :
    (f.record hnodup).good a = f.good a := rfl

/-- Every record comes back. -/
def Total (f : Fields α) : Prop := ∀ a, f.good a = true

theorem Total.nil : nil.Total := fun _ => rfl

theorem Total.cons {name : String} {missing : Option α} {c : Codec α} {rest : Fields β}
    (hc : c.Total) (hrest : rest.Total) : (cons name missing c rest).Total := fun x =>
  Bool.and_eq_true_iff.mpr ⟨hc x.1, hrest x.2⟩

theorem Total.record {f : Fields α} (h : f.Total) (hnodup : f.names.Nodup) :
    (f.record hnodup).Total := h

/-- The fields of one case of an enumeration, beside the tag that names it. -/
theorem dec_tagged (f : Fields α) {key : String} (hkey : (key :: f.names).Nodup) (tag : String)
    (a : α) : f.dec ((key, .str tag) :: f.enc a) = if f.good a then some a else none := by
  obtain ⟨hkey, hnodup⟩ := List.nodup_cons.mp hkey
  refine f.dec_enc hnodup a _ fun name hname => ?_
  have hne : name ≠ key := fun heq => hkey (heq ▸ hname)
  exact lookup_cons_ne hne

end Fields

end Core
