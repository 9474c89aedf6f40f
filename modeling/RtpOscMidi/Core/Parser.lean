import RtpOscMidi.Core.Bytes

/-!
# Parsers over byte strings

A parser takes a value from the front of a byte string and leaves the rest.
`Recognizes p R` says which strings it takes: `p` reads `a` from `bs`
exactly when a front part of `bs` is an encoding `R` of `a`. It covers both
directions at once, what is written is read back and what is read was
written, and goes through the parser's own steps (`Recognizes.bind`,
`Recognizes.guard`, `Recognizes.times`).
-/
namespace Core

universe u

abbrev Parser (α : Type) := StateT (List UInt8) Option α

namespace Parser

variable {α β : Type}

def take (n : Nat) : Parser (List UInt8) := fun bs =>
  if n ≤ bs.length then some (bs.take n, bs.drop n) else none

def guard (c : Prop) [Decidable c] : Parser Unit := fun bs => if c then some ((), bs) else none

def lift (x : Option α) : Parser α := fun bs => x.map fun a => (a, bs)

/-- `n` values one after another. -/
def times (p : Parser α) : Nat → Parser (List α)
  | 0 => pure []
  | n + 1 => do
    let a ← p
    let as ← times p n
    return a :: as

end Parser

/-- `p` reads `a` where `R` has an encoding of `a`, and takes nothing else. -/
def Recognizes {α : Type} (p : Parser α) (R : List UInt8 → α → Prop) : Prop :=
  ∀ bs a rest, p bs = some (a, rest) ↔ ∃ used, bs = used ++ rest ∧ R used a

namespace Recognizes

variable {α β : Type} {p : Parser α} {R R' : List UInt8 → α → Prop}

theorem congr (h : Recognizes p R) (hr : ∀ bs a, R bs a ↔ R' bs a) : Recognizes p R' := by
  intro bs a rest
  rw [h bs a rest]
  exact exists_congr fun used => and_congr_right fun _ => hr used a

theorem pure (a : α) : Recognizes (Pure.pure a : Parser α) fun bs b => bs = [] ∧ b = a := by
  intro bs b rest
  constructor
  · intro h
    cases h
    exact ⟨[], rfl, rfl, rfl⟩
  · intro ⟨used, hbs, hu, hb⟩
    subst hu hb hbs
    rfl

theorem bind {f : α → Parser β} {S : α → List UInt8 → β → Prop} (hp : Recognizes p R)
    (hf : ∀ a, Recognizes (f a) (S a)) :
    Recognizes (p >>= f) fun bs b => ∃ a left right, bs = left ++ right ∧ R left a ∧ S a right b := by
  intro bs b rest
  have hrun : (p >>= f) bs = (p bs).bind fun x => f x.1 x.2 := rfl
  rw [hrun, Option.bind_eq_some_iff]
  constructor
  · intro ⟨⟨a, mid⟩, hpa, hfa⟩
    obtain ⟨left, hl, hR⟩ := (hp bs a mid).mp hpa
    obtain ⟨right, hr, hS⟩ := (hf a mid b rest).mp hfa
    exact ⟨left ++ right, by rw [hl, hr, List.append_assoc], a, left, right, rfl, hR, hS⟩
  · intro ⟨used, hbs, a, left, right, hu, hR, hS⟩
    refine ⟨(a, right ++ rest), (hp ..).mpr ⟨left, ?_, hR⟩, (hf ..).mpr ⟨right, rfl, hS⟩⟩
    rw [hbs, hu, List.append_assoc]

theorem take (n : Nat) : Recognizes (Parser.take n) fun bs a => bs = a ∧ a.length = n := by
  intro bs a rest
  unfold Parser.take
  constructor
  · intro h
    split at h
    · next hle =>
      cases h
      exact ⟨bs.take n, (List.take_append_drop n bs).symm, rfl, by rw [List.length_take]; omega⟩
    · cases h
  · intro ⟨used, hbs, hu, hlen⟩
    subst hu hbs hlen
    rw [if_pos (by rw [List.length_append]; omega), List.take_left, List.drop_left]

theorem guard (c : Prop) [Decidable c] :
    Recognizes (Parser.guard c) fun bs _ => bs = [] ∧ c := by
  intro bs a rest
  unfold Parser.guard
  split
  · next hc =>
    constructor
    · intro h
      cases h
      exact ⟨[], rfl, rfl, hc⟩
    · intro ⟨used, hbs, hu, _⟩
      subst hu hbs
      rfl
  · next hc =>
    constructor
    · intro h; cases h
    · intro ⟨_, _, _, hc'⟩; exact absurd hc' hc

theorem lift (x : Option α) : Recognizes (Parser.lift x) fun bs a => bs = [] ∧ x = some a := by
  intro bs a rest
  unfold Parser.lift
  rw [Option.map_eq_some_iff]
  constructor
  · intro ⟨b, hx, h⟩
    cases h
    exact ⟨[], rfl, rfl, hx⟩
  · intro ⟨used, hbs, hu, hx⟩
    subst hu hbs
    exact ⟨a, hx, rfl⟩

theorem times {enc : α → List UInt8} {ok : α → Prop}
    (hp : Recognizes p fun bs a => bs = enc a ∧ ok a) (n : Nat) :
    Recognizes (p.times n) fun bs as =>
      bs = as.flatMap enc ∧ as.length = n ∧ ∀ a ∈ as, ok a := by
  induction n with
  | zero =>
    refine (pure []).congr fun bs as => ?_
    constructor
    · intro ⟨hb, ha⟩
      subst hb ha
      exact ⟨rfl, rfl, by simp⟩
    · intro ⟨hb, hl, _⟩
      have ha := List.eq_nil_of_length_eq_zero hl
      subst ha hb
      exact ⟨rfl, rfl⟩
  | succ n ih =>
    refine (bind hp fun a => bind ih fun as => pure (a :: as)).congr fun bs as => ?_
    constructor
    · intro ⟨a, left, right, hb, ⟨hl, ha⟩, as', left', right', hb', ⟨hl', hn, hok⟩, hr, has⟩
      subst has hr hl' hl hb' hb
      exact ⟨by simp, by simp [hn], by simpa using ⟨ha, hok⟩⟩
    · intro ⟨hb, hn, hok⟩
      match as with
      | [] => simp at hn
      | a :: as =>
        refine ⟨a, enc a, as.flatMap enc, hb, ⟨rfl, hok a (by simp)⟩, as, as.flatMap enc, [],
          (List.append_nil _).symm, ⟨rfl, by simpa using hn, fun b hb => hok b (by simp [hb])⟩,
          rfl, rfl⟩

end Recognizes

end Core
