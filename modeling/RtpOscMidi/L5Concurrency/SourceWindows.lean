import RtpOscMidi.L5Concurrency.RenderAhead

/-!
# The source windows of render-ahead

`RenderAhead` with the requests that its blocks carry: where each came from
(`render_next_at` primes it, or `return_current` makes it from the position of
the callback), and in which order the renderer is invoked for them.

The application primes once, before it activates, and the sizes change only
while it is paused or when every block has been primed (`Orderly`); the nows
of the calls never decrease.

* the renderer is never invoked for a window that ends after its now;
* the ends of the windows it is invoked for never decrease, except from a
  primed one to a live one made without history;
* two live windows are a period of the later one apart, except when the later
  one is made without history or its end is saturated.
-/
namespace RtpOscMidi.L5.SourceWindows

open Core RenderAhead

variable {F : Type}

/-- `history = false`: no live request before it had an end past 0, and the
anchor is less than a period. -/
inductive Origin where
  | primed
  | live (history : Bool)
  deriving DecidableEq, Repr

structure Source where
  request : Request
  origin : Option Origin
  deriving DecidableEq, Repr

/-- `waiting` has the requests that no accepted render has answered yet, the
oldest first, `rendered` what the renderer was invoked for and at which now,
and `live` the requests of `return_current`. -/
structure WinSt (F : Type) where
  base : St F
  clock : Nat
  waiting : List Source
  rendered : List (Source × Nat)
  live : List Source
  deriving DecidableEq, Repr

/-- mirrors src-tauri/src/audio/render_ahead.rs:204-205,260 -/
def period (c : Cfg) (frames : Nat) : Nat := frames * 1000000 / c.sampleRate

/-- mirrors src-tauri/src/audio/render_ahead.rs:207-211 -/
def primedEnd (c : Cfg) (anchorUs frames index : Nat) : Nat :=
  anchorUs - (c.blocks - index) * period c frames

/-! ## Which block is where -/

/-- The block that waits for its first window. -/
def priming : Rend F → Option Nat
  | .primeFrames _ index _ | .primeAnchor _ index _ => some index
  | _ => none

/-- The indices of the blocks that still have to be primed, the next first. -/
def toPrime (r : Rend F) (free : List (Block F)) : List Nat :=
  (priming r).toList ++ free.filterMap (·.primeIndex)

/-- The block with a window that the renderer has. -/
def held (r : Rend F) (pending : Option (Block F)) : Option (Block F) :=
  match r with
  | .primeFrames .. | .primeAnchor .. => none
  | .render b | .checkGeneration b _ | .checkEmergency b _ | .addFrames b | .push b
  | .subFrames b => some b
  | _ => pending

/-- The block whose new request is about to enter the ring. -/
def returned : Call F → Option (Block F)
  | .returnPush _ _ b => some b
  | _ => none

/-- The requests on their way to the renderer, the next first. -/
def pipe (r : Rend F) (pending : Option (Block F)) (free : List (Block F)) (u : Call F) :
    List Request :=
  ((held r pending).toList ++ free.filter (·.primeIndex.isNone) ++ (returned u).toList).map
    (·.request)

/-- The now of the `render_next_at` that runs. -/
def nowOf : Rend F → Nat
  | .phase now | .gate now | .full now | .take now | .primeFrames now _ _
  | .primeAnchor now _ _ => now
  | _ => 0

/-! ## Steps -/

/-- mirrors src-tauri/src/audio/render_ahead.rs:275 -/
def history (c : Cfg) (s : St F) (frames : Nat) : Bool :=
  !(s.lastEndpoint = 0 ∧ s.anchorUs < period c frames)

/-- The request that the step from `s` to `base` makes. -/
def created (c : Cfg) (s base : St F) : Lbl F → Option Source
  | .rend =>
    match s.rend with
    | .primeAnchor .. => (held base.rend base.pending).map fun b => ⟨b.request, some .primed⟩
    | _ => none
  | .call =>
    match s.call with
    | .returnClock _ _ _ frames _ =>
      (returned base.call).map fun b => ⟨b.request, some (.live (history c s frames))⟩
    | _ => none
  | _ => none

/-- The step puts a finished render into `ready`. -/
def accepts (s base : St F) : Lbl F → Bool
  | .rend =>
    match s.rend, base.rend with
    | .push _, .idle done => done
    | _, _ => false
  | _ => false

/-- The block for which the step invokes the renderer. -/
def invoked (base : St F) : Lbl F → Option (Block F)
  | .rend =>
    match base.rend with
    | .render b => some b
    | _ => none
  | _ => none

def clockOf (clock : Nat) : Lbl F → Nat
  | .setAnchor now | .renderNext now | .copyInto _ now => now
  | _ => clock

def Source.isLive (x : Source) : Bool :=
  match x.origin with
  | some (.live _) => true
  | _ => false

def note (c : Cfg) (s : WinSt F) (l : Lbl F) (base : St F) : WinSt F :=
  let made := (created c s.base base l).toList
  let waiting := s.waiting ++ made
  { base, clock := clockOf s.clock l,
    waiting := if accepts s.base base l then waiting.tail else waiting,
    rendered := s.rendered ++ (invoked base l).toList.map fun b =>
      (⟨b.request, waiting.head?.bind (·.origin)⟩, nowOf s.base.rend),
    live := s.live ++ made.filter Source.isLive }

def winStep (c : Cfg) (s : WinSt F) (l : Lbl F) : Option (WinSt F) :=
  (step c s.base l).map (note c s l)

/-- The anchor is set while paused, the device is activated when every block
has been primed, and in between the size stays; the nows never decrease.
mirrors src-tauri/src/audio/render_ahead.rs:526-540 -/
def Orderly (s : WinSt F) : Lbl F → Prop
  | .setAnchor us => s.base.phase = 0 ∧ s.clock ≤ us ∧ us ≤ u64Max
  | .setFrames _ => s.base.phase = 0 ∨ toPrime s.base.rend s.base.free = []
  | .setPhase phase =>
    s.base.phase = 0 ∧ phase = 1 ∨
    s.base.phase = 1 ∧ phase = 2 ∧ toPrime s.base.rend s.base.free = [] ∨ phase = 3
  | .renderNext now | .copyInto _ now => s.clock ≤ now ∧ now ≤ u64Max
  | _ => True

instance (s : WinSt F) (l : Lbl F) : Decidable (Orderly s l) := by
  cases l <;> unfold Orderly <;> infer_instance

/-- What `channel` returns, before anything has been made or rendered. -/
def Start (c : Cfg) (s : WinSt F) : Prop :=
  (∃ frames, channel c frames = .ok s.base) ∧ s.clock = 0 ∧ s.waiting = [] ∧ s.rendered = [] ∧
    s.live = []

def winLts (F : Type) (c : Cfg) : LTS (WinSt F) (Lbl F) :=
  (LTS.ofStep (Start c) (winStep c)).restrict Orderly

/-- `b` may be rendered after `a`. -/
def Follows (a b : Source) : Prop :=
  a.request.sourceEndUs ≤ b.request.sourceEndUs ∨
    a.origin = some .primed ∧ b.origin = some (.live false)

/-- The window of `b` begins where that of `a` ends, or later. -/
def Apart (c : Cfg) (a b : Source) : Prop :=
  a.request.sourceEndUs + period c b.request.frames ≤ b.request.sourceEndUs ∨
    b.request.sourceEndUs = u64Max ∨ b.origin = some (.live false)

theorem winStep_eq_some {c : Cfg} {s s' : WinSt F} {l : Lbl F} :
    winStep c s l = some s' ↔ ∃ base, step c s.base l = some base ∧ s' = note c s l base := by
  simp only [winStep, Option.map_eq_some_iff, @eq_comm _ s']

theorem note_quiet {c : Cfg} {s : WinSt F} {l : Lbl F} {base : St F}
    (hc : created c s.base base l = none) (ha : accepts s.base base l = false)
    (hi : invoked base l = none) :
    note c s l base = { s with base, clock := clockOf s.clock l } := by
  simp [note, hc, ha, hi]

/-! ## The order of priming, activation and calls -/

/-- The renderer is past its check of the phase. -/
def Rendering : Rend F → Prop
  | .idle _ | .phase _ => False
  | _ => True

/-- The callback is past its check of the phase. -/
def Calling : Call F → Prop
  | .idle _ | .phase _ _ => False
  | _ => True

/-- The now of the call that runs. -/
def nowOfCall : Call F → Nat
  | .phase now _ | .enter now _ | .loadGeneration now _ | .loadEmergency now _ _
  | .storeFrames now _ _ => now
  | .pop j | .checkGeneration j | .checkEmergency j | .discard j _ | .play j | .returnFrames j _ _
  | .returnAnchor j _ _ _ | .returnClock j _ _ _ _ | .returnPush j _ _ => j.now
  | _ => 0

/-- The floor that a call has computed for its next request. -/
def FloorOk (c : Cfg) (anchorUs last : Nat) : Call F → Prop
  | .returnClock _ _ _ frames previous =>
    last ≤ previous ∧ anchorUs - period c frames ≤ previous
  | _ => True

def SizeOk (frames : Nat) : Rend F → Prop
  | .primeAnchor _ _ b => b.request.frames = frames
  | _ => True

/-- Only a block that waits for its first window has an index. -/
structure Order (c : Cfg) (s : St F) (r : Rend F) (u : Call F) : Prop where
  rendering : Rendering r → s.phase ≠ 0
  calling : Calling u → s.phase ≠ 0 ∧ toPrime r s.free = []
  unprimed : toPrime r s.free ≠ [] →
    s.phase ≠ 2 ∧ s.lastEndpoint = 0 ∧ ∀ b ∈ s.free, b.primeIndex ≠ none
  sorted : (toPrime r s.free).Pairwise (· < ·)
  pending : ∀ b ∈ s.pending, b.primeIndex = none
  rend : ∀ b ∈ r.block, b.primeIndex = none
  ready : ∀ b ∈ s.ready, b.primeIndex = none
  current : ∀ b ∈ s.current, b.primeIndex = none
  call : ∀ b ∈ u.block, b.primeIndex = none
  size : SizeOk s.frames r
  floor : FloorOk c s.anchorUs s.lastEndpoint u
  now : nowOfCall u ≤ u64Max
  anchor : s.anchorUs ≤ u64Max
  last : s.lastEndpoint ≤ u64Max

/-! ## The history of the windows -/

/-- The requests rendered and to be rendered, in order. -/
def sources (waiting : List Source) (rendered : List (Source × Nat)) : List Source :=
  rendered.map Prod.fst ++ waiting

def Below (anchorUs last : Nat) (x : Source) : Prop :=
  match x.origin with
  | some .primed => x.request.sourceEndUs ≤ anchorUs
  | some (.live _) => x.request.sourceEndUs ≤ last
  | none => False

/-- `fresh`: nothing has been primed while the application is paused.
`next`: a block still to be primed gets a window that is not earlier than those
there are. -/
structure History (c : Cfg) (phase anchorUs frames last : Nat) (indices : List Nat)
    (pipe : List Request) (waiting : List Source) (rendered : List (Source × Nat))
    (live : List Source) : Prop where
  queue : waiting.map (·.request) = pipe
  fresh : phase = 0 → sources waiting rendered = []
  sorted : (sources waiting rendered).Pairwise Follows
  below : ∀ x ∈ sources waiting rendered, Below anchorUs last x
  next : ∀ i ∈ indices, ∀ x ∈ sources waiting rendered,
    x.request.sourceEndUs ≤ primedEnd c anchorUs frames i
  apart : live.Pairwise (Apart c)
  liveBelow : ∀ x ∈ live, x.request.sourceEndUs ≤ last
  window : ∀ x ∈ rendered, x.1.request.sourceEndUs ≤ x.2

theorem Follows.refl (a : Source) : Follows a a := .inl (Nat.le_refl _)

theorem pairwise_repeat {α : Type} {R : α → α → Prop} {l r : List α} {x : α} (hx : R x x)
    (h : (l ++ x :: r).Pairwise R) : (l ++ x :: x :: r).Pairwise R := by
  obtain ⟨hl, hr, hlr⟩ := List.pairwise_append.mp h
  refine List.pairwise_append.mpr ⟨hl, ?_, ?_⟩
  · refine List.pairwise_cons.mpr ⟨?_, hr⟩
    intro y hy
    rcases List.mem_cons.mp hy with hy | hy
    · exact hy ▸ hx
    · exact (List.pairwise_cons.mp hr).1 y hy
  · intro y hy z hz
    refine hlr y hy z ?_
    rcases List.mem_cons.mp hz with hz | hz
    · exact hz ▸ List.mem_cons_self
    · exact hz

section Events

variable {c : Cfg} {phase anchorUs frames last : Nat} {indices : List Nat} {pipe : List Request}
  {waiting : List Source} {rendered : List (Source × Nat)} {live : List Source}

/-- Priming and a resize need that nothing is left to be primed, or that
nothing has been rendered. -/
theorem History.resize {frames' : Nat}
    (H : History c phase anchorUs frames last indices pipe waiting rendered live)
    (h : phase = 0 ∨ indices = []) :
    History c phase anchorUs frames' last indices pipe waiting rendered live := by
  refine { H with next := ?_ }
  intro i hi x hx
  rcases h with h | h
  · rw [H.fresh h] at hx
    cases hx
  · rw [h] at hi
    cases hi

theorem History.setAnchor {us : Nat}
    (H : History c phase anchorUs frames last indices pipe waiting rendered live) (h : phase = 0) :
    History c phase us frames last indices pipe waiting rendered live := by
  have hnone := H.fresh h
  refine { H with below := ?_, next := ?_ }
  · intro x hx
    rw [hnone] at hx
    cases hx
  · intro i _ x hx
    rw [hnone] at hx
    cases hx

theorem History.setPhase {phase' : Nat}
    (H : History c phase anchorUs frames last indices pipe waiting rendered live)
    (h : phase' ≠ 0) :
    History c phase' anchorUs frames last indices pipe waiting rendered live :=
  { H with fresh := fun h0 => absurd h0 h }

/-- The renderer is invoked for the oldest request. -/
theorem History.render {r : Request} {now : Nat} {rest : List Request}
    (H : History c phase anchorUs frames last indices (r :: rest) waiting rendered live)
    (hp : phase ≠ 0) (hnow : r.sourceEndUs ≤ now) :
    History c phase anchorUs frames last indices (r :: rest) waiting
      (rendered ++ [(⟨r, waiting.head?.bind (·.origin)⟩, now)]) live := by
  have hw := H.queue
  cases hx : waiting with
  | nil =>
    rw [hx] at hw
    cases hw
  | cons x xs =>
    rw [hx] at H hw
    have hr : x.request = r := (List.cons.inj hw).1
    have hself : (⟨r, (x :: xs).head?.bind (·.origin)⟩ : Source) = x := by
      rw [← hr]
      rfl
    have hsources : sources (x :: xs) (rendered ++ [(x, now)]) =
        rendered.map Prod.fst ++ x :: x :: xs := by
      simp [sources]
    have hmem : ∀ y ∈ sources (x :: xs) (rendered ++ [(x, now)]),
        y ∈ sources (x :: xs) rendered := by
      intro y hy
      rw [hsources] at hy
      simp only [sources, List.mem_append, List.mem_cons] at hy ⊢
      rcases hy with hy | hy | hy
      · exact .inl hy
      · exact .inr (.inl hy)
      · exact .inr hy
    rw [hself]
    refine { H with fresh := fun h0 => absurd h0 hp, sorted := ?_, below := ?_, next := ?_,
                    window := ?_ }
    · rw [hsources]
      exact pairwise_repeat (Follows.refl x) H.sorted
    · exact fun y hy => H.below y (hmem y hy)
    · exact fun i hi y hy => H.next i hi y (hmem y hy)
    · intro y hy
      rcases List.mem_append.mp hy with hy | hy
      · exact H.window y hy
      · rw [List.mem_singleton.mp hy]
        simp only
        rw [hr]
        exact hnow

/-- A finished render answers the oldest request. -/
theorem History.accept {r : Request} {rest : List Request}
    (H : History c phase anchorUs frames last indices (r :: rest) waiting rendered live) :
    History c phase anchorUs frames last indices rest waiting.tail rendered live := by
  have hw := H.queue
  have hsub : (sources waiting.tail rendered).Sublist (sources waiting rendered) :=
    List.Sublist.append (List.Sublist.refl _) (List.tail_sublist _)
  refine { H with queue := ?_, fresh := ?_, sorted := H.sorted.sublist hsub,
                  below := fun x hx => H.below x (hsub.subset hx),
                  next := fun i hi x hx => H.next i hi x (hsub.subset hx) }
  · rw [List.map_tail, hw]
    rfl
  · intro h0
    have hnone := H.fresh h0
    rw [hnone] at hsub
    exact List.sublist_nil.mp hsub

/-- A new request that follows all there are. -/
theorem History.create {last' : Nat} {indices' : List Nat} {x : Source}
    (H : History c phase anchorUs frames last indices pipe waiting rendered live)
    (hp : phase ≠ 0) (hlast : last ≤ last')
    (hfollows : ∀ y ∈ sources waiting rendered, Follows y x) (hbelow : Below anchorUs last' x)
    (hsub : indices' ⊆ indices)
    (hnext : ∀ i ∈ indices', x.request.sourceEndUs ≤ primedEnd c anchorUs frames i)
    (hlive : x.isLive = true → x.request.sourceEndUs ≤ last' ∧ ∀ y ∈ live, Apart c y x) :
    History c phase anchorUs frames last' indices' (pipe ++ [x.request]) (waiting ++ [x]) rendered
      (live ++ [x].filter Source.isLive) := by
  have hsources : sources (waiting ++ [x]) rendered = sources waiting rendered ++ [x] := by
    simp [sources]
  have hcases : ∀ y ∈ sources (waiting ++ [x]) rendered, y ∈ sources waiting rendered ∨ y = x := by
    intro y hy
    rw [hsources] at hy
    simpa using hy
  have hcasesLive : ∀ y ∈ live ++ [x].filter Source.isLive, y ∈ live ∨ y = x ∧ x.isLive = true := by
    intro y hy
    rcases List.mem_append.mp hy with hy | hy
    · exact .inl hy
    · obtain ⟨hy, hl⟩ := List.mem_filter.mp hy
      rw [List.mem_singleton] at hy
      exact .inr ⟨hy, hy ▸ hl⟩
  refine { queue := ?_, fresh := fun h0 => absurd h0 hp, sorted := ?_, below := ?_, next := ?_,
           apart := ?_, liveBelow := ?_, window := H.window }
  · rw [List.map_append, H.queue]
    rfl
  · rw [hsources]
    refine List.pairwise_append.mpr ⟨H.sorted, List.pairwise_singleton _ _, ?_⟩
    intro y hy z hz
    rw [List.mem_singleton.mp hz]
    exact hfollows y hy
  · intro y hy
    rcases hcases y hy with hy | hy
    · have hold := H.below y hy
      unfold Below at hold ⊢
      split at hold
      · exact hold
      · exact Nat.le_trans hold hlast
      · exact hold
    · rw [hy]
      exact hbelow
  · intro i hi y hy
    rcases hcases y hy with hy | hy
    · exact H.next i (hsub hi) y hy
    · rw [hy]
      exact hnext i hi
  · refine List.pairwise_append.mpr ⟨H.apart, ?_, ?_⟩
    · exact (List.pairwise_singleton _ x).sublist List.filter_sublist
    · intro y hy z hz
      obtain ⟨hz, hl⟩ := List.mem_filter.mp hz
      rw [List.mem_singleton] at hz
      subst hz
      exact (hlive hl).2 y hy
  · intro y hy
    rcases hcasesLive y hy with hy | hy
    · exact Nat.le_trans (H.liveBelow y hy) hlast
    · rw [hy.1]
      exact (hlive hy.2).1

end Events

end RtpOscMidi.L5.SourceWindows
