import RtpOscMidi.L5Concurrency.Supervisor

/-!
# What a stop of the VST worker leaves behind

A session that ends and the task of a restart that failed look at the
generation, and write the status some steps later. A start or a stop that is
requested in between does not keep them from it.

* `stop_lasts`: where no request comes in between, a stop that has returned
  `Ok` lasts until the next start, and the end of an older session leaves the
  session, the route and the status as they are.
* `fault_after_stop`: a session that faults the worker after the stop.
-/
namespace RtpOscMidi.L5.Supervisor

open Core

/-- The session has found its generation current, and may still write. -/
def SessionPc.late : SessionPc → Bool
  | .unroute _ | .unlink _ | .judge _ | .fault _ | .restart => true
  | _ => false

/-- The start of the session waits for what it reports. -/
def SessionPc.starting : SessionPc → Bool
  | .connecting | .refused _ => true
  | _ => false

/-- No request comes between a look at the generation and the writes that
follow it. -/
def Undisturbed (s : St) (l : Label) : Prop :=
  l = .start ∨ l = .stop →
    (∀ t ∈ s.sessions, t.pc.late = false) ∧ ∀ c ∈ s.calls, c.pc.refaults = false

instance (s : St) (l : Label) : Decidable (Undisturbed s l) :=
  inferInstanceAs (Decidable (_ → _))

/-- The start waits for session `k` to report. -/
def Pc.starts (k : Nat) : Pc → Bool
  | .connected j | .cancel j _ => j = k
  | _ => false

/-- Where a stop can be. -/
def Pc.stops : Pc → Bool
  | .entering | .waiting | .returned _ | .done _ => true
  | .unroute next | .halt next | .take next | .join _ next | .settle _ next => next = .enter
  | _ => false

/-! ## Ages -/

/-- A user's start has asked for the generation. -/
def Asked (s : St) (generation : Nat) : Prop :=
  ∃ u ∈ s.calls, u.kind = .user ∧ u.generation = generation

structure Ages (s : St) : Prop where
  calls : ∀ c ∈ s.calls, c.generation ≤ s.lifecycleGeneration
  restarts : ∀ c ∈ s.calls, c.kind = .restart → Asked s c.generation
  sessions : ∀ t ∈ s.sessions, Asked s t.generation
  stops : ∀ c ∈ s.calls, c.kind = .stop → c.pc.stops = true

/-- What has looked at the generation has seen the current one. -/
structure Late (s : St) : Prop where
  sessions : ∀ t ∈ s.sessions, t.pc.late = true → t.generation = s.lifecycleGeneration
  calls : ∀ c ∈ s.calls, c.pc.refaults = true → c.generation = s.lifecycleGeneration

/-- A session that has yet to report has a start that waits for it. -/
def Attached (s : St) : Prop :=
  ∀ (k : Nat) (t : Session), s.sessions[k]? = some t → t.pc.starting = true → t.accepted = false ∧
    ∃ (i : Nat) (c : Call), s.calls[i]? = some c ∧ c.generation = t.generation ∧
      c.pc.starts k = true

/-! ## The table of the sessions -/

/-- What a step makes of a session, the generation being the current one. -/
structure Kept (generation : Nat) (w v : Session) : Prop where
  age : v.generation = w.generation
  late : v.pc.late = true → w.pc.late = true ∨ w.generation = generation
  starting : v.pc.starting = true → w.pc.starting = true ∧ v.accepted = w.accepted

def Table (generation : Nat) (old new : List Session) : Prop :=
  ∀ (k : Nat) (v : Session), new[k]? = some v →
    ∃ w : Session, old[k]? = some w ∧ Kept generation w v

theorem Kept.refl (generation : Nat) (t : Session) : Kept generation t t :=
  ⟨rfl, .inl, fun h => ⟨h, rfl⟩⟩

theorem Kept.ended (generation : Nat) (t : Session) : Kept generation t { t with pc := .ended } :=
  ⟨rfl, (fun h => by cases h), fun h => by cases h⟩

theorem Kept.trans {generation : Nat} {u v w : Session} (h : Kept generation u v)
    (h' : Kept generation v w) : Kept generation u w where
  age := h'.age.trans h.age
  late hlate := by
    cases h'.late hlate with
    | inl hv => exact h.late hv
    | inr hv => exact .inr (h.age ▸ hv)
  starting hstarting := by
    obtain ⟨hv, haccepted⟩ := h'.starting hstarting
    obtain ⟨hu, haccepted'⟩ := h.starting hv
    exact ⟨hu, haccepted.trans haccepted'⟩

theorem Table.refl (generation : Nat) (l : List Session) : Table generation l l :=
  fun _ v hv => ⟨v, hv, .refl generation v⟩

theorem Table.trans {generation : Nat} {l l' l'' : List Session} (h : Table generation l l')
    (h' : Table generation l' l'') : Table generation l l'' := by
  intro k w hw
  obtain ⟨v, hv, hvw⟩ := h' k w hw
  obtain ⟨u, hu, huv⟩ := h k v hv
  exact ⟨u, hu, huv.trans hvw⟩

theorem table_abort (generation : Nat) (l : List Session) (j : Nat) :
    Table generation l (l.modify j Session.abort) := by
  intro k v hv
  rw [List.getElem?_modify] at hv
  cases hw : l[k]? with
  | none => simp [hw] at hv
  | some w =>
    simp only [hw, Option.map_eq_map, Option.map_some, Option.some.injEq] at hv
    refine ⟨w, rfl, ?_⟩
    rw [← hv]
    unfold Session.abort
    split
    · split
      · exact .ended generation w
      · exact .refl generation w
    · exact .refl generation w

theorem table_set {generation : Nat} {l : List Session} {k : Nat} {t u : Session}
    (ht : l[k]? = some t) (h : Kept generation t u) : Table generation l (l.set k u) := by
  intro j v hv
  obtain ⟨hjk, hvu⟩ | ⟨_, hv⟩ := getElem?_set_cases hv
  · rw [hjk, hvu]
    exact ⟨t, ht, h⟩
  · exact ⟨v, hv, .refl generation v⟩

/-- A session goes on to where it is neither late nor starting, or to where it
was before. -/
theorem table_goto {s : St} {k : Nat} {t : Session} (ht : s.sessions[k]? = some t) (pc : SessionPc)
    (hlate : pc.late = true → t.pc.late = true ∨ t.generation = s.lifecycleGeneration)
    (hstarting : pc.starting = true → t.pc.starting = true) :
    Table s.lifecycleGeneration s.sessions (s.sessions.set k { t with pc }) :=
  table_set ht ⟨rfl, hlate, fun h => ⟨hstarting h, rfl⟩⟩

/-! ## One step of a session -/

structure SessionStep (s : St) (t : Session) (s' : St) : Prop where
  generation : s'.lifecycleGeneration = s.lifecycleGeneration
  calls : s'.calls = s.calls ∨ s'.calls = s.calls ++ [⟨.restart, t.generation, .waiting⟩]
  sessions : Table s.lifecycleGeneration s.sessions s'.sessions

theorem session_step {s s' : St} {k : Nat} {t : Session} {outcome : Outcome}
    (ht : s.sessions[k]? = some t) (hst : sessionStep s k t outcome = some s') :
    SessionStep s t s' := by
  have hgoto := table_goto ht
  obtain ⟨generation, pc, accepted⟩ := t
  cases pc with
  | connecting =>
    cases outcome with
    | ok =>
      cases hst
      refine ⟨rfl, .inl rfl, table_set ht ⟨rfl, ?_, ?_⟩⟩
      · intro h
        cases h
      · intro h
        cases h
    | fail error =>
      cases hst
      exact ⟨rfl, .inl rfl, hgoto _ (fun h => by cases h) fun _ => rfl⟩
    | halt => cases hst
  | refused | fault =>
    cases hst
    exact ⟨rfl, .inl rfl, hgoto _ (fun h => by cases h) fun h => by cases h⟩
  | running =>
    cases outcome with
    | fail error =>
      cases hst
      exact ⟨rfl, .inl rfl, hgoto _ (fun h => by cases h) fun h => by cases h⟩
    | ok | halt => cases hst
  | ending | schedule =>
    simp only [sessionStep] at hst
    split at hst
    · rename_i hcurrent
      cases hst
      exact ⟨rfl, .inl rfl, hgoto _ (fun _ => .inr hcurrent) fun h => by cases h⟩
    · cases hst
      exact ⟨rfl, .inl rfl, hgoto _ (fun h => by cases h) fun h => by cases h⟩
  | judge =>
    simp only [sessionStep] at hst
    split at hst
    · cases hst
      exact ⟨rfl, .inl rfl, hgoto _ (fun h => by cases h) fun h => by cases h⟩
    · cases hst
      exact ⟨rfl, .inl rfl, hgoto _ (fun _ => .inl rfl) fun h => by cases h⟩
  | unroute error =>
    cases hst
    exact ⟨rfl, .inl rfl, hgoto _ (fun _ => .inl rfl) fun h => by cases h⟩
  | unlink error =>
    cases hst
    have hjudge := hgoto (.judge error) (fun _ => .inl rfl) fun h => by cases h
    exact ⟨rfl, .inl rfl, hjudge.trans (table_abort _ _ _)⟩
  | restart =>
    cases outcome with
    | ok =>
      cases hst
      exact ⟨rfl, .inr rfl, hgoto _ (fun h => by cases h) fun h => by cases h⟩
    | fail error =>
      cases hst
      exact ⟨rfl, .inl rfl, hgoto _ (fun h => by cases h) fun h => by cases h⟩
    | halt => cases hst
  | ended => cases hst

/-! ## One step of a call -/

structure CallStep (s : St) (i : Nat) (c : Call) (s' : St) (pc : Pc) : Prop where
  calls : s'.calls = s.calls.set i { c with pc }
  generation : s'.lifecycleGeneration = s.lifecycleGeneration
  sessions : Table s.lifecycleGeneration s.sessions s'.sessions ∨
    c.pc = .spawnWorker ∧ pc = .connected s.sessions.length ∧
      s'.sessions = s.sessions ++ [⟨c.generation, .connecting, false⟩]
  stops : c.kind = .stop → c.pc.stops = true → pc.stops = true
  refaults : pc.refaults = true → c.generation = s.lifecycleGeneration
  starts : ∀ k, c.pc.starts k = true → pc.starts k = true ∨ s.accepted k = true ∨ s.ended k = true

theorem after_cases (c : Call) (result : Except String Unit) :
    (∃ error, c.kind = .restart ∧ c.after result = .failed error) ∨ c.after result = .done result := by
  unfold Call.after
  split
  · rename_i hkind
    exact .inl ⟨_, hkind, rfl⟩
  · exact .inr rfl

theorem after_stops (c : Call) (result : Except String Unit) (h : c.kind = .stop) :
    (c.after result).stops = true := by
  obtain ⟨_, hkind, _⟩ | hdone := after_cases c result
  · rw [h] at hkind
    cases hkind
  · rw [hdone]
    rfl

theorem after_refaults (c : Call) (result : Except String Unit) :
    (c.after result).refaults = false := by
  obtain ⟨_, _, hfailed⟩ | hdone := after_cases c result
  · rw [hfailed]
    rfl
  · rw [hdone]
    rfl

theorem call_step {s s' : St} {i : Nat} {c : Call} {outcome : Outcome} (hi : s.calls[i]? = some c)
    (hst : callStep s i c outcome = some s') : ∃ pc, CallStep s i c s' pc := by
  obtain ⟨kind, generation, pc⟩ := c
  cases pc with
  | entering | publish | storeSession | storeRoute | load | ready | fault | refault =>
    cases hst
    exact ⟨_, rfl, rfl, .inl (.refl _ _), by simp [Pc.stops], by simp [Pc.refaults],
      by simp [Pc.starts]⟩
  | unroute | halt =>
    cases hst
    exact ⟨_, rfl, rfl, .inl (.refl _ _), fun _ h => h, by simp [Pc.refaults], by simp [Pc.starts]⟩
  | waiting =>
    simp only [callStep] at hst
    split at hst
    · cases hst
      refine ⟨_, rfl, rfl, .inl (.refl _ _), ?_, ?_, by simp [Pc.starts]⟩
      · intro hkind _
        rw [show kind = .stop from hkind, if_pos rfl]
        rfl
      · split <;> simp [Pc.refaults]
    · cases hst
  | checking =>
    simp only [callStep] at hst
    split at hst
    · cases hst
      exact ⟨_, rfl, rfl, .inl (.refl _ _), by simp [Pc.stops], by simp [Pc.refaults],
        by simp [Pc.starts]⟩
    · cases hst
      refine ⟨_, rfl, rfl, .inl (.refl _ _), by simp [Pc.stops], ?_, by simp [Pc.starts]⟩
      simp [after_refaults]
  | take next =>
    cases hst
    refine ⟨_, rfl, rfl, .inl (.refl _ _), ?_, ?_, by simp [Pc.starts]⟩
    · intro _ h
      split
      · exact h
      · exact h
    · split <;> simp [Pc.refaults]
  | join k next =>
    simp only [callStep] at hst
    split at hst
    · cases hst
      exact ⟨_, (set_of_getElem? hi).symm, rfl, .inl (table_abort _ _ k), fun _ h => h,
        by simp [Pc.refaults], by simp [Pc.starts]⟩
    · split at hst
      · cases hst
        exact ⟨_, rfl, rfl, .inl (.refl _ _), fun _ h => h, by simp [Pc.refaults], by simp [Pc.starts]⟩
      · cases hst
    · split at hst
      · cases hst
        exact ⟨_, rfl, rfl, .inl (.refl _ _), fun _ h => h, by simp [Pc.refaults], by simp [Pc.starts]⟩
      · cases hst
  | settle result next =>
    cases hst
    refine ⟨_, rfl, rfl, .inl (.refl _ _), ?_, ?_, by simp [Pc.starts]⟩
    · intro hkind h
      cases next with
      | enter =>
        rw [show kind = .stop from hkind]
        rfl
      | fail error => cases h
    · cases next with
      | enter =>
        simp only
        split <;> simp [Pc.refaults]
      | fail error => simp [Pc.refaults]
  | controlPipe | midiRuntime | midiPipe =>
    cases outcome with
    | ok | fail _ =>
      cases hst
      exact ⟨_, rfl, rfl, .inl (.refl _ _), by simp [Pc.stops], by simp [Pc.refaults],
        by simp [Pc.starts]⟩
    | halt => cases hst
  | spawnWorker =>
    cases outcome with
    | ok =>
      cases hst
      exact ⟨_, rfl, rfl, .inr ⟨rfl, rfl, rfl⟩, by simp [Pc.stops], by simp [Pc.refaults],
        by simp [Pc.starts]⟩
    | fail error =>
      cases hst
      exact ⟨_, rfl, rfl, .inl (.refl _ _), by simp [Pc.stops], by simp [Pc.refaults],
        by simp [Pc.starts]⟩
    | halt => cases hst
  | connected k =>
    cases outcome with
    | ok =>
      simp only [callStep] at hst
      split at hst
      · rename_i haccepted
        cases hst
        refine ⟨_, rfl, rfl, .inl (.refl _ _), by simp [Pc.stops], by simp [Pc.refaults], ?_⟩
        intro j hj
        rw [← show k = j from of_decide_eq_true hj]
        exact .inr (.inl haccepted)
      · cases hst
    | fail error =>
      cases hst
      exact ⟨_, rfl, rfl, .inl (table_abort _ _ k), by simp [Pc.stops], by simp [Pc.refaults],
        fun _ h => .inl h⟩
    | halt => cases hst
  | cancel k error =>
    simp only [callStep] at hst
    split at hst
    · rename_i hended
      cases hst
      refine ⟨_, rfl, rfl, .inl (.refl _ _), by simp [Pc.stops], by simp [Pc.refaults], ?_⟩
      intro j hj
      rw [← show k = j from of_decide_eq_true hj]
      exact .inr (.inr hended)
    · cases hst
  | request =>
    simp only [callStep] at hst
    split at hst
    · cases hst
      exact ⟨_, rfl, rfl, .inl (.refl _ _), by simp [Pc.stops], by simp [Pc.refaults],
        by simp [Pc.starts]⟩
    · split at hst
      · cases hst
        exact ⟨_, rfl, rfl, .inl (.refl _ _), by simp [Pc.stops], by simp [Pc.refaults],
          by simp [Pc.starts]⟩
      · cases hst
        exact ⟨_, rfl, rfl, .inl (.refl _ _), by simp [Pc.stops], by simp [Pc.refaults],
          by simp [Pc.starts]⟩
  | reply generation =>
    cases outcome with
    | ok =>
      simp only [callStep] at hst
      split at hst
      · cases hst
        exact ⟨_, rfl, rfl, .inl (.refl _ _), by simp [Pc.stops], by simp [Pc.refaults],
          by simp [Pc.starts]⟩
      · cases hst
        exact ⟨_, rfl, rfl, .inl (.refl _ _), by simp [Pc.stops], by simp [Pc.refaults],
          by simp [Pc.starts]⟩
    | fail error =>
      cases hst
      exact ⟨_, rfl, rfl, .inl (.refl _ _), by simp [Pc.stops], by simp [Pc.refaults],
        by simp [Pc.starts]⟩
    | halt => cases hst
  | returned result =>
    cases hst
    refine ⟨_, rfl, rfl, .inl (.refl _ _), fun hkind _ => after_stops _ _ hkind, ?_, by simp [Pc.starts]⟩
    simp [after_refaults]
  | failed error =>
    simp only [callStep] at hst
    split at hst
    · rename_i hcurrent
      cases hst
      exact ⟨_, rfl, rfl, .inl (.refl _ _), by simp [Pc.stops], fun _ => hcurrent, by simp [Pc.starts]⟩
    · cases hst
      exact ⟨_, rfl, rfl, .inl (.refl _ _), by simp [Pc.stops], by simp [Pc.refaults],
        by simp [Pc.starts]⟩
  | done result => cases hst

/-! ## The ages in a run -/

theorem asked_set {s s' : St} {i : Nat} {c : Call} {pc : Pc} (hi : s.calls[i]? = some c)
    (hcalls : s'.calls = s.calls.set i { c with pc }) {generation : Nat} (h : Asked s generation) :
    Asked s' generation := by
  obtain ⟨u, hu, hkind, hgeneration⟩ := h
  obtain ⟨j, hj⟩ := List.mem_iff_getElem?.mp hu
  by_cases hji : j = i
  · rw [hji, hi] at hj
    cases hj
    refine ⟨{ c with pc }, ?_, hkind, hgeneration⟩
    rw [hcalls]
    exact List.mem_of_getElem? (List.getElem?_set_self (lt_of_getElem?_eq_some hi))
  · refine ⟨u, ?_, hkind, hgeneration⟩
    rw [hcalls]
    refine @List.mem_of_getElem? _ _ j _ ?_
    rw [List.getElem?_set_ne fun e => hji e.symm]
    exact hj

theorem asked_append {s s' : St} {cs : List Call} (hcalls : s'.calls = s.calls ++ cs)
    {generation : Nat} (h : Asked s generation) : Asked s' generation := by
  obtain ⟨u, hu, hu'⟩ := h
  exact ⟨u, hcalls ▸ List.mem_append_left _ hu, hu'⟩

/-- A call that began, or that a session began. -/
theorem ages_concat {s s' : St} (A : Ages s) {cs : List Call} (hcalls : s'.calls = s.calls ++ cs)
    (hle : s.lifecycleGeneration ≤ s'.lifecycleGeneration)
    (hnew : ∀ c ∈ cs, c.generation ≤ s'.lifecycleGeneration ∧
      (c.kind = .restart → Asked s c.generation) ∧ (c.kind = .stop → c.pc.stops = true))
    (hsessions : Table s.lifecycleGeneration s.sessions s'.sessions) : Ages s' where
  calls c hc := by
    rw [hcalls] at hc
    cases List.mem_append.mp hc with
    | inl hc => exact Nat.le_trans (A.calls c hc) hle
    | inr hc => exact (hnew c hc).1
  restarts c hc hkind := by
    rw [hcalls] at hc
    cases List.mem_append.mp hc with
    | inl hc => exact asked_append hcalls (A.restarts c hc hkind)
    | inr hc => exact asked_append hcalls ((hnew c hc).2.1 hkind)
  sessions t ht := by
    obtain ⟨k, hk⟩ := List.mem_iff_getElem?.mp ht
    obtain ⟨w, hw, hkept⟩ := hsessions k t hk
    rw [hkept.age]
    exact asked_append hcalls (A.sessions w (List.mem_of_getElem? hw))
  stops c hc hkind := by
    rw [hcalls] at hc
    cases List.mem_append.mp hc with
    | inl hc => exact A.stops c hc hkind
    | inr hc => exact (hnew c hc).2.2 hkind

theorem Ages.asked {s : St} (A : Ages s) {c : Call} (hc : c ∈ s.calls) (hkind : c.kind ≠ .stop) :
    Asked s c.generation := by
  cases h : c.kind with
  | user => exact ⟨c, hc, h, rfl⟩
  | restart => exact A.restarts c hc h
  | stop => exact absurd h hkind

theorem ages_call {s s' : St} (A : Ages s) {i : Nat} {c : Call} {pc : Pc}
    (hi : s.calls[i]? = some c) (h : CallStep s i c s' pc) : Ages s' := by
  have hmem := List.mem_of_getElem? hi
  have hcall : ∀ d ∈ s'.calls, d ∈ s.calls ∨ d = { c with pc } := by
    intro d hd
    rw [h.calls] at hd
    exact mem_of_set hd
  refine ⟨?_, ?_, ?_, ?_⟩
  · intro d hd
    rw [h.generation]
    cases hcall d hd with
    | inl hd => exact A.calls d hd
    | inr e => exact e ▸ A.calls c hmem
  · intro d hd hkind
    refine asked_set hi h.calls ?_
    cases hcall d hd with
    | inl hd => exact A.restarts d hd hkind
    | inr e =>
      rw [e] at hkind ⊢
      exact A.restarts c hmem hkind
  · intro t ht
    refine asked_set hi h.calls ?_
    obtain ⟨k, hk⟩ := List.mem_iff_getElem?.mp ht
    cases h.sessions with
    | inl htable =>
      obtain ⟨w, hw, hkept⟩ := htable k t hk
      exact hkept.age ▸ A.sessions w (List.mem_of_getElem? hw)
    | inr hspawn =>
      obtain ⟨hc, _, hsessions⟩ := hspawn
      rw [hsessions] at hk
      obtain ⟨_, e⟩ | hk := getElem?_concat_cases hk
      · rw [e]
        refine A.asked hmem fun hkind => ?_
        have hstops := A.stops c hmem hkind
        rw [hc] at hstops
        cases hstops
      · exact A.sessions t (List.mem_of_getElem? hk)
  · intro d hd hkind
    cases hcall d hd with
    | inl hd => exact A.stops d hd hkind
    | inr e =>
      rw [e] at hkind ⊢
      exact h.stops hkind (A.stops c hmem hkind)

theorem late_sessions {s s' : St} (L : Late s) (hsame : s'.lifecycleGeneration = s.lifecycleGeneration)
    (hsessions : Table s.lifecycleGeneration s.sessions s'.sessions) :
    ∀ t ∈ s'.sessions, t.pc.late = true → t.generation = s'.lifecycleGeneration := by
  intro t ht hlate
  obtain ⟨k, hk⟩ := List.mem_iff_getElem?.mp ht
  obtain ⟨w, hw, hkept⟩ := hsessions k t hk
  rw [hkept.age, hsame]
  cases hkept.late hlate with
  | inl hw' => exact L.sessions w (List.mem_of_getElem? hw) hw'
  | inr hw' => exact hw'

theorem late_call {s s' : St} (L : Late s) {i : Nat} {c : Call} {pc : Pc}
    (h : CallStep s i c s' pc) : Late s' := by
  refine ⟨?_, ?_⟩
  · cases h.sessions with
    | inl htable => exact late_sessions L h.generation htable
    | inr hspawn =>
      intro t ht hlate
      rw [hspawn.2.2] at ht
      cases List.mem_append.mp ht with
      | inl ht => exact h.generation ▸ L.sessions t ht hlate
      | inr ht =>
        rw [List.mem_singleton.mp ht] at hlate
        cases hlate
  · intro d hd hrefaults
    rw [h.generation]
    rw [h.calls] at hd
    cases mem_of_set hd with
    | inl hd => exact L.calls d hd hrefaults
    | inr e =>
      rw [e] at hrefaults ⊢
      exact h.refaults hrefaults

theorem attached_sessions {s s' : St} (T : Attached s)
    (hcalls : ∀ (i : Nat) (c : Call) k, s.calls[i]? = some c → c.pc.starts k = true →
      (∃ d : Call, s'.calls[i]? = some d ∧ d.generation = c.generation ∧ d.pc.starts k = true) ∨
        s.accepted k = true ∨ s.ended k = true)
    (hsessions : Table s.lifecycleGeneration s.sessions s'.sessions) : Attached s' := by
  intro k t ht hstarting
  obtain ⟨w, hw, hkept⟩ := hsessions k t ht
  obtain ⟨hw', haccepted⟩ := hkept.starting hstarting
  obtain ⟨hnot, i, c, hi, hgeneration, hstarts⟩ := T k w hw hw'
  refine ⟨haccepted.trans hnot, ?_⟩
  obtain ⟨d, hd, hdc, hd'⟩ | haccept | hended := hcalls i c k hi hstarts
  · exact ⟨i, d, hd, (hdc.trans hgeneration).trans hkept.age.symm, hd'⟩
  · -- The session has been accepted, or is over.
    simp [St.accepted, hw, hnot] at haccept
  · simp only [St.ended, hw, Option.all_some, decide_eq_true_eq] at hended
    rw [hended] at hw'
    cases hw'

theorem attached_append {s s' : St} (T : Attached s) {cs : List Call}
    (hcalls : s'.calls = s.calls ++ cs)
    (hsessions : Table s.lifecycleGeneration s.sessions s'.sessions) : Attached s' := by
  refine attached_sessions T ?_ hsessions
  intro i c k hi hstarts
  refine .inl ⟨c, ?_, rfl, hstarts⟩
  rw [hcalls, List.getElem?_append_left (lt_of_getElem?_eq_some hi)]
  exact hi

theorem attached_call {s s' : St} (T : Attached s) {i : Nat} {c : Call} {pc : Pc}
    (hi : s.calls[i]? = some c) (h : CallStep s i c s' pc) : Attached s' := by
  have hself : s'.calls[i]? = some { c with pc } := by
    rw [h.calls]
    exact List.getElem?_set_self (lt_of_getElem?_eq_some hi)
  have hcalls : ∀ (j : Nat) (d : Call) k, s.calls[j]? = some d → d.pc.starts k = true →
      (∃ e : Call, s'.calls[j]? = some e ∧ e.generation = d.generation ∧ e.pc.starts k = true) ∨
        s.accepted k = true ∨ s.ended k = true := by
    intro j d k hj hstarts
    by_cases hji : j = i
    · rw [hji, hi] at hj
      cases hj
      rw [hji]
      cases h.starts k hstarts with
      | inl hpc => exact .inl ⟨_, hself, rfl, hpc⟩
      | inr hover => exact .inr hover
    · refine .inl ⟨d, ?_, rfl, hstarts⟩
      rw [h.calls, List.getElem?_set_ne fun e => hji e.symm]
      exact hj
  cases h.sessions with
  | inl htable => exact attached_sessions T hcalls htable
  | inr hspawn =>
    obtain ⟨_, hpc, hsessions⟩ := hspawn
    intro k t ht hstarting
    rw [hsessions] at ht
    obtain ⟨hk, e⟩ | ht := getElem?_concat_cases ht
    · rw [e]
      exact ⟨rfl, i, _, hself, rfl, by rw [hpc]; exact decide_eq_true hk.symm⟩
    · obtain ⟨hnot, j, d, hj, hgeneration, hstarts⟩ := T k t ht hstarting
      refine ⟨hnot, ?_⟩
      obtain ⟨e, he, hed, he'⟩ | haccept | hended := hcalls j d k hj hstarts
      · exact ⟨j, e, he, hed.trans hgeneration, he'⟩
      · simp [St.accepted, ht, hnot] at haccept
      · simp only [St.ended, ht, Option.all_some, decide_eq_true_eq] at hended
        rw [hended] at hstarting
        cases hstarting

/-- What holds in every run. -/
structure Order (s : St) : Prop where
  ages : Ages s
  attached : Attached s

theorem order_step {s s' : St} {l : Label} (O : Order s) (hst : step s l = some s') : Order s' := by
  cases l with
  | start | stop =>
    cases hst
    refine ⟨ages_concat O.ages rfl (Nat.le_succ _) ?_ (.refl _ _),
      attached_append O.attached rfl (.refl _ _)⟩
    intro c hc
    rw [List.mem_singleton.mp hc]
    exact ⟨Nat.le_refl _, by simp, by simp [Pc.stops]⟩
  | call i outcome =>
    obtain ⟨c, hi, hst⟩ := Option.bind_eq_some_iff.mp hst
    obtain ⟨pc, h⟩ := call_step hi hst
    exact ⟨ages_call O.ages hi h, attached_call O.attached hi h⟩
  | session k outcome =>
    obtain ⟨t, ht, hst⟩ := Option.bind_eq_some_iff.mp hst
    have h := session_step ht hst
    obtain ⟨u, hu, hkind, hgeneration⟩ := O.ages.sessions t (List.mem_of_getElem? ht)
    cases h.calls with
    | inl hcalls =>
      have hcalls : s'.calls = s.calls ++ [] := by rw [hcalls, List.append_nil]
      exact ⟨ages_concat O.ages hcalls (Nat.le_of_eq h.generation.symm) (by simp) h.sessions,
        attached_append O.attached hcalls h.sessions⟩
    | inr hcalls =>
      refine ⟨ages_concat O.ages hcalls (Nat.le_of_eq h.generation.symm) ?_ h.sessions,
        attached_append O.attached hcalls h.sessions⟩
      intro c hc
      rw [List.mem_singleton.mp hc, h.generation]
      refine ⟨?_, fun _ => ⟨u, hu, hkind, hgeneration⟩, by simp⟩
      exact hgeneration ▸ O.ages.calls u hu

theorem order_inductive : system.Inductive Order where
  init s hs := by
    rw [show s = new from hs]
    exact ⟨⟨by simp [new], by simp [new], by simp [new], by simp [new]⟩, by simp [Attached, new]⟩
  step _ _ _ O hst := order_step O hst

theorem late_step {s s' : St} {l : Label} (L : Late s) (hok : Undisturbed s l)
    (hst : step s l = some s') : Late s' := by
  cases l with
  | start | stop =>
    cases hst
    obtain ⟨hsessions, hcalls⟩ := hok (by simp)
    refine ⟨?_, ?_⟩
    · intro t ht hlate
      rw [hsessions t ht] at hlate
      cases hlate
    · intro c hc hrefaults
      cases List.mem_append.mp hc with
      | inl hc =>
        rw [hcalls c hc] at hrefaults
        cases hrefaults
      | inr hc =>
        rw [List.mem_singleton.mp hc] at hrefaults
        cases hrefaults
  | call i outcome =>
    obtain ⟨c, hi, hst⟩ := Option.bind_eq_some_iff.mp hst
    obtain ⟨pc, h⟩ := call_step hi hst
    exact late_call L h
  | session k outcome =>
    obtain ⟨t, ht, hst⟩ := Option.bind_eq_some_iff.mp hst
    have h := session_step ht hst
    refine ⟨late_sessions L h.generation h.sessions, ?_⟩
    intro c hc hrefaults
    rw [h.generation]
    cases h.calls with
    | inl hcalls => exact L.calls c (hcalls ▸ hc) hrefaults
    | inr hcalls =>
      rw [hcalls] at hc
      cases List.mem_append.mp hc with
      | inl hc => exact L.calls c hc hrefaults
      | inr hc =>
        rw [List.mem_singleton.mp hc] at hrefaults
        cases hrefaults

theorem late_inductive : (system.restrict Undisturbed).Inductive Late where
  init s hs := by
    rw [show s = new from hs]
    exact ⟨by simp [new], by simp [new]⟩
  step _ _ _ L hst := late_step L hst.1 hst.2

/-! ## After a stop -/

/-- No user's start came after the stop. -/
def Last (s : St) (c : Call) : Prop :=
  c.kind = .stop ∧ ∀ u ∈ s.calls, u.kind = .user → u.generation < c.generation

/-- What a stop leaves behind; only a stop is at work. -/
structure Down (s : St) : Prop where
  session : s.session = none
  midiRoute : s.midiRoute = none
  state : (∀ d ∈ s.calls, d.kind = .stop → d.pc.holds = false) → s.state = .disabled
  starts : ∀ d ∈ s.calls, d.kind ≠ .stop → d.pc.holds = true → d.pc = .checking
  stops : ∀ d ∈ s.calls, d.kind = .stop → ∀ next,
    (∀ k, d.pc ≠ .join k next) ∧ ∀ error, d.pc ≠ .settle (.error error) next
  returned : ∀ d ∈ s.calls, d.kind = .stop → ∀ result, d.pc = .returned result →
    result = .ok () ∧ s.state = .disabled

/-- A stop is about to return, or has. -/
def Lasts (s : St) : Prop :=
  ∀ c ∈ s.calls, Last s c →
    (c.pc = .returned (.ok ()) → s.state = .disabled ∧ s.session = none ∧ s.midiRoute = none) ∧
      (c.pc = .done (.ok ()) → Down s)

/-- The starts before the stop are older than what it has asked for. -/
theorem Last.older {s : St} {c : Call} (h : Last s c) (hc : c ∈ s.calls) (A : Ages s)
    {generation : Nat} (hasked : Asked s generation) : generation < s.lifecycleGeneration := by
  obtain ⟨u, hu, hkind, hgeneration⟩ := hasked
  exact hgeneration ▸ Nat.lt_of_lt_of_le (h.2 u hu hkind) (A.calls c hc)

/-- A session that is neither late nor starting writes nothing that it shares. -/
theorem session_idle {s s' : St} {k : Nat} {t : Session} {outcome : Outcome}
    (hlate : t.pc.late = false) (hstarting : t.pc.starting = false)
    (hst : sessionStep s k t outcome = some s') :
    s'.calls = s.calls ∧ s'.session = s.session ∧ s'.midiRoute = s.midiRoute ∧ SameStatus s s' := by
  obtain ⟨generation, pc, accepted⟩ := t
  cases pc with
  | running =>
    cases outcome with
    | fail error =>
      cases hst
      exact ⟨rfl, rfl, rfl, rfl, rfl⟩
    | ok | halt => cases hst
  | ending | schedule =>
    simp only [sessionStep] at hst
    split at hst
    · cases hst
      exact ⟨rfl, rfl, rfl, rfl, rfl⟩
    · cases hst
      exact ⟨rfl, rfl, rfl, rfl, rfl⟩
  | connecting | refused => cases hstarting
  | ended => cases hst
  | _ => cases hlate

/-- A session of a start before the stop has nothing more to write. -/
theorem session_quiet {s s' : St} (O : Order s) (L : Late s) {c : Call} (h : Last s c)
    (hc : c ∈ s.calls) (hwaits : ∀ d ∈ s.calls, ∀ k, d.pc.starts k = false) {k : Nat} {t : Session}
    {outcome : Outcome} (ht : s.sessions[k]? = some t) (hst : sessionStep s k t outcome = some s') :
    s'.calls = s.calls ∧ s'.session = s.session ∧ s'.midiRoute = s.midiRoute ∧ SameStatus s s' := by
  have hmem := List.mem_of_getElem? ht
  have hold := h.older hc O.ages (O.ages.sessions t hmem)
  refine session_idle ?_ ?_ hst
  · cases hl : t.pc.late with
    | true => exact absurd (L.sessions t hmem hl) (Nat.ne_of_lt hold)
    | false => rfl
  · cases hs : t.pc.starting with
    | true =>
      obtain ⟨_, i, d, hi, _, hd⟩ := O.attached k t ht hs
      rw [hwaits d (List.mem_of_getElem? hi) k] at hd
      cases hd
    | false => rfl

theorem holds_of_starts {pc : Pc} {k : Nat} (h : pc.starts k = true) :
    pc.holds = true ∧ pc.stops = false ∧ pc ≠ .checking := by
  cases pc with
  | connected | cancel => simp [Pc.holds, Pc.stops]
  | _ => cases h

theorem Down.waits {s : St} (D : Down s) (A : Ages s) :
    ∀ d ∈ s.calls, ∀ k, d.pc.starts k = false := by
  intro d hd k
  cases hstarts : d.pc.starts k with
  | false => rfl
  | true =>
    obtain ⟨hholds, hstops, hne⟩ := holds_of_starts hstarts
    cases hkind : d.kind with
    | stop =>
      have hyes := A.stops d hd hkind
      rw [hstops] at hyes
      cases hyes
    | user => exact absurd (D.starts d hd (by simp [hkind]) hholds) hne
    | restart => exact absurd (D.starts d hd (by simp [hkind]) hholds) hne

/-- A step that leaves the calls and what they share alone. -/
theorem Down.of_same {s s' : St} (D : Down s) (hcalls : s'.calls = s.calls)
    (hsession : s'.session = s.session) (hroute : s'.midiRoute = s.midiRoute)
    (hstate : s'.state = s.state) : Down s' where
  session := hsession.trans D.session
  midiRoute := hroute.trans D.midiRoute
  state := by
    rw [hcalls, hstate]
    exact D.state
  starts := by
    rw [hcalls]
    exact D.starts
  stops := by
    rw [hcalls]
    exact D.stops
  returned := by
    rw [hcalls, hstate]
    exact D.returned

/-- A call other than a stop goes on, no further than to look at the
generation. -/
theorem Down.other {s s' : St} (D : Down s) {i : Nat} {c : Call} {pc : Pc}
    (hi : s.calls[i]? = some c) (hkind : c.kind ≠ .stop)
    (hcalls : s'.calls = s.calls.set i { c with pc }) (hsession : s'.session = none)
    (hroute : s'.midiRoute = none) (hstate : s'.state = s.state)
    (hpc : pc.holds = true → pc = .checking) : Down s' where
  session := hsession
  midiRoute := hroute
  state hnone := by
    rw [hstate]
    refine D.state fun d hd hstop => hnone d ?_ hstop
    rw [hcalls]
    obtain ⟨j, hj⟩ := List.mem_iff_getElem?.mp hd
    refine @List.mem_of_getElem? _ _ j _ ?_
    rw [List.getElem?_set_ne, hj]
    intro hij
    rw [← hij, hi] at hj
    cases hj
    exact hkind hstop
  starts d hd hstop hholds := by
    rw [hcalls] at hd
    cases mem_of_set hd with
    | inl hd => exact D.starts d hd hstop hholds
    | inr e =>
      rw [e] at hholds ⊢
      exact hpc hholds
  stops d hd hstop := by
    rw [hcalls] at hd
    cases mem_of_set hd with
    | inl hd => exact D.stops d hd hstop
    | inr e =>
      rw [e] at hstop
      exact absurd hstop hkind
  returned d hd hstop := by
    rw [hcalls] at hd
    rw [hstate]
    cases mem_of_set hd with
    | inl hd => exact D.returned d hd hstop
    | inr e =>
      rw [e] at hstop
      exact absurd hstop hkind

/-- A stop goes on. It writes the status only while it alone has the lock. -/
theorem Down.stop {s s' : St} (D : Down s) {i : Nat} {c : Call} {pc : Pc}
    (hi : s.calls[i]? = some c) (hkind : c.kind = .stop)
    (hcalls : s'.calls = s.calls.set i { c with pc }) (hsession : s'.session = none)
    (hroute : s'.midiRoute = none)
    (hothers : s'.state = s.state ∨
      ∀ (j : Nat) (d : Call), s.calls[j]? = some d → j ≠ i → d.pc.holds = false)
    (hidle : pc.holds = false → (c.pc.holds = false ∧ s'.state = s.state) ∨ s'.state = .disabled)
    (hjoin : ∀ next, (∀ k, pc ≠ .join k next) ∧ ∀ error, pc ≠ .settle (.error error) next)
    (hreturned : ∀ result, pc = .returned result → result = .ok () ∧ s'.state = .disabled) :
    Down s' where
  session := hsession
  midiRoute := hroute
  state hnone := by
    have hself : ({ c with pc } : Call) ∈ s'.calls := by
      rw [hcalls]
      exact List.mem_of_getElem? (List.getElem?_set_self (lt_of_getElem?_eq_some hi))
    cases hidle (hnone _ hself hkind) with
    | inr hdisabled => exact hdisabled
    | inl hsame =>
      rw [hsame.2]
      refine D.state fun d hd hstop => ?_
      obtain ⟨j, hj⟩ := List.mem_iff_getElem?.mp hd
      by_cases hji : j = i
      · rw [hji, hi] at hj
        cases hj
        exact hsame.1
      · refine hnone d ?_ hstop
        rw [hcalls]
        refine @List.mem_of_getElem? _ _ j _ ?_
        rw [List.getElem?_set_ne fun e => hji e.symm]
        exact hj
  starts d hd hstop hholds := by
    rw [hcalls] at hd
    cases mem_of_set hd with
    | inl hd => exact D.starts d hd hstop hholds
    | inr e => exact absurd (e ▸ hkind) hstop
  stops d hd hstop := by
    rw [hcalls] at hd
    cases mem_of_set hd with
    | inl hd => exact D.stops d hd hstop
    | inr e => exact e ▸ hjoin
  returned d hd hstop result hresult := by
    obtain ⟨j, hj⟩ := List.mem_iff_getElem?.mp hd
    rw [hcalls] at hj
    obtain ⟨_, e⟩ | ⟨hne, hj⟩ := getElem?_set_cases hj
    · rw [e] at hresult
      exact hreturned result hresult
    · cases hothers with
      | inl hsame => exact hsame ▸ D.returned d (List.mem_of_getElem? hj) hstop result hresult
      | inr hnone =>
        have hidle := hnone j d hj hne
        rw [hresult] at hidle
        cases hidle

theorem down_call_other {s s' : St} (D : Down s) (L : Late s) (A : Ages s) {c₀ : Call}
    (hlast : Last s c₀) (hc₀ : c₀ ∈ s.calls) {i : Nat} {c : Call} {outcome : Outcome}
    (hi : s.calls[i]? = some c) (hkind : c.kind ≠ .stop)
    (hst : callStep s i c outcome = some s') : Down s' := by
  have hmem := List.mem_of_getElem? hi
  have hold := hlast.older hc₀ A (A.asked hmem hkind)
  have hstarts := D.starts c hmem hkind
  have hrefaults := L.calls c hmem
  obtain ⟨kind, generation, pc⟩ := c
  cases pc with
  | entering =>
    cases hst
    exact D.other hi hkind rfl D.session rfl rfl fun h => by cases h
  | waiting =>
    simp only [callStep] at hst
    split at hst
    · cases hst
      exact D.other hi hkind rfl D.session D.midiRoute rfl fun _ => rfl
    · cases hst
  | checking =>
    simp only [callStep] at hst
    split at hst
    · rename_i hcurrent
      exact absurd hcurrent (Nat.ne_of_lt hold)
    · cases hst
      refine D.other hi hkind rfl D.session D.midiRoute rfl fun h => ?_
      rw [after_holds] at h
      cases h
  | failed error =>
    simp only [callStep] at hst
    split at hst
    · rename_i hcurrent
      exact absurd hcurrent (Nat.ne_of_lt hold)
    · cases hst
      exact D.other hi hkind rfl D.session D.midiRoute rfl fun h => by cases h
  | refault error => exact absurd (hrefaults rfl) (Nat.ne_of_lt hold)
  | done result => cases hst
  | _ => cases hstarts rfl

theorem down_call_stop {s s' : St} (D : Down s) (I : Inv s) (A : Ages s) {i : Nat} {c : Call}
    {outcome : Outcome} (hi : s.calls[i]? = some c) (hkind : c.kind = .stop)
    (hst : callStep s i c outcome = some s') : Down s' := by
  have hmem := List.mem_of_getElem? hi
  have hstops := A.stops c hmem hkind
  have hjoin := D.stops c hmem hkind
  have hreturned := D.returned c hmem hkind
  have hlock := (I i c hi).lifecycle
  have halone : c.pc.holds = true → ∀ (j : Nat) (d : Call), s.calls[j]? = some d → j ≠ i →
      d.pc.holds = false := fun h j d hj hne => I.idle (hlock h) hj hne
  obtain ⟨kind, generation, pc⟩ := c
  cases pc with
  | entering =>
    cases hst
    exact D.stop hi hkind rfl D.session rfl (.inl rfl) (fun _ => .inl ⟨rfl, rfl⟩) (by simp) (by simp)
  | waiting =>
    simp only [callStep] at hst
    split at hst
    · cases hst
      exact D.stop hi hkind rfl D.session D.midiRoute (.inl rfl) (fun h => by cases h) (by simp)
        (by simp)
    · cases hst
  | unroute next =>
    cases hst
    exact D.stop hi hkind rfl D.session rfl (.inl rfl) (fun h => by cases h) (by simp) (by simp)
  | halt next =>
    cases hst
    exact D.stop hi hkind rfl D.session D.midiRoute (.inr (halone rfl)) (fun h => by cases h)
      (by simp) (by simp)
  | take next =>
    have hnone := D.session
    simp only [callStep, hnone] at hst
    cases hst
    exact D.stop hi hkind rfl rfl D.midiRoute (.inl rfl) (fun h => by cases h) (by simp) (by simp)
  | join k next => exact absurd rfl ((hjoin next).1 k)
  | settle result next =>
    cases result with
    | error error => exact absurd rfl ((hjoin next).2 error)
    | ok =>
      cases next with
      | fail error => cases hstops
      | enter =>
        simp only [callStep, if_pos (show kind = .stop from hkind)] at hst
        cases hst
        refine D.stop hi hkind rfl D.session D.midiRoute (.inr (halone rfl)) (fun h => by cases h)
          (by simp) ?_
        intro result h
        cases h
        exact ⟨rfl, rfl⟩
  | returned result =>
    obtain ⟨_, hdisabled⟩ := hreturned result rfl
    cases hst
    have hafter : Call.after ⟨kind, generation, .returned result⟩ result = .done result := by
      rw [show kind = .stop from hkind]
      rfl
    rw [hafter]
    exact D.stop hi hkind rfl D.session D.midiRoute (.inl rfl) (fun _ => .inr hdisabled) (by simp)
      (by simp)
  | done result => cases hst
  | _ => cases hstops

theorem goto_get {s : St} {i : Nat} {c d : Call} {pc : Pc} (hd : (s.goto i c pc).calls[i]? = some d) :
    d.pc = pc := by
  obtain ⟨_, e⟩ | ⟨hne, _⟩ := getElem?_set_cases hd
  · rw [e]
  · exact absurd rfl hne

/-- How a stop comes to its end. -/
theorem stop_ends {s s' : St} {i : Nat} {c d : Call} {outcome : Outcome} (h : CallOk s i c)
    (hkind : c.kind = .stop) (hstops : c.pc.stops = true) (hst : callStep s i c outcome = some s')
    (hi : s.calls[i]? = some c) (hd : s'.calls[i]? = some d) :
    (d.pc = .returned (.ok ()) → s'.state = .disabled ∧ s'.session = none ∧ s'.midiRoute = none) ∧
      (d.pc = .done (.ok ()) → c.pc = .returned (.ok ()) ∧ s'.state = s.state ∧
        s'.session = s.session ∧ s'.midiRoute = s.midiRoute) := by
  obtain ⟨kind, generation, pc⟩ := c
  have hapart := h.detached
  cases pc with
  | entering | unroute | halt =>
    cases hst
    rw [goto_get hd]
    exact ⟨by simp, by simp⟩
  | waiting =>
    simp only [callStep] at hst
    split at hst
    · cases hst
      rw [goto_get hd]
      exact ⟨by simp, by simp⟩
    · cases hst
  | take next =>
    cases hst
    rw [goto_get hd]
    split
    · exact ⟨by simp, by simp⟩
    · exact ⟨by simp, by simp⟩
  | join k next =>
    simp only [callStep] at hst
    split at hst
    · cases hst
      have hdc : d.pc = .join k next := by
        rw [show s.calls[i]? = some d from hd] at hi
        rw [Option.some.inj hi]
      rw [hdc]
      exact ⟨by simp, by simp⟩
    · split at hst
      · cases hst
        rw [goto_get hd]
        exact ⟨by simp, by simp⟩
      · cases hst
    · split at hst
      · cases hst
        rw [goto_get hd]
        exact ⟨by simp, by simp⟩
      · cases hst
  | settle result next =>
    cases next with
    | fail error => cases hstops
    | enter =>
      simp only [callStep, if_pos (show kind = .stop from hkind)] at hst
      cases hst
      rw [goto_get hd]
      refine ⟨?_, by simp⟩
      intro e
      cases e
      exact ⟨rfl, hapart rfl⟩
  | returned result =>
    have hafter : Call.after ⟨kind, generation, .returned result⟩ result = .done result := by
      rw [show kind = .stop from hkind]
      rfl
    cases hst
    rw [goto_get hd, hafter]
    refine ⟨by simp, ?_⟩
    intro e
    cases e
    exact ⟨rfl, rfl, rfl, rfl⟩
  | done result => cases hst
  | _ => cases hstops

/-- The stop lets go of the lock. -/
theorem down_done {s s' : St} (I : Inv s) {i : Nat} {c : Call} {pc : Pc}
    (hlock : s.lifecycle = some i)
    (hcalls : s'.calls = s.calls.set i { c with pc }) (hpc : pc = .done (.ok ()))
    (hstate : s'.state = .disabled) (hsession : s'.session = none) (hroute : s'.midiRoute = none) :
    Down s' := by
  have hidle : ∀ d ∈ s'.calls, d.pc.holds = false := by
    intro d hd
    obtain ⟨j, hj⟩ := List.mem_iff_getElem?.mp hd
    rw [hcalls] at hj
    obtain ⟨_, e⟩ | ⟨hne, hj⟩ := getElem?_set_cases hj
    · rw [e, hpc]
      rfl
    · exact I.idle hlock hj hne
  refine ⟨hsession, hroute, fun _ => hstate, ?_, ?_, ?_⟩
  · intro d hd _ hholds
    rw [hidle d hd] at hholds
    cases hholds
  · intro d hd _ next
    refine ⟨?_, ?_⟩
    · intro k e
      have hd' := hidle d hd
      rw [e] at hd'
      cases hd'
    · intro error e
      have hd' := hidle d hd
      rw [e] at hd'
      cases hd'
  · intro d hd _ result e
    have hd' := hidle d hd
    rw [e] at hd'
    cases hd'

theorem last_of_set {s s' : St} {i : Nat} {c d : Call} {pc : Pc} (hi : s.calls[i]? = some c)
    (hcalls : s'.calls = s.calls.set i { c with pc }) (h : Last s' d) : Last s d := by
  refine ⟨h.1, fun u hu hkind => ?_⟩
  obtain ⟨v, hv, hv', hgeneration⟩ := asked_set hi hcalls ⟨u, hu, hkind, rfl⟩
  exact hgeneration ▸ h.2 v hv hv'

theorem lasts_call {s s' : St} (I : Inv s) (O : Order s) (L : Late s) (H : Lasts s) {i : Nat}
    {c : Call} {outcome : Outcome} (hi : s.calls[i]? = some c)
    (hst : callStep s i c outcome = some s') : Lasts s' := by
  obtain ⟨pc, h⟩ := call_step hi hst
  have hmem := List.mem_of_getElem? hi
  intro d hd hlast'
  obtain ⟨j, hj⟩ := List.mem_iff_getElem?.mp hd
  have hlast : Last s d := last_of_set hi h.calls hlast'
  have hget := hj
  rw [h.calls] at hj
  obtain ⟨hji, e⟩ | ⟨hne, hj⟩ := getElem?_set_cases hj
  · -- The stop itself has gone on.
    have hkind : c.kind = .stop := by
      have hdk := hlast.1
      rw [e] at hdk
      exact hdk
    rw [hji] at hget
    obtain ⟨hreturned, hdone⟩ := stop_ends (I i c hi) hkind (O.ages.stops c hmem hkind) hst hi hget
    refine ⟨hreturned, ?_⟩
    intro hpc
    obtain ⟨hc, hstate, hsession, hroute⟩ := hdone hpc
    have hlastc : Last s c := by
      rw [e] at hlast
      exact hlast
    obtain ⟨hdisabled, hnone, hcut⟩ := (H c hmem hlastc).1 hc
    have hlock := (I i c hi).lifecycle (by rw [hc]; rfl)
    rw [e] at hpc
    exact down_done I hlock h.calls hpc (hstate.trans hdisabled) (hsession.trans hnone)
      (hroute.trans hcut)
  · have hdmem := List.mem_of_getElem? hj
    obtain ⟨hreturned, hdone⟩ := H d hdmem hlast
    refine ⟨?_, ?_⟩
    · intro hpc
      obtain ⟨hdisabled, hnone, hcut⟩ := hreturned hpc
      have hlock := (I j d hj).lifecycle (by rw [hpc]; rfl)
      have hidle := I.idle hlock hi fun e => hne e.symm
      obtain ⟨hmild, hstatus⟩ := call_idle hidle hst
      have hm : Milder s s' := by
        cases hmild with
        | inl hfree =>
          rw [hlock] at hfree
          cases hfree
        | inr hm => exact hm
      have hsame : s'.state = s.state := by
        cases hstatus with
        | inl hsame => exact hsame.1
        | inr hrefault =>
          obtain ⟨error, hc⟩ := hrefault
          have hcurrent := L.calls c hmem (by rw [hc]; rfl)
          have hkind : c.kind ≠ .stop := by
            intro hkind
            have hstops := O.ages.stops c hmem hkind
            rw [hc] at hstops
            cases hstops
          have hold := hlast.older hdmem O.ages (O.ages.asked hmem hkind)
          exact absurd hcurrent (Nat.ne_of_lt hold)
      refine ⟨hsame.trans hdisabled, ?_, ?_⟩
      · cases hm.session with
        | inl e => exact e.trans hnone
        | inr e => exact e
      · cases hm.midiRoute with
        | inl e => exact e.trans hcut
        | inr e => exact e
    · intro hpc
      have D := hdone hpc
      by_cases hkind : c.kind = .stop
      · exact down_call_stop D I O.ages hi hkind hst
      · exact down_call_other D L O.ages hlast hdmem hi hkind hst

theorem last_of_append {s s' : St} {cs : List Call} (hcalls : s'.calls = s.calls ++ cs) {d : Call}
    (h : Last s' d) : Last s d :=
  ⟨h.1, fun u hu hkind => h.2 u (hcalls ▸ List.mem_append_left _ hu) hkind⟩

/-- A further stop begins. -/
theorem Down.begin {s s' : St} (D : Down s) {c : Call} (hkind : c.kind = .stop)
    (hpc : c.pc = .entering) (hcalls : s'.calls = s.calls ++ [c]) (hsession : s'.session = s.session)
    (hroute : s'.midiRoute = s.midiRoute) (hstate : s'.state = s.state) : Down s' := by
  have hmem : ∀ d ∈ s'.calls, d ∈ s.calls ∨ d = c := by
    intro d hd
    rw [hcalls] at hd
    cases List.mem_append.mp hd with
    | inl hd => exact .inl hd
    | inr hd => exact .inr (List.mem_singleton.mp hd)
  refine ⟨hsession.trans D.session, hroute.trans D.midiRoute, ?_, ?_, ?_, ?_⟩
  · intro hnone
    rw [hstate]
    exact D.state fun d hd => hnone d (hcalls ▸ List.mem_append_left _ hd)
  · intro d hd hstop
    cases hmem d hd with
    | inl hd => exact D.starts d hd hstop
    | inr e => exact absurd (e ▸ hkind) hstop
  · intro d hd hstop
    cases hmem d hd with
    | inl hd => exact D.stops d hd hstop
    | inr e =>
      rw [e, hpc]
      exact fun _ => ⟨(fun _ h => by cases h), fun _ h => by cases h⟩
  · intro d hd hstop
    rw [hstate]
    cases hmem d hd with
    | inl hd => exact D.returned d hd hstop
    | inr e =>
      rw [e, hpc]
      intro _ h
      cases h

theorem lasts_step {s s' : St} {l : Label} (I : Inv s) (O : Order s) (L : Late s) (H : Lasts s)
    (hst : step s l = some s') : Lasts s' := by
  cases l with
  | start =>
    cases hst
    intro d hd hlast
    have hnew := hlast.2 _ (List.mem_append_right _ List.mem_cons_self) rfl
    cases List.mem_append.mp hd with
    | inl hd => exact absurd hnew (Nat.not_lt.mpr (Nat.le_succ_of_le (O.ages.calls d hd)))
    | inr hd =>
      rw [List.mem_singleton.mp hd] at hlast
      cases hlast.1
  | stop =>
    cases hst
    intro d hd hlast
    cases List.mem_append.mp hd with
    | inl hd =>
      obtain ⟨hreturned, hdone⟩ := H d hd (last_of_append rfl hlast)
      exact ⟨hreturned, fun hpc => (hdone hpc).begin rfl rfl rfl rfl rfl rfl⟩
    | inr hd =>
      rw [List.mem_singleton.mp hd]
      exact ⟨by simp, by simp⟩
  | call i outcome =>
    obtain ⟨c, hi, hst⟩ := Option.bind_eq_some_iff.mp hst
    exact lasts_call I O L H hi hst
  | session k outcome =>
    obtain ⟨t, ht, hst⟩ := Option.bind_eq_some_iff.mp hst
    intro d hd hlast'
    have hmem : d ∈ s.calls ∧ Last s d := by
      cases (session_step ht hst).calls with
      | inl hcalls => exact ⟨hcalls ▸ hd, hlast'.1, hcalls ▸ hlast'.2⟩
      | inr hcalls =>
        refine ⟨?_, last_of_append hcalls hlast'⟩
        rw [hcalls] at hd
        cases List.mem_append.mp hd with
        | inl hd => exact hd
        | inr hd =>
          rw [List.mem_singleton.mp hd] at hlast'
          cases hlast'.1
    obtain ⟨hmem, hlast⟩ := hmem
    obtain ⟨hreturned, hdone⟩ := H d hmem hlast
    refine ⟨?_, ?_⟩
    · intro hpc
      obtain ⟨j, hj⟩ := List.mem_iff_getElem?.mp hmem
      have hlock := (I j d hj).lifecycle (by rw [hpc]; rfl)
      have hwaits : ∀ e ∈ s.calls, ∀ k, e.pc.starts k = false := by
        intro e he k
        cases hstarts : e.pc.starts k with
        | false => rfl
        | true =>
          obtain ⟨i, hi⟩ := List.mem_iff_getElem?.mp he
          have hholds := (holds_of_starts hstarts).1
          by_cases hij : i = j
          · rw [hij, hj] at hi
            cases hi
            rw [hpc] at hstarts
            cases hstarts
          · rw [I.idle hlock hi hij] at hholds
            cases hholds
      obtain ⟨_, hsession, hroute, hstate, _⟩ := session_quiet O L hlast hmem hwaits ht hst
      rw [hsession, hroute, hstate]
      exact hreturned hpc
    · intro hpc
      have D := hdone hpc
      obtain ⟨hcalls, hsession, hroute, hstate, _⟩ :=
        session_quiet O L hlast hmem (D.waits O.ages) ht hst
      exact D.of_same hcalls hsession hroute hstate

theorem lasts_inductive :
    (system.restrict Undisturbed).InductiveUnder (fun s => (Inv s ∧ Order s) ∧ Late s) Lasts where
  init s hs := by
    rw [show s = new from hs]
    intro c hc
    cases hc
  step _ _ _ h H hst := lasts_step h.1.1 h.1.2 h.2 H hst.2

/-- No worker is started. -/
theorem Down.sessions {s s' : St} {l : Label} (D : Down s) (O : Order s)
    (hst : step s l = some s') : s'.sessions.length ≤ s.sessions.length := by
  have hlength : ∀ {generation : Nat} {old new : List Session}, Table generation old new →
      new.length ≤ old.length := by
    intro generation old new htable
    refine Nat.le_of_not_lt fun hlt => ?_
    obtain ⟨w, hw, _⟩ := htable old.length _ (List.getElem?_eq_getElem hlt)
    exact absurd (lt_of_getElem?_eq_some hw) (Nat.lt_irrefl _)
  cases l with
  | start | stop =>
    cases hst
    exact Nat.le_refl _
  | call i outcome =>
    obtain ⟨c, hi, hst⟩ := Option.bind_eq_some_iff.mp hst
    obtain ⟨pc, h⟩ := call_step hi hst
    have hmem := List.mem_of_getElem? hi
    cases h.sessions with
    | inl htable => exact hlength htable
    | inr hspawn =>
      by_cases hkind : c.kind = .stop
      · have hstops := O.ages.stops c hmem hkind
        rw [hspawn.1] at hstops
        cases hstops
      · have hpc := D.starts c hmem hkind (by rw [hspawn.1]; rfl)
        rw [hspawn.1] at hpc
        cases hpc
  | session k outcome =>
    obtain ⟨t, ht, hst⟩ := Option.bind_eq_some_iff.mp hst
    exact hlength (session_step ht hst).sessions

/-- A stop that has returned `Ok`, with no start after it; another stop may be
at work, and says so. And a session may write what it shares only for the
current generation or while its own start waits for it. -/
theorem stop_lasts (s : St) (hs : (system.restrict Undisturbed).Reachable s) :
    (∀ c ∈ s.calls, Last s c → c.pc = .done (.ok ()) →
      s.session = none ∧ s.midiRoute = none ∧
        ((∀ d ∈ s.calls, d.kind = .stop → d.pc.holds = false) → s.state = .disabled) ∧
        ∀ l s', step s l = some s' → s'.sessions.length ≤ s.sessions.length) ∧
    ∀ (k : Nat) (t : Session) outcome s', s.sessions[k]? = some t →
      sessionStep s k t outcome = some s' →
      t.generation = s.lifecycleGeneration ∨
        (∃ (i : Nat) (c : Call), s.lifecycle = some i ∧ s.calls[i]? = some c ∧
          c.generation = t.generation ∧ c.pc.starts k = true) ∨
        (s'.session = s.session ∧ s'.midiRoute = s.midiRoute ∧ SameStatus s s') := by
  have hI := (inv_inductive.restrict Undisturbed)
  have hO := (order_inductive.restrict Undisturbed)
  have I := hI.reachable s hs
  have O := hO.reachable s hs
  have L := late_inductive.reachable s hs
  have hall : (system.restrict Undisturbed).Inductive fun s => (Inv s ∧ Order s) ∧ Late s :=
    ⟨fun s h => ⟨⟨hI.init s h, hO.init s h⟩, late_inductive.init s h⟩, fun s l s' h hst =>
      ⟨⟨hI.step s l s' h.1.1 hst, hO.step s l s' h.1.2 hst⟩, late_inductive.step s l s' h.2 hst⟩⟩
  have H := lasts_inductive.reachable hall s hs
  refine ⟨?_, ?_⟩
  · intro c hc hlast hpc
    have D := (H c hc hlast).2 hpc
    exact ⟨D.session, D.midiRoute, D.state, fun l s' => D.sessions O⟩
  · intro k t outcome s' ht hst
    cases hlate : t.pc.late with
    | true => exact .inl (L.sessions t (List.mem_of_getElem? ht) hlate)
    | false =>
      cases hstarting : t.pc.starting with
      | true =>
        obtain ⟨_, i, c, hi, hgeneration, hstarts⟩ := O.attached k t ht hstarting
        have hlock := (I i c hi).lifecycle (holds_of_starts hstarts).1
        exact .inr (.inl ⟨i, c, hlock, hi, hgeneration, hstarts⟩)
      | false => exact .inr (.inr (session_idle hlate hstarting hst).2)

theorem reached_undisturbed {p : St → Bool} (ls : List Label)
    (h : (LTS.execOk Undisturbed step new ls).any p = true) :
    ∃ s, (system.restrict Undisturbed).Reachable s ∧ p s = true :=
  LTS.reachable_of_anyOk ls rfl h

/-- A start, up to `Ready` and its return. -/
def running : List Label :=
  begun ++ List.replicate 4 (.call 0 .ok) ++ .session 0 .ok :: List.replicate 8 (.call 0 .ok)

/-- A stop of that worker. -/
theorem stop_lasts_running : ∃ s, (system.restrict Undisturbed).Reachable s ∧
    s.sessions.length = 1 ∧ s.state = .disabled ∧ s.session = none ∧ s.midiRoute = none := by
  obtain ⟨s, hs, hend⟩ := @reached_undisturbed
    (fun s => s.sessions.length = 1 ∧
      s.calls = [⟨.user, 1, .done (.ok ())⟩, ⟨.stop, 2, .done (.ok ())⟩])
    (running ++ .stop :: List.replicate 5 (.call 1 .ok) ++ .call 1 .halt ::
      List.replicate 3 (.call 1 .ok)) (by decide +kernel)
  obtain ⟨hsessions, hcalls⟩ := of_decide_eq_true hend
  have hlast : Last s ⟨.stop, 2, .done (.ok ())⟩ := by
    refine ⟨rfl, ?_⟩
    rw [hcalls]
    decide
  obtain ⟨hsession, hroute, hstate, _⟩ := (stop_lasts s hs).1 _ (by simp [hcalls]) hlast rfl
  refine ⟨s, hs, hsessions, hstate ?_, hsession, hroute⟩
  rw [hcalls]
  decide

/-- The session has looked at the generation and at the status when the stop
begins, and faults the worker after it has returned. -/
theorem fault_after_stop : ∃ s, system.Reachable s ∧ s.lifecycleGeneration = 2 ∧
    s.calls = [⟨.user, 1, .done (.ok ())⟩, ⟨.stop, 2, .done (.ok ())⟩] ∧ s.state = .faulted ∧
    s.lastExit = some "worker heartbeat timed out after 5 seconds" := by
  obtain ⟨s, hs, hend⟩ := @reached
    (fun s => s.lifecycleGeneration = 2 ∧
      s.calls = [⟨.user, 1, .done (.ok ())⟩, ⟨.stop, 2, .done (.ok ())⟩] ∧ s.state = .faulted ∧
      s.lastExit = some "worker heartbeat timed out after 5 seconds")
    (running ++ .session 0 (.fail "worker heartbeat timed out after 5 seconds") ::
      List.replicate 4 (.session 0 .ok) ++ .stop :: List.replicate 7 (.call 1 .ok) ++
      [.session 0 .ok]) (by decide +kernel)
  exact ⟨s, hs, of_decide_eq_true hend⟩

end RtpOscMidi.L5.Supervisor
