import RtpOscMidi.L2Machine.ConfigPass

/-!
# Changing the configuration while it is in use

* `config_change`: what one change leaves, from any reachable state and for
  every point of failure.
* `config_in_sync`: over runs, what runs has the configuration on the disk,
  as long as no step leaves something behind (`Op.Clean`).
-/
namespace RtpOscMidi.L2.ConfigChange

open Core Core.Binary32
open Config (F32 VstEqSettings)
open RtpLifecycle (BridgeHandle Network updateConfig syncRtp rtpRequested)

/-! ## A change, whole -/

/-- The engine after a change that went through. -/
structure Played (s : Service) (config : AppConfig) (audio : AudioEngine) : Prop where
  running : audio.isRunning = desiredAudioRunning s.disk.audio.enabled config.audio.enabled
    s.audio.isRunning s.bridge.inner.isSome
  wanted : audio.hasRuntimeRequest =
    (config.audio.enabled && (audio.isRunning || s.audio.hasRuntimeRequest))
  controls : audio.isRunning = true → Took s config audio.controls

/-- The engine after a change that was taken back. -/
structure Resumed (s : Service) (audio : AudioEngine) : Prop where
  running : s.disk.audio.enabled = true → s.audio.isRunning = true → audio.isRunning = true
  wanted : audio.hasRuntimeRequest = (s.disk.audio.enabled && s.audio.hasRuntimeRequest)
  controls : audio.isRunning = true → Took s s.disk audio.controls

/-- A change that went through; the engine goes by what the change had read. -/
structure Committed (s : Service) (config : AppConfig) (answers : ChangeAnswers) (s' : Service) :
    Prop where
  disk : s'.disk = config
  runs : s'.bridge.inner.isSome = s.bridge.inner.isSome
  bridge : BridgeAs config.other s'.bridge
  audio : answers.apply.stop = .ok → Played (s.seen answers.read) config s'.audio

/-- A change that was taken back, to what it had read. -/
structure Restored (s : Service) (answers : ChangeAnswers) (s' : Service) : Prop where
  bridge : BridgeAs (s.load answers.read).other s'.bridge
  audio : answers.apply.stop = .ok → answers.rollback.stop = .ok →
    Resumed (s.seen answers.read) s'.audio

section Whole

variable {s : Service} {config : AppConfig} {s₁ s' : Change}

theorem persist_spec (saved : Except String Unit) {P Q : Change → Prop}
    (h : ∀ s, P s → Q { s with disk := config }) :
    Attempt.Spec P (persist config saved) Q P := by
  intro s hs
  cases saved with
  | ok u =>
    constructor
    · intro s' heq
      cases heq
      exact h s hs
    · intro s' e heq
      cases heq
  | error m =>
    constructor
    · intro s' heq
      cases heq
    · intro s' e heq
      cases heq
      exact hs

theorem shouldRun_change : shouldRun s.found config s.change =
    desiredAudioRunning s.disk.audio.enabled config.audio.enabled s.audio.isRunning
      s.bridge.inner.isSome := by
  simp [shouldRun, Service.found, Service.change]

theorem shouldRun_previous : shouldRun s.found s.disk s₁ = (s.disk.audio.enabled &&
    (s.audio.isRunning || (s₁.audioStopAttempted && s.audio.hasRuntimeRequest))) := by
  cases h : s.disk.audio.enabled with
  | false => simp [shouldRun, desiredAudioRunning, h]
  | true => simp [shouldRun, desiredAudioRunning, Service.found, h]

theorem hasRuntimeRequest_stopped {e : AudioEngine} (h : e.lifecycle = .stopped) :
    e.hasRuntimeRequest = false := by
  unfold AudioEngine.hasRuntimeRequest
  rw [h]
  rfl

theorem hasRuntimeRequest_eq {e e' : AudioEngine} (h : e'.lifecycle = e.lifecycle) :
    e'.hasRuntimeRequest = e.hasRuntimeRequest := by
  unfold AudioEngine.hasRuntimeRequest
  rw [h]

/-- An engine that runs and may run is not stopped by a change that keeps audio on. -/
theorem desired_of_running {previousEnabled bridgeRunning : Bool} :
    desiredAudioRunning previousEnabled true true bridgeRunning = true := by
  unfold desiredAudioRunning
  simp

theorem committed_wanted (hmoved : Moved s.found config s.change s')
    (hruns : s'.audio.isRunning = shouldRun s.found config s.change) :
    s'.audio.hasRuntimeRequest =
      (config.audio.enabled && (s'.audio.isRunning || s.audio.hasRuntimeRequest)) := by
  have hon : ∀ (_ : shouldRun s.found config s.change = true), s'.audio.hasRuntimeRequest =
      (config.audio.enabled && (s'.audio.isRunning || s.audio.hasRuntimeRequest)) := by
    intro hrun
    have hruns' := hruns.trans hrun
    rw [hasRuntimeRequest_of_isRunning hruns', hruns', enabled_of_shouldRun hrun]
    rfl
  cases hmoved with
  | restarted hrun hrestart hstop => exact hon hrun
  | stopped hrun hstops hrestart hstop hstopped =>
    rw [hasRuntimeRequest_stopped hstopped]
    -- the engine is stopped only where audio is switched off
    have hoff : config.audio.enabled = false := by
      by_contra hon
      rw [Bool.not_eq_false] at hon
      have hrunning : s.audio.isRunning = true := by
        simpa [shouldStopAudio, hon, Service.change] using hstops
      rw [shouldRun_change, hon, hrunning, desired_of_running] at hrun
      cases hrun
    rw [hoff]
    rfl
  | kept hrun hrestart hstop hkept =>
    cases hrun with
    | inl hrun => exact hon hrun
    | inr hkeeps =>
      have henabled : config.audio.enabled = true := by
        simp only [shouldStopAudio, Bool.or_eq_false_iff, Bool.not_eq_false'] at hkeeps
        exact hkeeps.1.1
      have hsame : s'.audio.hasRuntimeRequest = s.audio.hasRuntimeRequest :=
        hasRuntimeRequest_eq hkept
      rw [henabled, hsame]
      cases hrun : s'.audio.isRunning with
      | false => rfl
      | true =>
        rw [← hsame, hasRuntimeRequest_of_isRunning hrun]
        rfl

/-- What a pass that failed, or a file that was not written, leaves to undo. -/
def Left (s : Service) (config : AppConfig) (s₁ : Change) : Prop :=
  Moved s.found config s.change s₁ ∨ Alike s.change s₁

/-- The engine is as it was, or it was started again because it was to run, or
it is stopped. -/
theorem Left.cases (h : Left s config s₁) :
    (s₁.audioRestartAttempted = false ∧ s₁.audioStopAttempted = false ∧
      s₁.audio.lifecycle = s.audio.lifecycle) ∨
    (s₁.audioRestartAttempted = true ∧
      (s.disk.audio.enabled = true → s.audio.isRunning = true)) ∨
    (s₁.audioRestartAttempted = false ∧ s₁.audioStopAttempted = true ∧
      s₁.audio.lifecycle = .stopped) := by
  cases h with
  | inr hsame => exact .inl ⟨hsame.restart, hsame.stop, hsame.lifecycle⟩
  | inl hmoved =>
    cases hmoved with
    | restarted hrun hrestart hstop =>
      refine .inr (.inl ⟨hrestart, fun hon => ?_⟩)
      have henabled := enabled_of_shouldRun hrun
      rw [shouldRun_change, hon, henabled] at hrun
      simpa [desiredAudioRunning] using hrun
    | stopped hrun hstops hrestart hstop hstopped => exact .inr (.inr ⟨hrestart, hstop, hstopped⟩)
    | kept hrun hrestart hstop hkept => exact .inl ⟨hrestart, hstop, hkept⟩

theorem Left.running (hon : s.disk.audio.enabled = true) (hrun : s.audio.isRunning = true) :
    shouldRun s.found s.disk s₁ = true := by
  rw [shouldRun_previous, hon, hrun]
  rfl

theorem Left.undone (hleft : Left s config s₁) (hmoved : Moved s.found s.disk s₁ s')
    (hruns : s'.audio.isRunning = shouldRun s.found s.disk s₁) :
    s'.audio.hasRuntimeRequest = (s.disk.audio.enabled && s.audio.hasRuntimeRequest) := by
  cases hrun : shouldRun s.found s.disk s₁ with
  | true =>
    -- it runs again, and it was wanted
    rw [hasRuntimeRequest_of_isRunning (hruns.trans hrun)]
    rw [shouldRun_previous, Bool.and_eq_true, Bool.or_eq_true, Bool.and_eq_true] at hrun
    obtain ⟨hon, hbefore | ⟨-, hwanted⟩⟩ := hrun
    · rw [hon, hasRuntimeRequest_of_isRunning hbefore]
      rfl
    · rw [hon, hwanted]
      rfl
  | false =>
    have hno := hrun
    rw [shouldRun_previous] at hno
    cases hon : s.disk.audio.enabled with
    | false =>
      cases hmoved with
      | restarted hrun' => rw [hrun] at hrun'; cases hrun'
      | stopped _ _ _ _ hstopped => rw [hasRuntimeRequest_stopped hstopped]; rfl
      | kept hrun' =>
        rw [hrun, shouldStopAudio, hon] at hrun'
        simp at hrun'
    | true =>
      rw [hon, Bool.true_and, Bool.or_eq_false_iff] at hno
      obtain ⟨hquiet, hno⟩ := hno
      rw [Bool.true_and]
      obtain ⟨hrestart, hstop, hlife⟩ | ⟨-, hwas⟩ | ⟨hrestart, hstop, hlife⟩ := hleft.cases
      · have hidle : s₁.audio.isRunning = false := (isRunning_eq hlife).trans hquiet
        cases hmoved with
        | restarted hrun' => rw [hrun] at hrun'; cases hrun'
        | stopped _ hstops => simp [shouldStopAudio, hon, hrestart, hidle] at hstops
        | kept _ _ _ hkept => exact hasRuntimeRequest_eq (hkept.trans hlife)
      · rw [hwas hon] at hquiet
        cases hquiet
      · rw [hstop, Bool.true_and] at hno
        rw [hno]
        cases hmoved with
        | restarted hrun' => rw [hrun] at hrun'; cases hrun'
        | stopped _ _ _ _ hstopped => exact hasRuntimeRequest_stopped hstopped
        | kept _ _ _ hkept => exact hasRuntimeRequest_stopped (hkept.trans hlife)

/-- What the two passes and the file do, one after the other. -/
def transacted (s : Service) (config : AppConfig) (force : Bool) (answers : ChangeAnswers) :
    Change × Outcome CommandError :=
  let previous := s.seen answers.read
  transact (apply previous.found answers.apply config force) (persist config answers.saved)
    (apply previous.found answers.rollback previous.disk false)
    { previous.change with disk := s.disk }

theorem transacted_bridge (hs : Recorded s.bridge) (force : Bool) (answers : ChangeAnswers) :
    Outcome.After
      (fun s' => (Recorded s'.bridge ∧ s'.bridge.inner.isSome = s.bridge.inner.isSome ∧
        BridgeAs config.other s'.bridge) ∧ s'.disk = config)
      (fun s' => Held s s'.disk s'.bridge ∧ BridgeAs (s.load answers.read).other s'.bridge)
      (fun s' => Held s s'.disk s'.bridge) (transacted s config force answers) := by
  have hheld : Held s s.disk s.bridge := ⟨rfl, hs, rfl⟩
  refine transact_spec apply_held (E := fun s' => Held s s'.disk s'.bridge) ?_ apply_held hheld
  refine (persist_spec answers.saved fun s₁ hs₁ => ?_).weaken (fun s₁ hs₁ => hs₁)
    (fun s₁ hs₁ => hs₁) fun s₁ hs₁ => hs₁.1
  exact ⟨⟨hs₁.1.recorded, hs₁.1.runs, hs₁.2⟩, rfl⟩

theorem transacted_listening (hs : Listening s.bridge) (force : Bool) {answers : ChangeAnswers}
    (hreopened : answers.apply.reopened = .ok ())
    (hreopened' : answers.rollback.reopened = .ok ()) :
    Listening (transacted s config force answers).1.bridge :=
  transact_keeps (P := fun s : Change => Listening s.bridge) (apply_listening hreopened)
    (persist_spec answers.saved fun _ hs₁ => hs₁) (apply_listening hreopened') hs

theorem ready_change (disk : AppConfig) : Ready s { s.change with disk } :=
  fun _ hruns => ⟨hruns, .inl ⟨rfl, rfl⟩, .inl ⟨rfl, rfl⟩, .inl ⟨rfl, rfl⟩⟩

theorem transacted_played (force : Bool) {answers : ChangeAnswers}
    (hstop : answers.apply.stop = .ok) :
    Outcome.After (fun s' => Played (s.seen answers.read) config s'.audio) (fun _ => True)
      (fun _ => True) (transacted s config force answers) := by
  unfold transacted
  dsimp only
  generalize s.seen answers.read = previous
  have happly : Attempt.Spec (fun s₁ => Alike previous.change s₁ ∧ Ready previous s₁)
      (apply previous.found answers.apply config force) (fun s₁ => Played previous config s₁.audio)
      (fun _ => True) :=
    (apply_spec hstop previous.change).weaken (fun s₁ hs₁ => hs₁)
      (fun s₁ hs₁ => ⟨hs₁.1.1.trans shouldRun_change, committed_wanted hs₁.2.2 hs₁.1.1, hs₁.1.2⟩)
      fun _ _ => trivial
  have hpersist : Attempt.Spec (fun s₁ => Played previous config s₁.audio)
      (persist config answers.saved) (fun s₁ => Played previous config s₁.audio) (fun _ => True) :=
    (persist_spec answers.saved fun _ hs₁ => hs₁).weaken (fun s₁ hs₁ => hs₁)
      (fun s₁ hs₁ => hs₁) fun _ _ => trivial
  exact transact_spec happly hpersist (.trivial _) ⟨⟨rfl, rfl, rfl⟩, ready_change s.disk⟩

/-- Whatever failed, the rollback brings back an engine that was to run. -/
theorem transacted_resumed (force : Bool) {answers : ChangeAnswers}
    (hstop : answers.apply.stop = .ok) (hstop' : answers.rollback.stop = .ok) :
    Outcome.After (fun _ => True) (fun s' => Resumed (s.seen answers.read) s'.audio)
      (fun _ => True) (transacted s config force answers) := by
  unfold transacted
  dsimp only
  generalize s.seen answers.read = previous
  have happly : Attempt.Spec (fun s₁ => Alike previous.change s₁ ∧ Ready previous s₁)
      (apply previous.found answers.apply config force)
      (fun s₁ => Ready previous s₁ ∧ Moved previous.found config previous.change s₁)
      (fun s₁ => Ready previous s₁ ∧ Left previous config s₁) :=
    (apply_spec hstop previous.change).weaken (fun s₁ hs₁ => hs₁) (fun s₁ hs₁ => hs₁.2)
      fun s₁ hs₁ => hs₁
  have hpersist : Attempt.Spec
      (fun s₁ => Ready previous s₁ ∧ Moved previous.found config previous.change s₁)
      (persist config answers.saved) (fun _ => True)
      (fun s₁ => Ready previous s₁ ∧ Left previous config s₁) :=
    (persist_spec answers.saved fun _ _ => trivial).weaken (fun s₁ hs₁ => hs₁)
      (fun s₁ hs₁ => hs₁) fun s₁ hs₁ => ⟨hs₁.1, .inl hs₁.2⟩
  refine transact_spec happly hpersist (fun s₁ hs₁ => ?_) ⟨⟨rfl, rfl, rfl⟩, ready_change s.disk⟩
  refine (apply_spec hstop' s₁ s₁ ⟨⟨rfl, rfl, rfl⟩, hs₁.1⟩).mono (fun s' hs' => ?_)
    fun _ _ => trivial
  exact ⟨fun hon hrun => hs'.1.1.trans (Left.running hon hrun),
    hs₁.2.undone hs'.2.2 hs'.1.1, hs'.1.2⟩

/-- How a change of a valid configuration can end. -/
theorem applyAndSaveConfig_cases (hs : Recorded s.bridge) (force : Bool) (answers : ChangeAnswers) :
    (config.validate ≠ .ok () ∧ (∃ e, (applyAndSaveConfig s config force answers).2 = .error e) ∧
      (applyAndSaveConfig s config force answers).1 = s) ∨
    (config.validate = .ok () ∧ Recorded (applyAndSaveConfig s config force answers).1.bridge ∧
      (((applyAndSaveConfig s config force answers).2 = .ok () ∧
          Committed s config answers (applyAndSaveConfig s config force answers).1) ∨
        ∃ e, (applyAndSaveConfig s config force answers).2 = .error e ∧
          (applyAndSaveConfig s config force answers).1.disk = s.disk ∧
          (applyAndSaveConfig s config force answers).1.bridge.inner.isSome =
            s.bridge.inner.isSome ∧
          (e.rollbackError = none → Restored s answers
            (applyAndSaveConfig s config force answers).1))) := by
  cases hvalid : config.validate with
  | error m =>
    refine .inl ⟨by simp, ?_⟩
    have heq : applyAndSaveConfig s config force answers =
        (s, .error (configError "config.invalid" m)) := by
      simp [applyAndSaveConfig, commitConfigChange, hvalid, Service.change, Service.seen]
    rw [heq]
    exact ⟨⟨_, rfl⟩, rfl⟩
  | ok u =>
    have heq : applyAndSaveConfig s config force answers =
        ((transacted s config force answers).1.toService,
          report (transacted s config force answers).2) := by
      simp [applyAndSaveConfig, commitConfigChange, hvalid, transacted]
    refine .inr ⟨rfl, ?_⟩
    have hbridge := @transacted_bridge s config hs force answers
    have hplayed := @transacted_played s config force answers
    have hresumed := @transacted_resumed s config force answers
    rw [heq]
    cases hdone : transacted s config force answers with
    | mk s' outcome =>
      rw [hdone] at hbridge hplayed hresumed
      cases outcome with
      | committed =>
        exact ⟨hbridge.1.1, .inl ⟨rfl, hbridge.2, hbridge.1.2.1, hbridge.1.2.2, hplayed⟩⟩
      | undone e =>
        exact ⟨hbridge.1.recorded, .inr ⟨e, rfl, hbridge.1.disk, hbridge.1.runs,
          fun _ => ⟨hbridge.2, hresumed⟩⟩⟩
      | torn e r =>
        refine ⟨hbridge.recorded, .inr ⟨_, rfl, hbridge.disk, hbridge.runs, fun hnone => ?_⟩⟩
        cases hnone

end Whole

/-! ## Over runs -/

section Runs

variable {b b' : BridgeHandle} {s s' : Service}

theorem stopInternal_recorded (hb : Recorded b) : Recorded (RtpLifecycle.stopInternal b) := by
  unfold RtpLifecycle.stopInternal
  split
  · exact hb
  · exact recorded_of_none rfl

theorem stopInternal_inner : (RtpLifecycle.stopInternal b).inner = none := by
  unfold RtpLifecycle.stopInternal
  split
  · assumption
  · rfl

/-- What `start_runtime` does to a bridge that is stopped. -/
theorem startRuntime_spec {config : RtpLifecycle.Config} {started : RtpLifecycle.Started}
    {result : Except String RtpLifecycle.BridgeRuntime} (hb : Recorded b) (hinner : b.inner = none)
    (h : RtpLifecycle.startRuntime b config started = (b', result)) :
    Recorded b' ∧ b'.inner = none ∧ ∀ runtime, result = .ok runtime →
      RtpAs config b' ∧ runtime.config = config ∧ runtime.oscInput = config.oscInputEnabled := by
  unfold RtpLifecycle.startRuntime at h
  split at h
  · cases h
    refine ⟨hb, hinner, fun runtime hok => ?_⟩
    cases hok
  · split at h
    · cases h
      refine ⟨hb, hinner, fun runtime hok => ?_⟩
      cases hok
    · rename_i oscInput hopened
      have hb' : Recorded { b with rtpSink := true } := hb
      split at h
      · rename_i hsync
        have hrecorded := syncRtp_recorded hb' hsync
        cases h
        refine ⟨hrecorded, (syncRtp_inner hsync).trans hinner, fun runtime hok => ?_⟩
        cases hok
      · rename_i hsync
        split at h
        · cases h
          refine ⟨recorded_of_none rfl, (syncRtp_inner hsync).trans hinner, fun runtime hok => ?_⟩
          cases hok
        · cases h
          refine ⟨syncRtp_recorded hb' hsync, (syncRtp_inner hsync).trans hinner,
            fun runtime hok => ?_⟩
          cases hok
          exact ⟨syncRtp_as hb' hsync, rfl, oscInput_opened hopened⟩

theorem listening_of_none (h : b.inner = none) : Listening b := by
  intro runtime hrun
  rw [h] at hrun
  cases hrun

/-- What `start` leaves: a bridge that runs with the configuration, or none. -/
theorem start_spec {config : RtpLifecycle.Config} {started : RtpLifecycle.Started}
    {result : Except String RtpLifecycle.BridgeStatus} (hb : Recorded b)
    (h : RtpLifecycle.start b config started = (b', result)) :
    Recorded b' ∧ Listening b' ∧ (b'.inner.isSome = true → BridgeAs config b') := by
  unfold RtpLifecycle.start at h
  cases hruntime : RtpLifecycle.startRuntime (RtpLifecycle.stopInternal b) config started with
  | mk b₁ result₁ =>
    obtain ⟨hrecorded, hinner, hok⟩ :=
      startRuntime_spec (stopInternal_recorded hb) stopInternal_inner hruntime
    rw [hruntime] at h
    cases result₁ with
    | error e =>
      cases h
      refine ⟨hrecorded, listening_of_none hinner, fun hsome => ?_⟩
      rw [hinner] at hsome
      cases hsome
    | ok runtime =>
      obtain ⟨hrtp, hconfig, hinput⟩ := hok runtime rfl
      cases h
      refine ⟨hrecorded, fun runtime' hrun => ?_, fun _ => ⟨fun runtime' hrun => ?_, ?_⟩⟩
      · cases hrun
        rw [hconfig]
        exact hinput
      · cases hrun
        exact hconfig
      · exact ⟨hrtp.thru, hrtp.wanted, hrtp.unwanted⟩

/-- A server that is there is recorded, after every operation. -/
theorem step_recorded (op : Op) (hs : Recorded s.bridge) : Recorded (step s op).bridge := by
  cases op with
  | change config force answers =>
    obtain ⟨-, -, heq⟩ | ⟨-, hrecorded, -⟩ := @applyAndSaveConfig_cases s config hs force answers
    · show Recorded (applyAndSaveConfig s config force answers).1.bridge
      rw [heq]
      exact hs
    · exact hrecorded
  | persistDevice config active read saved =>
    have hsame : (persistResolvedAudioDevice s config active read saved).bridge = s.bridge := by
      unfold persistResolvedAudioDevice
      split
      · rfl
      · split
        · rfl
        · split
          · rfl
          · dsimp only
            split
            · split
              · rfl
              · rfl
            · rfl
    show Recorded (persistResolvedAudioDevice s config active read saved).bridge
    rw [hsame]
    exact hs
  | startBridge config saved started audio =>
    show Recorded (startBridge s config saved started audio).bridge
    unfold startBridge
    cases hstart : RtpLifecycle.start s.bridge config.other started with
    | mk b' result =>
      have hrecorded := (start_spec hs hstart).1
      split
      · exact hs
      · cases result with
        | error e => exact hrecorded
        | ok status =>
          dsimp only
          split
          · exact hrecorded
          · exact hrecorded
  | stopBridge stopped => exact recorded_of_none rfl
  | restartRtp read network => exact syncRtp_recorded hs rfl
  | startAudio read started =>
    show Recorded (startAudio s read started).bridge
    unfold startAudio reloadVst
    split
    · exact hs
    · dsimp only
      split
      · exact hs
      · exact hs
  | reloadVst read started =>
    show Recorded (reloadVst s read started).bridge
    unfold reloadVst
    dsimp only
    split
    · exact hs
    · exact hs
  | worker up => exact hs

theorem recorded_inductive : system.Inductive fun s => Recorded s.bridge where
  init s hs := by
    rw [hs.1]
    exact recorded_of_none rfl
  step s op s' hs hstep := by
    cases hstep
    exact step_recorded op hs

/-- A change that goes through leaves the new configuration on the disk, in a
running bridge, in the RTP server and in the engine; one that does not leaves
the disk as it was, and leaves everything as it was where the configuration is
not valid, or has back the configuration that it had read where the rollback
works. -/
theorem config_change (hs : system.Reachable s) (config : AppConfig) (force : Bool)
    (answers : ChangeAnswers) {result : Except CommandError Unit}
    (h : applyAndSaveConfig s config force answers = (s', result)) :
    (result = .ok () → Committed s config answers s') ∧
    ∀ e, result = .error e → s'.disk = s.disk ∧
      s'.bridge.inner.isSome = s.bridge.inner.isSome ∧
      (config.validate ≠ .ok () → s' = s) ∧
      (config.validate = .ok () → e.rollbackError = none → Restored s answers s') := by
  have hrecorded := recorded_inductive.reachable s hs
  have hcases := @applyAndSaveConfig_cases s config hrecorded force answers
  rw [h] at hcases
  dsimp only at hcases
  obtain ⟨hinvalid, ⟨e, herror⟩, hsame⟩ | ⟨hvalid, -, ⟨hok, hcommitted⟩ | ⟨e, herror, hback⟩⟩ :=
    hcases
  · refine ⟨fun hok => ?_, fun e' _ => ?_⟩
    · rw [herror] at hok
      cases hok
    · rw [show s' = s from hsame]
      exact ⟨rfl, rfl, fun _ => rfl, fun hvalid => absurd hvalid hinvalid⟩
  · refine ⟨fun _ => hcommitted, fun e' herror => ?_⟩
    rw [hok] at herror
    cases herror
  · refine ⟨fun hok => ?_, fun e' herror' => ?_⟩
    · rw [herror] at hok
      cases hok
    · rw [herror] at herror'
      cases herror'
      exact ⟨hback.1, hback.2.1, fun hinvalid => absurd hvalid hinvalid, fun _ => hback.2.2⟩

/-! ## In step with the disk -/

/-- The engine plays with the controls of the configuration. -/
structure Plays (config : AppConfig) (c : Controls) : Prop where
  gain : Setting beq clampGain c.gain config.audio.gainDb
  limiter : Setting (· == ·) id c.limiterEnabled config.audio.limiterEnabled
  vstEq : Setting VstEqSettings.eq id c.vstEq (currentEq config)
  gameMode : c.gameMode = config.audio.gameMode

theorem plays_settings (config : AppConfig) :
    Plays config (audioSettingsFromConfig config).toControls :=
  ⟨.started _ _ _, .started _ _ _, .started _ _ _, rfl⟩

theorem vstEq_trans (a b c : VstEqSettings) (h : a.eq b = true) (h' : b.eq c = true) :
    a.eq c = true := by
  simp only [VstEqSettings.eq, Bool.and_eq_true, beq_iff_eq] at h h' ⊢
  exact ⟨⟨⟨h.1.1.1.trans h'.1.1.1, beq_trans h.1.1.2.1 h'.1.1.2.1, beq_trans h.1.1.2.2 h'.1.1.2.2⟩,
    ⟨beq_trans h.1.2.1.1 h'.1.2.1.1, beq_trans h.1.2.1.2 h'.1.2.1.2⟩,
    beq_trans h.1.2.2 h'.1.2.2⟩, beq_trans h.2.1 h'.2.1, beq_trans h.2.2 h'.2.2⟩

theorem Taken.setting {V : Type} {same : V → V → Bool} {send : V → V} {before : Bool}
    {first remembered v r : V}
    (htrans : ∀ a b c, same a b = true → same b c = true → same a c = true)
    (h : Taken before same send first remembered v r)
    (hfirst : before = true → Setting same send first remembered) : Setting same send v r := by
  obtain ⟨hbefore, hv, hr⟩ | h := h
  · rw [hv]
    cases hr with
    | inl hr => exact hr ▸ hfirst hbefore
    | inr hr => exact (hfirst hbefore).trans htrans hr
  · exact h

/-- An engine that had the controls of the configuration before has those of
the new one. -/
theorem Took.plays {config : AppConfig} {c : Controls} (h : Took s config c)
    (hbefore : s.audio.isRunning = true → Plays s.disk s.audio.controls) : Plays config c where
  gain := h.gain.setting (fun _ _ _ => beq_trans) fun hrun => (hbefore hrun).gain
  limiter := h.limiter.setting (fun a b c h h' => by rw [LawfulBEq.eq_of_beq h]; exact h')
    fun hrun => (hbefore hrun).limiter
  vstEq := h.vstEq.setting vstEq_trans fun hrun => (hbefore hrun).vstEq
  gameMode := h.gameMode

/-- What runs has the configuration on the disk. -/
structure InSync (s : Service) : Prop where
  listening : Listening s.bridge
  bridge : s.bridge.inner.isSome = true → BridgeAs s.disk.other s.bridge
  audio : s.audio.hasRuntimeRequest = true → Plays s.disk s.audio.controls

/-- What is left of the engine plays with the controls of the configuration. -/
def Started.Leaves (config : AppConfig) : Started → Prop
  | .ok => True
  | .failed left _ => left.hasRuntimeRequest = true → Plays config left.controls

/-- The operation leaves nothing behind: the file can be read, no rollback
fails, the engine stops where it is told to, the old OSC input can be opened
again, no change comes while a worker is recovered, RTP can be restarted where
the bridge runs, what a failed start leaves of a wanted engine plays with the
configuration, and a bridge is not started with one that an engine already at
work does not get. -/
def Op.Clean (s : Service) : Op → Prop
  | .change config force answers =>
    answers.read = .ok () ∧ answers.apply.stop = .ok ∧ answers.rollback.stop = .ok ∧
      answers.apply.reopened = .ok () ∧ answers.rollback.reopened = .ok () ∧
      s.audio.lifecycle ≠ .recovering ∧
      ∀ e, (applyAndSaveConfig s config force answers).2 = .error e → e.rollbackError = none
  | .persistDevice _ _ _ _ => True
  | .startBridge config saved started audio => saved = .ok () →
    if (RtpLifecycle.start s.bridge config.other started).2.toBool && config.audio.enabled then
      audio.Leaves config
    else s.audio.hasRuntimeRequest = true → Plays config s.audio.controls
  | .stopBridge stopped => stopped = .ok ∨ s.audio.hasRuntimeRequest = true
  | .restartRtp read network => s.bridge.inner.isSome = true →
    read = .ok () ∧ (syncRtp s.bridge s.disk.other network true).2 = .ok ()
  | .startAudio read started => read = .ok () ∧ started.Leaves s.disk
  | .reloadVst read started => read = .ok () ∧ started.Leaves s.disk
  | .worker _ => True

theorem start_plays {config : AppConfig} {started : Started} (h : started.Leaves config)
    (hwanted : (AudioEngine.start (audioSettingsFromConfig config) started).1.hasRuntimeRequest =
      true) :
    Plays config (AudioEngine.start (audioSettingsFromConfig config) started).1.controls := by
  cases started with
  | ok => exact plays_settings config
  | failed left m => exact h hwanted

theorem isRunning_of_wanted {e : AudioEngine} (h : e.hasRuntimeRequest = true)
    (hidle : e.lifecycle ≠ .recovering) : e.isRunning = true := by
  unfold AudioEngine.hasRuntimeRequest at h
  unfold AudioEngine.isRunning
  cases hlife : e.lifecycle with
  | stopped => rw [hlife] at h; cases h
  | recovering => exact absurd hlife hidle
  | running => rfl

theorem applyAndSaveConfig_listening {config : AppConfig} {force : Bool} {answers : ChangeAnswers}
    (hs : Listening s.bridge) (hreopened : answers.apply.reopened = .ok ())
    (hreopened' : answers.rollback.reopened = .ok ()) :
    Listening (applyAndSaveConfig s config force answers).1.bridge := by
  have hlistening := @transacted_listening s config hs force answers hreopened hreopened'
  unfold transacted at hlistening
  unfold applyAndSaveConfig commitConfigChange
  cases config.validate with
  | error m => exact hs
  | ok u => exact hlistening

/-- An engine that is wanted after a change runs, and got the controls. -/
theorem Played.plays {config : AppConfig} {audio : AudioEngine} (h : Played s config audio)
    (hs : InSync s) (hidle : s.audio.lifecycle ≠ .recovering)
    (hwanted : audio.hasRuntimeRequest = true) : Plays config audio.controls := by
  have hruns : audio.isRunning = true := by
    have hboth := h.wanted.symm.trans hwanted
    rw [Bool.and_eq_true, Bool.or_eq_true] at hboth
    obtain ⟨henabled, hruns | hbefore⟩ := hboth
    · exact hruns
    · rw [h.running, henabled, isRunning_of_wanted hbefore hidle]
      exact desired_of_running
  exact (h.controls hruns).plays fun hrun => hs.audio (hasRuntimeRequest_of_isRunning hrun)

theorem Resumed.plays {audio : AudioEngine} (h : Resumed s audio) (hs : InSync s)
    (hidle : s.audio.lifecycle ≠ .recovering) (hwanted : audio.hasRuntimeRequest = true) :
    Plays s.disk audio.controls := by
  have hboth := h.wanted.symm.trans hwanted
  rw [Bool.and_eq_true] at hboth
  have hruns := h.running hboth.1 (isRunning_of_wanted hboth.2 hidle)
  exact (h.controls hruns).plays fun hrun => hs.audio (hasRuntimeRequest_of_isRunning hrun)

theorem change_in_sync (config : AppConfig) (force : Bool) (answers : ChangeAnswers)
    (hrecorded : Recorded s.bridge) (hs : InSync s)
    (hclean : (Op.change config force answers).Clean s) :
    InSync (applyAndSaveConfig s config force answers).1 := by
  obtain ⟨hread, hstop, hstop', hreopened, hreopened', hidle, hback⟩ := hclean
  have hseen : s.seen answers.read = s := by rw [hread]; rfl
  refine ⟨applyAndSaveConfig_listening hs.listening hreopened hreopened', ?_, ?_⟩
  all_goals
    obtain ⟨-, -, hsame⟩ | ⟨-, -, ⟨-, hcommitted⟩ | ⟨e, herror, hdisk, -, hrestored⟩⟩ :=
      @applyAndSaveConfig_cases s config hrecorded force answers
  · rw [hsame]
    exact hs.bridge
  · intro _
    rw [hcommitted.disk]
    exact hcommitted.bridge
  · intro _
    rw [hdisk]
    have hbridge := (hrestored (hback e herror)).bridge
    rwa [hread] at hbridge
  · rw [hsame]
    exact hs.audio
  · rw [hcommitted.disk]
    exact (hseen ▸ hcommitted.audio hstop).plays hs hidle
  · rw [hdisk]
    exact (hseen ▸ (hrestored (hback e herror)).audio hstop hstop').plays hs hidle

theorem persistResolvedAudioDevice_in_sync (config : AppConfig) (active : Option (String × String))
    (read saved : Except String Unit) (hs : InSync s) :
    InSync (persistResolvedAudioDevice s config active read saved) := by
  unfold persistResolvedAudioDevice
  split
  · exact hs
  · rename_i hnamed
    split
    · exact hs
    · split
      · exact hs
      · dsimp only
        split
        · rename_i hsame
          cases read with
          | ok u =>
            split
            · refine ⟨hs.listening, hs.bridge, fun hwanted => ?_⟩
              obtain ⟨hgain, hlimiter, heq, hgameMode⟩ := hs.audio hwanted
              exact ⟨hgain, hlimiter, heq, hgameMode⟩
            · exact hs
          | error m =>
            -- the default configuration names no device
            have hnone : config.audio.other.device = none := hsame.2.symm
            simp [hnone] at hnamed
        · exact hs

theorem startBridge_in_sync (config : AppConfig) (saved : Except String Unit)
    (started : RtpLifecycle.Started) (audio : Started) (hrecorded : Recorded s.bridge)
    (hs : InSync s) (hclean : (Op.startBridge config saved started audio).Clean s) :
    InSync (startBridge s config saved started audio) := by
  cases saved with
  | error m => exact hs
  | ok u =>
    have hclean := hclean rfl
    unfold startBridge
    cases hstart : RtpLifecycle.start s.bridge config.other started with
    | mk bridge result =>
      obtain ⟨-, hlistening, hbridge⟩ := start_spec hrecorded hstart
      rw [hstart] at hclean
      cases result with
      | error e =>
        rw [if_neg (by simp [Except.toBool])] at hclean
        exact ⟨hlistening, hbridge, hclean⟩
      | ok status =>
        dsimp only
        split
        · rename_i henabled
          rw [if_pos (by simp [Except.toBool, henabled])] at hclean
          exact ⟨hlistening, hbridge, start_plays hclean⟩
        · rename_i hoff
          rw [if_neg (by simp [hoff])] at hclean
          exact ⟨hlistening, hbridge, hclean⟩

theorem reloadVst_in_sync {started : Started} (hs : InSync s) (hclean : started.Leaves s.disk) :
    InSync (reloadVst s (.ok ()) started) := by
  unfold reloadVst
  dsimp only
  split
  · exact ⟨hs.listening, hs.bridge, start_plays hclean⟩
  · exact hs

theorem stopBridge_in_sync {stopped : Stopped} (hs : InSync s)
    (hclean : stopped = .ok ∨ s.audio.hasRuntimeRequest = true) :
    InSync (stopBridge s stopped) := by
  have hnone : (stopBridge s stopped).bridge.inner = none := stopInternal_inner
  refine ⟨listening_of_none hnone, fun hsome => ?_, fun hwanted => ?_⟩
  · rw [hnone] at hsome
    cases hsome
  · cases stopped with
    | ok => cases hwanted
    | failed left =>
      cases hclean with
      | inl hok => cases hok
      | inr hbefore => exact hs.audio hbefore

theorem step_in_sync (op : Op) (hrecorded : Recorded s.bridge) (hs : InSync s)
    (hclean : op.Clean s) : InSync (step s op) := by
  cases op with
  | change config force answers => exact change_in_sync config force answers hrecorded hs hclean
  | persistDevice config active read saved => exact persistResolvedAudioDevice_in_sync _ _ _ _ hs
  | startBridge config saved started audio =>
    exact startBridge_in_sync _ _ _ _ hrecorded hs hclean
  | stopBridge stopped => exact stopBridge_in_sync hs hclean
  | restartRtp read network =>
    refine ⟨syncRtp_listening hs.listening rfl, fun hsome => ?_, hs.audio⟩
    have hruns : s.bridge.inner.isSome = true := by
      have hinner : (syncRtp s.bridge (s.load read).other network true).1.inner = s.bridge.inner :=
        syncRtp_inner rfl
      exact hinner ▸ hsome
    obtain ⟨rfl, hok⟩ := hclean hruns
    have hinner : (syncRtp s.bridge s.disk.other network true).1.inner = s.bridge.inner :=
      syncRtp_inner rfl
    refine ⟨fun runtime hrun => (hs.bridge hruns).runs runtime (hinner ▸ hrun), ?_⟩
    have hsynced : syncRtp s.bridge s.disk.other network true =
        ((syncRtp s.bridge s.disk.other network true).1, .ok ()) := Prod.ext rfl hok
    exact syncRtp_as hrecorded hsynced
  | startAudio read started =>
    obtain ⟨rfl, hleaves⟩ := hclean
    show InSync (startAudio s (.ok ()) started)
    unfold startAudio
    split
    · exact hs
    · exact reloadVst_in_sync hs hleaves
  | reloadVst read started =>
    obtain ⟨rfl, hleaves⟩ := hclean
    exact reloadVst_in_sync hs hleaves
  | worker up =>
    refine ⟨hs.listening, hs.bridge, fun hwanted => ?_⟩
    show Plays s.disk (s.audio.worker up).controls
    have hwanted : (s.audio.worker up).hasRuntimeRequest = true := hwanted
    unfold AudioEngine.worker at hwanted ⊢
    split
    · rename_i hbefore
      exact hs.audio hbefore
    · rename_i hbefore
      rw [if_neg hbefore] at hwanted
      exact hs.audio hwanted

/-- In a run whose every step is clean, what runs has the configuration on the disk. -/
theorem config_in_sync (hs : (system.restrict fun s op => op.Clean s).Reachable s) : InSync s := by
  refine LTS.InductiveUnder.reachable (J := fun s => Recorded s.bridge) ⟨?_, ?_⟩
    (recorded_inductive.restrict _) s hs
  · intro s hinit
    refine ⟨listening_of_none ?_, fun hsome => ?_, fun hwanted => ?_⟩
    · rw [hinit.1]
      rfl
    · rw [hinit.1] at hsome
      cases hsome
    · rw [hasRuntimeRequest_stopped hinit.2] at hwanted
      cases hwanted
  · intro s op s' hrecorded hs hstep
    obtain ⟨hclean, hstep⟩ := hstep
    cases hstep
    exact step_in_sync op hrecorded hs hclean

end Runs

/-! ## A run -/

def quieter : AppConfig :=
  { defaultConfig with audio := { defaultConfig.audio with gainDb := 0xC1400000 } } -- -12

def answered : Answers :=
  ⟨.ok, .ok (), .ok (), ⟨[], .ok 5004⟩, .ok, .ok, .ok (), .ok (), .ok ()⟩

def granted : ChangeAnswers := ⟨.ok (), answered, .ok (), answered⟩

def diskFull : ChangeAnswers := { granted with saved := .error "disk full" }

def nothingRuns : Service :=
  ⟨defaultConfig, .new, ⟨.stopped, (audioSettingsFromConfig defaultConfig).toControls⟩⟩

def bridgeRuns : Service :=
  step nothingRuns
    (.startBridge defaultConfig (.ok ()) ⟨⟨[], .ok 5004⟩, .ok (), .ok (), .ok (), .ok ()⟩ .ok)

theorem reachable_bridgeRuns : system.Reachable bridgeRuns :=
  .step (.init ⟨rfl, rfl⟩) rfl

/-- A file that is not written: the gain was sent, and is sent back. -/
theorem config_change_diskFull :
    ∃ s', applyAndSaveConfig bridgeRuns quieter false diskFull =
        (s', .error (configError "config.save-failed" "disk full")) ∧
      Restored bridgeRuns diskFull s' ∧
      s'.audio.isRunning = true := by
  have h : applyAndSaveConfig bridgeRuns quieter false
      diskFull = (bridgeRuns, .error (configError
        "config.save-failed" "disk full")) := by decide
  refine ⟨bridgeRuns, h, ?_, by decide⟩
  exact ((config_change reachable_bridgeRuns quieter false
    diskFull h).2 _ rfl).2.2.2 (by decide) rfl

theorem config_in_sync_quieter :
    let s := step bridgeRuns (.change quieter false granted)
    InSync s ∧ s.disk = quieter ∧ s.audio.controls.gain = 0xC1400000 := by
  have hstart : Op.Clean nothingRuns (.startBridge defaultConfig (.ok ())
      ⟨⟨[], .ok 5004⟩, .ok (), .ok (), .ok (), .ok ()⟩ .ok) := fun _ => trivial
  have hchange : Op.Clean bridgeRuns (.change quieter false granted) := by
    refine ⟨rfl, rfl, rfl, rfl, rfl, by decide, fun e herror => ?_⟩
    have hok : (applyAndSaveConfig bridgeRuns quieter false granted).2 =
        .ok () := by decide
    rw [hok] at herror
    cases herror
  refine ⟨config_in_sync (.step (.step (.init ⟨rfl, rfl⟩) ⟨hstart, rfl⟩) ⟨hchange, rfl⟩), ?_, ?_⟩
  · decide
  · decide

end RtpOscMidi.L2.ConfigChange
