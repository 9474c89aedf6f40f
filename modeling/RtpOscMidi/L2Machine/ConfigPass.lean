import RtpOscMidi.L2Machine.ConfigService

/-!
# One pass of a change

What one pass over the bridge, the RTP server and the audio engine does, as
rules for attempts: with the configuration that is asked for, and again with
the one before.

* `apply_held`, `apply_listening`: the disk is left alone, and a pass that goes
  through leaves the configuration in the bridge and the RTP server.
* `apply_spec`: the engine runs where it should, and each control is the one it
  had or what the last request was sent as.
-/
namespace RtpOscMidi.L2.ConfigChange

open Core Core.Binary32
open Config (F32 VstEqSettings)
open RtpLifecycle (BridgeHandle Network updateConfig syncRtp rtpRequested)

/-! ## What the bridge is left with -/

/-- A server that is there is recorded, and frames go to its queue. -/
def Recorded (b : BridgeHandle) : Prop :=
  ∀ server, b.rtpServer = some server →
    b.rtpConfig = some server.recorded ∧ b.rtpOutput = some server.outgoing

/-- The RTP server is the one that the configuration asks for. -/
structure RtpAs (config : RtpLifecycle.Config) (b : BridgeHandle) : Prop where
  thru : b.thruEnabled = config.thruEnabled
  wanted : rtpRequested config = true → ∃ server, b.rtpServer = some server ∧
    b.rtpOutput = some server.outgoing ∧ server.name = config.sessionName ∧
    server.port = config.port ∧ server.logRtp = config.logMessages ∧
    server.remoteEnabled = config.remoteEnabled
  unwanted : rtpRequested config = false → b.rtpServer = none ∧ b.rtpOutput = none

/-- A bridge that runs has the configuration, and so has the RTP server. -/
structure BridgeAs (config : RtpLifecycle.Config) (b : BridgeHandle) : Prop where
  runs : ∀ runtime, b.inner = some runtime → runtime.config = config
  rtp : RtpAs config b

/-- The OSC input of a running bridge is open where it is enabled. -/
def Listening (b : BridgeHandle) : Prop :=
  ∀ runtime, b.inner = some runtime → runtime.oscInput = runtime.config.oscInputEnabled

section Bridge

variable {b b' : BridgeHandle} {config : RtpLifecycle.Config} {network : Network} {force : Bool}
  {opened reopened : Except String Unit} {result : Except String Unit}

theorem recorded_of_none (h : b.rtpServer = none) : Recorded b := by
  intro server hserver
  rw [h] at hserver
  cases hserver

theorem syncRtp_inner (h : syncRtp b config network force = (b', result)) : b'.inner = b.inner := by
  obtain ⟨-, heq⟩ | ⟨-, -, heq⟩ | ⟨-, -, -, e, heq⟩ | ⟨-, -, -, server, heq⟩ :=
    RtpLifecycle.syncRtp_cases b config network force
  all_goals
    rw [heq] at h
    cases h
    rfl

theorem syncRtp_listening (hb : Listening b)
    (h : syncRtp b config network force = (b', result)) : Listening b' := by
  unfold Listening
  rw [syncRtp_inner h]
  exact hb

theorem syncRtp_recorded (hb : Recorded b) (h : syncRtp b config network force = (b', result)) :
    Recorded b' := by
  obtain ⟨-, heq⟩ | ⟨-, -, heq⟩ | ⟨-, -, -, e, heq⟩ | ⟨-, -, -, server, heq⟩ :=
    RtpLifecycle.syncRtp_cases b config network force
  all_goals
    rw [heq] at h
    cases h
  · exact recorded_of_none rfl
  · exact hb
  · exact recorded_of_none rfl
  · intro server' hserver
    cases hserver
    exact ⟨rfl, rfl⟩

/-- The server that is kept was started with these settings, and a new one is
started with them. -/
theorem syncRtp_as (hb : Recorded b) (h : syncRtp b config network force = (b', .ok ())) :
    RtpAs config b' := by
  unfold syncRtp at h
  cases hreq : rtpRequested config with
  | false =>
    rw [hreq, if_neg (by simp)] at h
    cases h
    refine ⟨rfl, fun hwant => ?_, fun _ => ⟨rfl, rfl⟩⟩
    rw [hreq] at hwant
    cases hwant
  | true =>
    have hunwanted : rtpRequested config = false → b'.rtpServer = none ∧ b'.rtpOutput = none := by
      intro hno
      rw [hreq] at hno
      cases hno
    simp only [hreq, if_true] at h
    split at h
    · split at h
      · cases h
      · rename_i server hstart
        cases h
        refine ⟨rfl, fun _ => ⟨server, rfl, rfl, ?_⟩, hunwanted⟩
        unfold RtpLifecycle.RtpServer.start at hstart
        split at hstart
        · cases hstart
        · split at hstart
          · cases hstart
          · cases hstart
            exact ⟨rfl, rfl, rfl, rfl⟩
    · rename_i hneeds
      cases h
      refine ⟨rfl, fun _ => ?_, hunwanted⟩
      simp only [RtpLifecycle.needsRestart, Bool.or_eq_true, not_or, Bool.not_eq_true,
        Option.isNone_eq_false_iff] at hneeds
      obtain ⟨server, hserver⟩ := Option.isSome_iff_exists.mp hneeds.1.2
      obtain ⟨hconfig, hroute⟩ := hb server hserver
      have hsame := hneeds.2
      simp only [hconfig, RtpLifecycle.RtpServer.recorded, Bool.or_eq_false_iff,
        bne_eq_false_iff_eq] at hsame
      obtain ⟨⟨⟨⟨hname, hport⟩, hremote⟩, -⟩, hlog⟩ := hsame
      exact ⟨server, hserver, hroute, hname, hport, hlog, hremote⟩

/-- What `update_config` leaves alone. -/
structure Updated (b b' : BridgeHandle) : Prop where
  server : b'.rtpServer = b.rtpServer
  config : b'.rtpConfig = b.rtpConfig
  output : b'.rtpOutput = b.rtpOutput
  runs : b'.inner.isSome = b.inner.isSome

theorem Updated.recorded (h : Updated b b') (hb : Recorded b) : Recorded b' := by
  intro server hserver
  rw [h.server] at hserver
  rw [h.config, h.output]
  exact hb server hserver

theorem updateConfig_updated (h : updateConfig b config opened reopened = (b', result)) :
    Updated b b' := by
  unfold updateConfig at h
  split at h
  · cases h
    exact ⟨rfl, rfl, rfl, rfl⟩
  · rename_i runtime hrun
    split at h
    · cases h
      exact ⟨rfl, rfl, rfl, by rw [hrun]; rfl⟩
    · cases h
      exact ⟨rfl, rfl, rfl, by rw [hrun]; rfl⟩

theorem updateConfig_runs (h : updateConfig b config opened reopened = (b', .ok ())) :
    ∀ runtime, b'.inner = some runtime → runtime.config = config := by
  unfold updateConfig at h
  split at h
  · rename_i hrun
    cases h
    intro runtime hsome
    rw [hrun] at hsome
    cases hsome
  · split at h
    · cases h
    · cases h
      intro runtime hsome
      cases hsome
      rfl

theorem oscInput_opened {opened : Except String Unit} {oscInput : Bool}
    (h : RtpLifecycle.OscInputServer.start config opened = .ok oscInput) :
    oscInput = config.oscInputEnabled := by
  unfold RtpLifecycle.OscInputServer.start at h
  split at h
  · rename_i henabled
    split at h
    · cases h
      exact henabled.symm
    · cases h
  · rename_i henabled
    cases h
    exact (Bool.of_not_eq_true henabled).symm

/-- The input that was there is lost only where it cannot be opened again. -/
theorem replaceOscInput_listens {runtime replaced : RtpLifecycle.BridgeRuntime} {sink : Bool}
    (hlistens : runtime.oscInput = runtime.config.oscInputEnabled)
    (h : RtpLifecycle.replaceOscInput runtime config sink opened (.ok ()) = (replaced, result)) :
    (result = .ok () → replaced.oscInput = config.oscInputEnabled) ∧
      ∀ e, result = .error e → replaced.config = runtime.config ∧
        replaced.oscInput = runtime.config.oscInputEnabled := by
  have hkept : ∀ e, (runtime, (.error e : Except String Unit)) = (replaced, result) →
      (result = .ok () → replaced.oscInput = config.oscInputEnabled) ∧
      ∀ e, result = .error e → replaced.config = runtime.config ∧
        replaced.oscInput = runtime.config.oscInputEnabled := by
    intro e heq
    cases heq
    refine ⟨fun hok => ?_, fun _ _ => ⟨rfl, hlistens⟩⟩
    cases hok
  have hopens : ∀ oscInput, RtpLifecycle.OscInputServer.start config opened = .ok oscInput →
      ({ runtime with oscInput }, (.ok () : Except String Unit)) = (replaced, result) →
      (result = .ok () → replaced.oscInput = config.oscInputEnabled) ∧
      ∀ e, result = .error e → replaced.config = runtime.config ∧
        replaced.oscInput = runtime.config.oscInputEnabled := by
    intro oscInput hstart heq
    cases heq
    refine ⟨fun _ => oscInput_opened hstart, fun e he => ?_⟩
    cases he
  unfold RtpLifecycle.replaceOscInput at h
  dsimp only at h
  split at h
  · split at h
    · exact hkept _ h
    · split at h
      · split at h
        · rename_i oscInput hopened
          exact hopens oscInput hopened h
        · -- the old input is opened again
          split at h
          · rename_i recovered hreopened
            cases h
            refine ⟨fun hok => ?_, fun _ _ => ⟨rfl, oscInput_opened hreopened⟩⟩
            cases hok
          · rename_i hlost
            unfold RtpLifecycle.OscInputServer.start at hlost
            split at hlost
            · cases hlost
            · cases hlost
      · split at h
        · rename_i oscInput hopened
          exact hopens oscInput hopened h
        · exact hkept _ h
  · rename_i hsame
    simp only [not_or, not_not] at hsame
    cases h
    refine ⟨fun _ => hlistens.trans hsame.1, fun e he => ?_⟩
    cases he

theorem updateConfig_listening (hb : Listening b)
    (h : updateConfig b config opened (.ok ()) = (b', result)) : Listening b' := by
  unfold updateConfig at h
  split at h
  · cases h
    exact hb
  · rename_i runtime hrun
    split at h
    · rename_i replaced e hreplace
      obtain ⟨hconfig, hinput⟩ := (replaceOscInput_listens (hb runtime hrun) hreplace).2 e rfl
      cases h
      intro runtime' hsome
      cases hsome
      rw [hconfig]
      exact hinput
    · rename_i replaced hreplace
      have hinput := (replaceOscInput_listens (hb runtime hrun) hreplace).1 rfl
      cases h
      intro runtime' hsome
      cases hsome
      exact hinput

end Bridge

/-! ## One pass: the bridge and the disk -/

section Pass

variable {code : String} {P Q E : Change → Prop} {config : AppConfig} {answers : Answers}
  {found : Found} {force : Bool} {s₀ : Service}

theorem onAudio_spec {f : AudioEngine → AudioEngine × Except String Unit}
    (hok : ∀ s audio, P s → f s.audio = (audio, .ok ()) → Q { s with audio })
    (herror : ∀ s audio m, P s → f s.audio = (audio, .error m) → E { s with audio }) :
    Attempt.Spec P (onAudio code f) Q E := by
  intro s hs
  constructor
  · intro s' h
    unfold onAudio at h
    split at h
    · rename_i hf
      cases h
      exact hok s _ hs hf
    · cases h
  · intro s' e h
    unfold onAudio at h
    split at h
    · cases h
    · rename_i hf
      cases h
      exact herror s _ _ hs hf

theorem onBridge_spec {f : BridgeHandle → BridgeHandle × Except String Unit}
    (hok : ∀ s bridge, P s → f s.bridge = (bridge, .ok ()) → Q { s with bridge })
    (herror : ∀ s bridge m, P s → f s.bridge = (bridge, .error m) → E { s with bridge }) :
    Attempt.Spec P (onBridge code f) Q E := by
  intro s hs
  constructor
  · intro s' h
    unfold onBridge at h
    split at h
    · rename_i hf
      cases h
      exact hok s _ hs hf
    · cases h
  · intro s' e h
    unfold onBridge at h
    split at h
    · cases h
    · rename_i hf
      cases h
      exact herror s _ _ hs hf

/-- The rule of the audio step: what each of its branches has to do. -/
theorem applyAudio_rule
    (hrestart : Attempt.Spec (fun s => P s ∧ shouldRun found config s = true)
      (restartAudio config answers.start) Q E)
    (hstop : Attempt.Spec (fun s => P s ∧ shouldRun found config s = false ∧
      shouldStopAudio config.audio.enabled s.audioRestartAttempted s.audio.isRunning = true)
      (stopAudio answers.stop) Q E)
    (hcontrols : Attempt.Spec (fun s => P s ∧ shouldRun found config s = true ∧
      s.audioRestartAttempted = false ∧ s.audio.isRunning = true)
      (applyControls config answers) Q E)
    (hkeep : ∀ s, P s → shouldRun found config s = false →
      shouldStopAudio config.audio.enabled s.audioRestartAttempted s.audio.isRunning = false →
      Q s) : Attempt.Spec P (applyAudio found answers config force) Q E := by
  intro s hs
  cases hrun : shouldRun found config s with
  | true =>
    cases hagain : force || s.audioRestartAttempted || !s.audio.isRunning with
    | true =>
      refine (hrestart s ⟨hs, hrun⟩).congr ?_
      simp [applyAudio, hrun, hagain]
    | false =>
      have hsame := hagain
      simp only [Bool.or_eq_false_iff, Bool.not_eq_false'] at hsame
      refine (hcontrols s ⟨hs, hrun, hsame.1.2, hsame.2⟩).congr ?_
      simp [applyAudio, hrun, hagain]
  | false =>
    cases hstops : shouldStopAudio config.audio.enabled s.audioRestartAttempted
        s.audio.isRunning with
    | true =>
      refine (hstop s ⟨hs, hrun, hstops⟩).congr ?_
      simp [applyAudio, hrun, hstops]
    | false =>
      have hskip : Attempt.Spec (fun s' => s' = s) (.always id : Apply) Q E :=
        .always fun s' heq => heq ▸ hkeep s hs hrun hstops
      refine (hskip s rfl).congr ?_
      simp [applyAudio, hrun, hstops, Attempt.always]

theorem onAudio_keeps {f : AudioEngine → AudioEngine × Except String Unit}
    (h : ∀ s audio, P s → P { s with audio }) : (onAudio code f).Keeps P :=
  onAudio_spec (fun s audio hs _ => h s audio hs) (fun s audio _ hs _ => h s audio hs)

section Frame

variable (K : AppConfig → BridgeHandle → Prop)

theorem onAudio_frame (code : String) (f : AudioEngine → AudioEngine × Except String Unit) :
    (onAudio code f).Keeps fun s => K s.disk s.bridge :=
  onAudio_keeps fun _ _ hs => hs

/-- The audio steps leave the disk and the bridge alone. -/
theorem applyAudio_frame :
    (applyAudio found answers config force).Keeps fun s => K s.disk s.bridge := by
  refine applyAudio_rule (Attempt.Keeps.under ?_) (Attempt.Keeps.under ?_) (Attempt.Keeps.under ?_)
    fun s hs _ _ => hs
  · exact .andThen (.andThen (.always fun s hs => hs) (onAudio_frame K _ _))
      (.always fun s hs => hs)
  · exact .always fun s hs => hs
  · exact .andThen (.andThen
      (unlessSame_keeps (onAudio_frame K _ _) fun s hs => hs)
      (unlessSame_keeps (onAudio_frame K _ _) fun s hs => hs))
      (unlessSame_keeps (onAudio_frame K _ _) fun s hs => hs)

end Frame

/-- What holds of the disk and the bridge until the configuration is saved. -/
structure Held (s₀ : Service) (disk : AppConfig) (bridge : BridgeHandle) : Prop where
  disk : disk = s₀.disk
  recorded : Recorded bridge
  runs : bridge.inner.isSome = s₀.bridge.inner.isSome

theorem Held.syncRtp {disk : AppConfig} {bridge bridge' : BridgeHandle}
    {config : RtpLifecycle.Config} {network : Network} {result : Except String Unit}
    (hs : Held s₀ disk bridge) (h : syncRtp bridge config network force = (bridge', result)) :
    Held s₀ disk bridge' := by
  refine ⟨hs.disk, syncRtp_recorded hs.recorded h, ?_⟩
  rw [syncRtp_inner h]
  exact hs.runs

theorem Held.updateConfig {disk : AppConfig} {bridge bridge' : BridgeHandle}
    {config : RtpLifecycle.Config} {opened reopened result : Except String Unit}
    (hs : Held s₀ disk bridge)
    (h : updateConfig bridge config opened reopened = (bridge', result)) :
    Held s₀ disk bridge' := by
  have hsame := updateConfig_updated h
  exact ⟨hs.disk, hsame.recorded hs.recorded, hsame.runs.trans hs.runs⟩

theorem apply_held :
    Attempt.Spec (fun s : Change => Held s₀ s.disk s.bridge) (apply found answers config force)
      (fun s => Held s₀ s.disk s.bridge ∧ BridgeAs config.other s.bridge)
      (fun s => Held s₀ s.disk s.bridge) := by
  have hupdate : Attempt.Spec (fun s : Change => Held s₀ s.disk s.bridge)
      (onBridge "runtime.update-config-failed" fun bridge =>
        updateConfig bridge config.other answers.opened answers.reopened)
      (fun s => Held s₀ s.disk s.bridge ∧
        ∀ runtime, s.bridge.inner = some runtime → runtime.config = config.other)
      (fun s => Held s₀ s.disk s.bridge) :=
    onBridge_spec (fun s bridge hs h => ⟨hs.updateConfig h, updateConfig_runs h⟩)
      (fun s bridge m hs h => hs.updateConfig h)
  have hsync : Attempt.Spec (fun s : Change => Held s₀ s.disk s.bridge ∧
        ∀ runtime, s.bridge.inner = some runtime → runtime.config = config.other)
      (onBridge "runtime.sync-rtp-failed" fun bridge =>
        syncRtp bridge config.other answers.network force)
      (fun s => Held s₀ s.disk s.bridge ∧ BridgeAs config.other s.bridge)
      (fun s => Held s₀ s.disk s.bridge) := by
    refine onBridge_spec
      (fun s bridge hs h => ⟨hs.1.syncRtp h, ?_, syncRtp_as hs.1.recorded h⟩)
      (fun s bridge m hs h => hs.1.syncRtp h)
    show ∀ runtime, bridge.inner = some runtime → runtime.config = config.other
    rw [syncRtp_inner h]
    exact hs.2
  exact .andThen (.andThen (.andThen
    (Attempt.Keeps.onlyIf (onAudio_frame (Held s₀) _ _)) hupdate) hsync)
    ((applyAudio_frame fun disk bridge => Held s₀ disk bridge ∧ BridgeAs config.other bridge).weaken
      (fun s hs => hs) (fun s hs => hs) fun s hs => hs.1)

/-- Where the old OSC input can be opened again, no pass loses it. -/
theorem apply_listening (hreopened : answers.reopened = .ok ()) :
    (apply found answers config force).Keeps fun s => Listening s.bridge := by
  have hupdate : (onBridge "runtime.update-config-failed" fun bridge =>
      updateConfig bridge config.other answers.opened answers.reopened).Keeps
      fun s => Listening s.bridge := by
    rw [hreopened]
    exact onBridge_spec (fun s bridge hs h => updateConfig_listening hs h)
      (fun s bridge m hs h => updateConfig_listening hs h)
  have hsync : (onBridge "runtime.sync-rtp-failed" fun bridge =>
      syncRtp bridge config.other answers.network force).Keeps fun s => Listening s.bridge := by
    exact onBridge_spec (fun s bridge hs h => syncRtp_listening hs h)
      (fun s bridge m hs h => syncRtp_listening hs h)
  exact .andThen (.andThen (.andThen
    (.onlyIf (onAudio_frame (fun _ bridge => Listening bridge) _ _)) hupdate) hsync)
    (applyAudio_frame fun _ bridge => Listening bridge)

/-! ## One pass: the audio engine -/

/-- A control at the end of a pass: an engine that ran all along has kept it,
which is right where the request was the same before; or it is what the request
was sent as. -/
def Taken {V : Type} (before : Bool) (same : V → V → Bool) (send : V → V)
    (first remembered v r : V) : Prop :=
  before = true ∧ v = first ∧ (remembered = r ∨ same remembered r = true) ∨
    Setting same send v r

/-- The controls of the configuration `config` in an engine of `s₀`. -/
structure Took (s₀ : Service) (config : AppConfig) (c : Controls) : Prop where
  gain : Taken s₀.audio.isRunning beq clampGain s₀.audio.controls.gain s₀.disk.audio.gainDb
    c.gain config.audio.gainDb
  limiter : Taken s₀.audio.isRunning (· == ·) id s₀.audio.controls.limiterEnabled
    s₀.disk.audio.limiterEnabled c.limiterEnabled config.audio.limiterEnabled
  vstEq : Taken s₀.audio.isRunning VstEqSettings.eq id s₀.audio.controls.vstEq (currentEq s₀.disk)
    c.vstEq (currentEq config)
  gameMode : c.gameMode = config.audio.gameMode

/-- Each control is the one at first, or what the remembered request was sent as. -/
structure Follows (s₀ : Service) (s : Change) : Prop where
  gain : Tracked clampGain s₀.audio.controls.gain s₀.disk.audio.gainDb
    s.audio.controls.gain s.appliedGainDb
  limiter : Tracked id s₀.audio.controls.limiterEnabled s₀.disk.audio.limiterEnabled
    s.audio.controls.limiterEnabled s.appliedLimiter
  vstEq : Tracked id s₀.audio.controls.vstEq (currentEq s₀.disk)
    s.audio.controls.vstEq s.appliedVstEq

/-- An engine that was not started again ran at first, and follows. -/
def Ready (s₀ : Service) (s : Change) : Prop :=
  s.audioRestartAttempted = false → s.audio.isRunning = true →
    s₀.audio.isRunning = true ∧ Follows s₀ s

/-- What the audio step did, from `s`. -/
inductive Moved (found : Found) (config : AppConfig) (s s' : Change) : Prop where
  | restarted (hrun : shouldRun found config s = true) (hrestart : s'.audioRestartAttempted = true)
      (hstop : s'.audioStopAttempted = s.audioStopAttempted)
  | stopped (hrun : shouldRun found config s = false)
      (hstops : shouldStopAudio config.audio.enabled s.audioRestartAttempted
        s.audio.isRunning = true)
      (hrestart : s'.audioRestartAttempted = s.audioRestartAttempted)
      (hstop : s'.audioStopAttempted = true) (hstopped : s'.audio.lifecycle = .stopped)
  | kept (hrun : shouldRun found config s = true ∨
        shouldStopAudio config.audio.enabled s.audioRestartAttempted s.audio.isRunning = false)
      (hrestart : s'.audioRestartAttempted = s.audioRestartAttempted)
      (hstop : s'.audioStopAttempted = s.audioStopAttempted)
      (hkept : s'.audio.lifecycle = s.audio.lifecycle)

theorem isRunning_eq {e e' : AudioEngine} (h : e'.lifecycle = e.lifecycle) :
    e'.isRunning = e.isRunning := by
  unfold AudioEngine.isRunning
  rw [h]

theorem isRunning_iff {e : AudioEngine} : e.isRunning = true ↔ e.lifecycle = .running := by
  simp [AudioEngine.isRunning]

theorem hasRuntimeRequest_of_isRunning {e : AudioEngine} (h : e.isRunning = true) :
    e.hasRuntimeRequest = true := by
  unfold AudioEngine.hasRuntimeRequest
  rw [isRunning_iff.mp h]
  rfl

/-- While controls are sent to an engine that runs. -/
structure Sending (s₀ : Service) (config : AppConfig) (s₁ s : Change) : Prop where
  restart : s.audioRestartAttempted = s₁.audioRestartAttempted
  stop : s.audioStopAttempted = s₁.audioStopAttempted
  lifecycle : s.audio.lifecycle = s₁.audio.lifecycle
  running : s.audio.isRunning = true
  follows : Follows s₀ s
  gameMode : s.audio.controls.gameMode = config.audio.gameMode

section Controls

variable {s₁ s : Change} {audio : AudioEngine} {f : Controls → Controls}
  {answer : Except String Unit} {m : String}

theorem Sending.delivered (hs : Sending s₀ config s₁ s)
    (h : s.audio.control f answer = (audio, .ok ())) :
    audio.lifecycle = s₁.audio.lifecycle ∧ audio.isRunning = true ∧
      audio.controls = f s.audio.controls := by
  unfold AudioEngine.control at h
  split at h
  · rw [if_pos (hasRuntimeRequest_of_isRunning hs.running)] at h
    cases h
    exact ⟨hs.lifecycle, hs.running, rfl⟩
  · cases h

theorem Sending.refused (hs : Sending s₀ config s₁ s)
    (h : s.audio.control f answer = (audio, .error m)) : Sending s₀ config s₁ { s with audio } := by
  unfold AudioEngine.control at h
  split at h
  · cases h
  · cases h
    exact hs

theorem applyGainChange_spec (gain : F32) (answer : Except String Unit) :
    Attempt.Spec (Sending s₀ config s₁) (applyGainChange gain answer)
      (fun s => Sending s₀ config s₁ s ∧ (s.appliedGainDb = gain ∨ beq s.appliedGainDb gain = true))
      (Sending s₀ config s₁) := by
  refine unlessSame_spec (onAudio_spec (fun s audio hs h => ?_) fun s audio m hs h => ?_)
    fun s hs hsame => ⟨hs, .inr hsame⟩
  · unfold AudioEngine.setGain at h
    split at h
    · obtain ⟨hlife, hrun, hcontrols⟩ := hs.1.delivered h
      refine ⟨⟨hs.1.restart, hs.1.stop, hlife, hrun, ⟨.inr (.inr ?_), ?_, ?_⟩, ?_⟩, .inl rfl⟩
      · exact congrArg Controls.gain hcontrols
      · simpa only [hcontrols] using hs.1.follows.limiter
      · simpa only [hcontrols] using hs.1.follows.vstEq
      · simpa only [hcontrols] using hs.1.gameMode
    · cases h
  · unfold AudioEngine.setGain at h
    split at h
    · exact hs.1.refused h
    · cases h
      exact hs.1

theorem applyLimiterChange_spec (limiter : Bool) (answer : Except String Unit) :
    Attempt.Spec (Sending s₀ config s₁) (applyLimiterChange limiter answer)
      (fun s => Sending s₀ config s₁ s ∧
        (s.appliedLimiter = limiter ∨ (s.appliedLimiter == limiter) = true))
      (Sending s₀ config s₁) := by
  refine unlessSame_spec (onAudio_spec (fun s audio hs h => ?_)
    fun s audio m hs h => hs.1.refused h) fun s hs hsame => ⟨hs, .inr hsame⟩
  obtain ⟨hlife, hrun, hcontrols⟩ := hs.1.delivered h
  refine ⟨⟨hs.1.restart, hs.1.stop, hlife, hrun, ⟨?_, .inr (.inr ?_), ?_⟩, ?_⟩, .inl rfl⟩
  · simpa only [hcontrols] using hs.1.follows.gain
  · exact congrArg Controls.limiterEnabled hcontrols
  · simpa only [hcontrols] using hs.1.follows.vstEq
  · simpa only [hcontrols] using hs.1.gameMode

theorem applyVstEqChange_spec (eq : VstEqSettings) (answer : Except String Unit) :
    Attempt.Spec (Sending s₀ config s₁) (applyVstEqChange eq answer)
      (fun s => Sending s₀ config s₁ s ∧ (s.appliedVstEq = eq ∨ s.appliedVstEq.eq eq = true))
      (Sending s₀ config s₁) := by
  refine unlessSame_spec (onAudio_spec (fun s audio hs h => ?_)
    fun s audio m hs h => hs.1.refused h) fun s hs hsame => ⟨hs, .inr hsame⟩
  obtain ⟨hlife, hrun, hcontrols⟩ := hs.1.delivered h
  refine ⟨⟨hs.1.restart, hs.1.stop, hlife, hrun, ⟨?_, ?_, .inr (.inr ?_)⟩, ?_⟩, .inl rfl⟩
  · simpa only [hcontrols] using hs.1.follows.gain
  · simpa only [hcontrols] using hs.1.follows.limiter
  · exact congrArg Controls.vstEq hcontrols
  · simpa only [hcontrols] using hs.1.gameMode

def GainAs (config : AppConfig) (s : Change) : Prop :=
  s.appliedGainDb = config.audio.gainDb ∨ beq s.appliedGainDb config.audio.gainDb = true

def LimiterAs (config : AppConfig) (s : Change) : Prop :=
  s.appliedLimiter = config.audio.limiterEnabled ∨
    (s.appliedLimiter == config.audio.limiterEnabled) = true

theorem applyLimiterChange_keeps {limiter : Bool} (haudio : ∀ s audio, P s → P { s with audio })
    (hremember : ∀ s limiter, P s → P { s with appliedLimiter := limiter }) :
    (applyLimiterChange limiter answer).Keeps P :=
  unlessSame_keeps (onAudio_keeps haudio) fun s h => hremember s _ h

theorem applyVstEqChange_keeps {eq : VstEqSettings} (haudio : ∀ s audio, P s → P { s with audio })
    (hremember : ∀ s eq, P s → P { s with appliedVstEq := eq }) :
    (applyVstEqChange eq answer).Keeps P :=
  unlessSame_keeps (onAudio_keeps haudio) fun s h => hremember s _ h

theorem taken_of_tracked {V : Type} {same : V → V → Bool} {send : V → V}
    {first remembered v applied r : V} {before : Bool} (hbefore : before = true)
    (h : Tracked send first remembered v applied) (hr : applied = r ∨ same applied r = true) :
    Taken before same send first remembered v r :=
  (h.settled hr).imp (fun hkept => ⟨hbefore, hkept⟩) id

theorem applyControls_spec (hbefore : s₀.audio.isRunning = true) :
    Attempt.Spec (Sending s₀ config s₁) (applyControls config answers)
      (fun s => Sending s₀ config s₁ s ∧ Took s₀ config s.audio.controls)
      (Sending s₀ config s₁) := by
  -- what is remembered of a control stays while the others are sent
  have hlimiter := (@applyLimiterChange_spec config s₀ s₁
    config.audio.limiterEnabled answers.limiter).and (applyLimiterChange_keeps (P := GainAs config)
    (fun s audio h => h) fun s limiter h => h)
  have heq := (@applyVstEqChange_spec config s₀ s₁
    (currentEq config) answers.vstEq).and (applyVstEqChange_keeps
    (P := fun s => LimiterAs config s ∧ GainAs config s) (fun s audio h => h) fun s eq h => h)
  have hall := Attempt.Spec.andThen (Attempt.Spec.andThen
    (applyGainChange_spec config.audio.gainDb answers.gain)
    (hlimiter.weaken (fun s hs => hs) (fun s hs => ⟨hs.1.1, hs.1.2, hs.2⟩) fun s hs => hs.1))
    (heq.weaken (fun s hs => hs) (fun s hs => hs) fun s hs => hs.1)
  refine hall.weaken (fun s hs => hs) (fun s hs => ⟨hs.1.1, ?_⟩) fun s hs => hs
  obtain ⟨⟨hsending, heqAs⟩, hlimiterAs, hgainAs⟩ := hs
  exact ⟨taken_of_tracked hbefore hsending.follows.gain hgainAs,
    taken_of_tracked hbefore hsending.follows.limiter hlimiterAs,
    taken_of_tracked hbefore hsending.follows.vstEq heqAs, hsending.gameMode⟩

end Controls

theorem enabled_of_shouldRun {s : Change} (h : shouldRun found config s = true) :
    config.audio.enabled = true := by
  unfold shouldRun desiredAudioRunning at h
  by_contra hoff
  rw [Bool.not_eq_true] at hoff
  simp [hoff] at h

theorem took_settings {s : Service} : Took s config (audioSettingsFromConfig config).toControls :=
  ⟨.inr (.started _ _ _), .inr (.started _ _ _), .inr (.started _ _ _), rfl⟩

theorem restartAudio_spec (started : Started) (s₁ : Change)
    (henabled : config.audio.enabled = true) :
    Attempt.Spec (fun s => s = s₁) (restartAudio config started)
      (fun s => (s.audioRestartAttempted = true ∧ s.audioStopAttempted = s₁.audioStopAttempted) ∧
        s.audio = ⟨.running, (audioSettingsFromConfig config).toControls⟩)
      (fun s => s.audioRestartAttempted = true ∧ s.audioStopAttempted = s₁.audioStopAttempted) := by
  have hstart : Attempt.Spec (fun s : Change => s.audioRestartAttempted = true ∧
        s.audioStopAttempted = s₁.audioStopAttempted)
      (onAudio "audio.start-failed" fun _ =>
        AudioEngine.start (audioSettingsFromConfig config) started)
      (fun s => (s.audioRestartAttempted = true ∧ s.audioStopAttempted = s₁.audioStopAttempted) ∧
        s.audio = ⟨.running, (audioSettingsFromConfig config).toControls⟩)
      (fun s => s.audioRestartAttempted = true ∧
        s.audioStopAttempted = s₁.audioStopAttempted) := by
    refine onAudio_spec (fun s audio hs h => ⟨hs, ?_⟩) fun s audio m hs _ => hs
    unfold AudioEngine.start at h
    split at h
    · cases h
      simp [audioSettingsFromConfig, henabled]
    · cases h
  refine .andThen (.andThen (.always fun s hs => ?_) hstart) (.always fun s hs => hs)
  rw [hs]
  exact ⟨rfl, rfl⟩

/-- What the audio step does to the engine, when stopping it works. -/
theorem applyAudio_spec (hstop : answers.stop = .ok) (s₁ : Change) :
    Attempt.Spec
      (fun s => s = s₁ ∧ Ready s₀ s ∧
        (s.audio.isRunning = true → s.audio.controls.gameMode = config.audio.gameMode))
      (applyAudio found answers config force)
      (fun s' => (s'.audio.isRunning = shouldRun found config s₁ ∧
          (s'.audio.isRunning = true → Took s₀ config s'.audio.controls)) ∧
        Ready s₀ s' ∧ Moved found config s₁ s')
      (fun s' => Ready s₀ s' ∧ Moved found config s₁ s') := by
  refine applyAudio_rule ?_ ?_ ?_ ?_
  · refine fun s hs => ?_
    obtain ⟨⟨rfl, -, -⟩, hrun⟩ := hs
    have hmoved : ∀ {s' : Change}, s'.audioRestartAttempted = true ∧
        s'.audioStopAttempted = s.audioStopAttempted → Ready s₀ s' ∧ Moved found config s s' := by
      intro s' hs'
      refine ⟨fun hno => ?_, .restarted hrun hs'.1 hs'.2⟩
      rw [hs'.1] at hno
      cases hno
    refine (restartAudio_spec answers.start s (enabled_of_shouldRun hrun) s rfl).mono
      (fun s' hs' => ⟨?_, hmoved hs'.1⟩) fun s' hs' => hmoved hs'
    rw [hs'.2]
    exact ⟨hrun.symm, fun _ => took_settings⟩
  · rw [hstop]
    refine .always fun s hs => ?_
    obtain ⟨⟨rfl, -, -⟩, hrun, hstops⟩ := hs
    refine ⟨⟨hrun.symm, fun h => ?_⟩, fun _ h => ?_, .stopped hrun hstops rfl rfl rfl⟩
    · cases h
    · cases h
  · refine fun s hs => ?_
    obtain ⟨⟨rfl, hready, hgameMode⟩, hrun, hrestart, hruns⟩ := hs
    obtain ⟨hbefore, hfollows⟩ := hready hrestart hruns
    have hready' : ∀ {s'}, Sending s₀ config s s' → Ready s₀ s' ∧ Moved found config s s' :=
      fun hs' => ⟨fun _ _ => ⟨hbefore, hs'.follows⟩,
        .kept (.inl hrun) hs'.restart hs'.stop hs'.lifecycle⟩
    refine (applyControls_spec hbefore s ⟨rfl, rfl, rfl, hruns, hfollows, hgameMode hruns⟩).mono
      (fun s' hs' => ⟨⟨hs'.1.running.trans hrun.symm, fun _ => hs'.2⟩, hready' hs'.1⟩)
      fun s' hs' => hready' hs'
  · intro s hs hrun hkeeps
    obtain ⟨rfl, hready, -⟩ := hs
    have hquiet : s.audio.isRunning = false := by
      simp only [shouldStopAudio, Bool.or_eq_false_iff] at hkeeps
      exact hkeeps.2
    refine ⟨⟨hquiet.trans hrun.symm, fun h => ?_⟩, hready, .kept (.inr hkeeps) rfl rfl rfl⟩
    rw [hquiet] at h
    cases h

/-- What the audio step decides by is the same. -/
structure Alike (s₁ s : Change) : Prop where
  restart : s.audioRestartAttempted = s₁.audioRestartAttempted
  stop : s.audioStopAttempted = s₁.audioStopAttempted
  lifecycle : s.audio.lifecycle = s₁.audio.lifecycle

theorem Moved.of_alike {s₁ s s' : Change} (hs : Alike s₁ s) (h : Moved found config s s') :
    Moved found config s₁ s' := by
  have hrun : shouldRun found config s = shouldRun found config s₁ := by
    unfold shouldRun
    rw [hs.stop]
  have hruns := isRunning_eq hs.lifecycle
  cases h with
  | restarted hrun' hrestart hstop => exact .restarted (hrun ▸ hrun') hrestart (hstop.trans hs.stop)
  | stopped hrun' hstops hrestart hstop hstopped =>
    rw [hs.restart, hruns] at hstops
    exact .stopped (hrun ▸ hrun') hstops (hrestart.trans hs.restart) hstop hstopped
  | kept hrun' hrestart hstop hkept =>
    rw [hrun, hs.restart, hruns] at hrun'
    exact .kept hrun' (hrestart.trans hs.restart) (hstop.trans hs.stop) (hkept.trans hs.lifecycle)

/-- The whole pass, when stopping the engine works. A failure before the audio
step leaves the engine as it was but for its game mode. -/
theorem apply_spec (hstop : answers.stop = .ok) (s₁ : Change) :
    Attempt.Spec (fun s => Alike s₁ s ∧ Ready s₀ s) (apply found answers config force)
      (fun s' => (s'.audio.isRunning = shouldRun found config s₁ ∧
          (s'.audio.isRunning = true → Took s₀ config s'.audio.controls)) ∧
        Ready s₀ s' ∧ Moved found config s₁ s')
      (fun s' => Ready s₀ s' ∧ (Moved found config s₁ s' ∨ Alike s₁ s')) := by
  have hgameMode : Attempt.Spec (fun s => Alike s₁ s ∧ Ready s₀ s)
      (Attempt.onlyIf (·.audio.isRunning) (onAudio "audio.game-mode-failed" fun audio =>
        audio.setGameMode config.audio.gameMode answers.gameMode))
      (fun s => (Alike s₁ s ∧ Ready s₀ s) ∧
        (s.audio.isRunning = true → s.audio.controls.gameMode = config.audio.gameMode))
      (fun s => Alike s₁ s ∧ Ready s₀ s) := by
    refine .onlyIf (onAudio_spec (fun s audio hs h => ?_) fun s audio m hs h => ?_)
      fun s hs hno => ?_
    · unfold AudioEngine.setGameMode at h
      split at h
      · cases h
        refine ⟨⟨⟨hs.1.1.restart, hs.1.1.stop, hs.1.1.lifecycle⟩, fun hno hruns => ?_⟩,
          fun _ => rfl⟩
        obtain ⟨hbefore, hfollows⟩ := hs.1.2 hno hruns
        exact ⟨hbefore, hfollows.gain, hfollows.limiter, hfollows.vstEq⟩
      · cases h
    · unfold AudioEngine.setGameMode at h
      split at h
      · cases h
      · cases h
        refine ⟨⟨hs.1.1.restart, hs.1.1.stop, hs.1.1.lifecycle⟩, fun hno hruns => ?_⟩
        obtain ⟨hbefore, hfollows⟩ := hs.1.2 hno hruns
        exact ⟨hbefore, hfollows.gain, hfollows.limiter, hfollows.vstEq⟩
    · refine ⟨hs, fun hruns => ?_⟩
      rw [hno] at hruns
      cases hruns
  have hbridge : ∀ code f, (onBridge code f).Keeps fun s => (Alike s₁ s ∧ Ready s₀ s) ∧
      (s.audio.isRunning = true → s.audio.controls.gameMode = config.audio.gameMode) := by
    have hkeeps : ∀ (s : Change) bridge, (Alike s₁ s ∧ Ready s₀ s) ∧
        (s.audio.isRunning = true → s.audio.controls.gameMode = config.audio.gameMode) →
        (Alike s₁ { s with bridge } ∧ Ready s₀ { s with bridge }) ∧
        (s.audio.isRunning = true → s.audio.controls.gameMode = config.audio.gameMode) := by
      intro s bridge hs
      refine ⟨⟨⟨hs.1.1.restart, hs.1.1.stop, hs.1.1.lifecycle⟩, fun hno hruns => ?_⟩, hs.2⟩
      obtain ⟨hbefore, hfollows⟩ := hs.1.2 hno hruns
      exact ⟨hbefore, hfollows.gain, hfollows.limiter, hfollows.vstEq⟩
    exact fun code f => onBridge_spec (fun s bridge hs _ => hkeeps s bridge hs)
      fun s bridge _ hs _ => hkeeps s bridge hs
  have haudio : Attempt.Spec (fun s => (Alike s₁ s ∧ Ready s₀ s) ∧
      (s.audio.isRunning = true → s.audio.controls.gameMode = config.audio.gameMode))
      (applyAudio found answers config force)
      (fun s' => (s'.audio.isRunning = shouldRun found config s₁ ∧
          (s'.audio.isRunning = true → Took s₀ config s'.audio.controls)) ∧
        Ready s₀ s' ∧ Moved found config s₁ s')
      (fun s' => Ready s₀ s' ∧ Moved found config s₁ s') := by
    intro s hs
    have hrun : shouldRun found config s = shouldRun found config s₁ := by
      unfold shouldRun
      rw [hs.1.1.stop]
    refine (applyAudio_spec hstop s s ⟨rfl, hs.1.2, hs.2⟩).mono (fun s' hs' => ?_) fun s' hs' => ?_
    · exact ⟨hrun ▸ hs'.1, hs'.2.1, hs'.2.2.of_alike hs.1.1⟩
    · exact ⟨hs'.1, hs'.2.of_alike hs.1.1⟩
  refine .andThen (.andThen (.andThen (hgameMode.weaken (fun s hs => hs) (fun s hs => hs) ?_)
    ((hbridge _ _).weaken (fun s hs => hs) (fun s hs => hs) ?_))
    ((hbridge _ _).weaken (fun s hs => hs) (fun s hs => hs) ?_))
    (haudio.weaken (fun s hs => hs) (fun s hs => hs) ?_)
  · exact fun s hs => ⟨hs.2, .inr hs.1⟩
  · exact fun s hs => ⟨hs.1.2, .inr hs.1.1⟩
  · exact fun s hs => ⟨hs.1.2, .inr hs.1.1⟩
  · exact fun s hs => ⟨hs.1, .inl hs.2⟩

end Pass

end RtpOscMidi.L2.ConfigChange
