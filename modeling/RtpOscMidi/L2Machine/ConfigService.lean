import RtpOscMidi.Core.LTS
import RtpOscMidi.Core.Transaction
import RtpOscMidi.L2Machine.Config
import RtpOscMidi.L2Machine.RtpLifecycle

/-!
# The services that use the configuration

A change of the configuration goes to the bridge, to the RTP server, to the
audio engine and then to the disk, and any of them can refuse it. What went
through before is taken back by the same steps with the configuration before.
The engine is started and stopped, or only gets the controls that differ from
those sent last (`unlessSame`). What the engine, the network and the disk answer
is an argument; what a failed start leaves of the engine is one too.

An operation is one step, and so are the writes of a resolved device identity.
In the program a change, a start and a stop of the bridge and a restart of RTP
exclude each other by a lock; the audio starts, the reload and the write of a
device identity do not take it, so that here they come before or after a
change and never within it.
-/
namespace RtpOscMidi.L2.ConfigChange

open Core Core.Binary32
open Config (F32 VstEqSettings)
open RtpLifecycle (BridgeHandle Network updateConfig syncRtp rtpRequested)

/-- What `persist_resolved_audio_device` looks at. -/
structure AudioOutput where
  device : Option String
  deviceId : Option String
  deriving DecidableEq, Repr

abbrev AppConfig := Config.AppConfig AudioOutput RtpLifecycle.Config

instance : Inhabited AudioOutput := ⟨⟨none, none⟩⟩

instance : Inhabited RtpLifecycle.Config := ⟨.default⟩

/-- mirrors src-tauri/src/config.rs:402-414 -/
def defaultConfig : AppConfig := Config.AppConfig.default _ _

/-- mirrors src-tauri/src/error.rs:8-16 -/
structure CommandError where
  code : String
  domain : String
  message : String
  rollbackError : Option String
  deriving DecidableEq, Repr

/-- mirrors src-tauri/src/error.rs:33-37 -/
def CommandError.toString (e : CommandError) : String := s!"{e.code}: {e.message}"

/-- mirrors src-tauri/src/application/service_common.rs:127-133 -/
def configError (code message : String) : CommandError := ⟨code, "config", message, none⟩

def runtimeError (code message : String) : CommandError := ⟨code, "runtime", message, none⟩

/-! ## The audio engine -/

def bundledVstEqKey : String := "__bundled_default__"

/-- The settings of the plugin that is used. -/
def currentEq (config : AppConfig) : VstEqSettings :=
  (config.audio.vstEqByPlugin.lookup (config.audio.vstPluginId.getD bundledVstEqKey)).getD .default

/-- What the engine plays with. -/
structure Controls where
  gain : F32
  limiterEnabled : Bool
  vstEq : VstEqSettings
  gameMode : Bool
  deriving DecidableEq, Repr

structure AudioSettings extends Controls where
  enabled : Bool
  deriving DecidableEq, Repr

/-- mirrors src-tauri/src/tauri/utils.rs:159-186 -/
def audioSettingsFromConfig (config : AppConfig) : AudioSettings where
  enabled := config.audio.enabled
  gain := config.audio.gainDb
  limiterEnabled := config.audio.limiterEnabled
  vstEq := currentEq config
  gameMode := config.audio.gameMode

/-- `recovering`: a worker that is wanted and does not run. -/
inductive Lifecycle where
  | stopped | recovering | running
  deriving DecidableEq, Repr

structure AudioEngine where
  lifecycle : Lifecycle
  controls : Controls
  deriving DecidableEq, Repr

/-- mirrors src-tauri/src/audio/engine.rs:151-157 -/
def AudioEngine.isRunning (e : AudioEngine) : Bool := e.lifecycle == .running

/-- mirrors src-tauri/src/audio/engine.rs:173-179 -/
def AudioEngine.hasRuntimeRequest (e : AudioEngine) : Bool := e.lifecycle != .stopped

/-- A command that timed out may have been carried out. -/
inductive Switched where
  | ok
  | failed (gameMode : Bool) (message : String)
  deriving DecidableEq, Repr

inductive Started where
  | ok
  | failed (left : AudioEngine) (message : String)
  deriving DecidableEq, Repr

/-- A stop that fails is only logged. -/
inductive Stopped where
  | ok
  | failed (left : Lifecycle)
  deriving DecidableEq, Repr

/-- mirrors src-tauri/src/audio/game_mode.rs:171-195 -/
def AudioEngine.setGameMode (e : AudioEngine) (enabled : Bool) :
    Switched → AudioEngine × Except String Unit
  | .ok => ({ e with controls := { e.controls with gameMode := enabled } }, .ok ())
  | .failed gameMode message =>
    ({ e with controls := { e.controls with gameMode } }, .error message)

/-- mirrors src-tauri/src/audio/engine_lifecycle.rs:456-609 -/
def AudioEngine.start (settings : AudioSettings) : Started → AudioEngine × Except String Unit
  | .ok => (⟨if settings.enabled then .running else .stopped, settings.toControls⟩, .ok ())
  | .failed left message => (left, .error message)

/-- mirrors src-tauri/src/audio/engine_lifecycle.rs:206-235 -/
def AudioEngine.stop (e : AudioEngine) : Stopped → AudioEngine
  | .ok => { e with lifecycle := .stopped }
  | .failed left => { e with lifecycle := left }

/-- A control that was admitted reaches an engine that is wanted. -/
def AudioEngine.control (e : AudioEngine) (f : Controls → Controls) :
    Except String Unit → AudioEngine × Except String Unit
  | .ok () => (if e.hasRuntimeRequest then { e with controls := f e.controls } else e, .ok ())
  | .error message => (e, .error message)

def clampGain (gainDb : F32) : F32 := clamp gainDb 0xC2700000 0x41400000 -- -60, 12

/-- mirrors src-tauri/src/audio/engine_status.rs:42-57 -/
def AudioEngine.setGain (e : AudioEngine) (gainDb : F32) (admitted : Except String Unit) :
    AudioEngine × Except String Unit :=
  if isFinite gainDb then e.control (fun c => { c with gain := clampGain gainDb }) admitted
  else (e, .error "Gain dB must be finite")

/-- mirrors src-tauri/src/audio/engine_status.rs:59-70 -/
def AudioEngine.setLimiterEnabled (e : AudioEngine) (enabled : Bool)
    (admitted : Except String Unit) : AudioEngine × Except String Unit :=
  e.control (fun c => { c with limiterEnabled := enabled }) admitted

/-- mirrors src-tauri/src/audio/engine_status.rs:72-84 -/
def AudioEngine.setVstEq (e : AudioEngine) (settings : VstEqSettings)
    (admitted : Except String Unit) : AudioEngine × Except String Unit :=
  e.control (fun c => { c with vstEq := settings }) admitted

/-! ## A change -/

/-- What a change can touch. -/
structure Service where
  disk : AppConfig
  bridge : BridgeHandle
  audio : AudioEngine
  deriving DecidableEq, Repr

/-- A file that cannot be read is taken for the default configuration.
mirrors src-tauri/src/config.rs:457-462 -/
def Service.load (s : Service) : Except String Unit → AppConfig
  | .ok () => s.disk
  | .error _ => defaultConfig

/-- The state that an operation takes to be there, after its read of the file. -/
def Service.seen (s : Service) (read : Except String Unit) : Service :=
  { s with disk := s.load read }

/-- What the steps of one change remember. -/
structure Change extends Service where
  audioRestartAttempted : Bool
  audioStopAttempted : Bool
  appliedGainDb : F32
  appliedLimiter : Bool
  appliedVstEq : VstEqSettings
  deriving DecidableEq, Repr

/-- What one pass over the runtime is answered. -/
structure Answers where
  gameMode : Switched
  opened : Except String Unit
  reopened : Except String Unit
  network : Network
  start : Started
  stop : Stopped
  gain : Except String Unit
  limiter : Except String Unit
  vstEq : Except String Unit

/-- What a change finds.
mirrors src-tauri/src/application/service_config.rs:64-67 -/
structure Found where
  previous : AppConfig
  audioWasRunning : Bool
  audioWasRequested : Bool
  bridgeRunning : Bool

abbrev Apply := Attempt Change CommandError

def onAudio (code : String) (f : AudioEngine → AudioEngine × Except String Unit) : Apply := fun s =>
  match f s.audio with
  | (audio, .ok ()) => ({ s with audio }, .ok ())
  | (audio, .error message) => ({ s with audio }, .error (runtimeError code message))

def onBridge (code : String) (f : BridgeHandle → BridgeHandle × Except String Unit) : Apply :=
  fun s =>
    match f s.bridge with
    | (bridge, .ok ()) => ({ s with bridge }, .ok ())
    | (bridge, .error message) => ({ s with bridge }, .error (runtimeError code message))

/-- mirrors src-tauri/src/application/service_config.rs:194-204 -/
def applyGainChange (requested : F32) (answer : Except String Unit) : Apply :=
  unlessSame beq (·.appliedGainDb) (fun gain s => { s with appliedGainDb := gain })
    (fun gain => onAudio "audio.set-gain-failed" (·.setGain gain answer)) requested

/-- mirrors src-tauri/src/application/service_config.rs:206-216 -/
def applyLimiterChange (requested : Bool) (answer : Except String Unit) : Apply :=
  unlessSame (· == ·) (·.appliedLimiter) (fun limiter s => { s with appliedLimiter := limiter })
    (fun limiter => onAudio "audio.set-limiter-failed" (·.setLimiterEnabled limiter answer))
    requested

/-- mirrors src-tauri/src/application/service_config.rs:218-228 -/
def applyVstEqChange (requested : VstEqSettings) (answer : Except String Unit) : Apply :=
  unlessSame VstEqSettings.eq (·.appliedVstEq) (fun eq s => { s with appliedVstEq := eq })
    (fun eq => onAudio "audio.set-vst-eq-failed" (·.setVstEq eq answer)) requested

/-- mirrors src-tauri/src/application/service_config.rs:232-245 -/
def desiredAudioRunning (previousEnabled nextEnabled initiallyRunning bridgeRunning : Bool) :
    Bool :=
  if !nextEnabled then false
  else if previousEnabled == nextEnabled then initiallyRunning
  else nextEnabled && (bridgeRunning || initiallyRunning)

/-- mirrors src-tauri/src/application/service_config.rs:247-249 -/
def shouldStopAudio (enabled restartAttempted running : Bool) : Bool :=
  !enabled || restartAttempted || running

/-- mirrors src-tauri/src/application/service_config.rs:104-110 -/
def shouldRun (found : Found) (config : AppConfig) (s : Change) : Bool :=
  desiredAudioRunning found.previous.audio.enabled config.audio.enabled
    (found.audioWasRunning ||
      (s.audioStopAttempted && config.audio.enabled && found.audioWasRequested))
    found.bridgeRunning

/-- mirrors src-tauri/src/application/service_config.rs:112-135 -/
def restartAudio (config : AppConfig) (started : Started) : Apply :=
  ((Attempt.always fun s => { s with audioRestartAttempted := true }).andThen
    (onAudio "audio.start-failed" fun _ =>
      AudioEngine.start (audioSettingsFromConfig config) started)).andThen
    (.always fun s =>
      { s with
        appliedGainDb := config.audio.gainDb
        appliedLimiter := config.audio.limiterEnabled
        appliedVstEq := currentEq config })

/-- mirrors src-tauri/src/application/service_config.rs:136-144 -/
def stopAudio (stopped : Stopped) : Apply :=
  .always fun s => { s with audioStopAttempted := true, audio := s.audio.stop stopped }

/-- mirrors src-tauri/src/application/service_config.rs:145-174 -/
def applyControls (config : AppConfig) (answers : Answers) : Apply :=
  ((applyGainChange config.audio.gainDb answers.gain).andThen
    (applyLimiterChange config.audio.limiterEnabled answers.limiter)).andThen
    (applyVstEqChange (currentEq config) answers.vstEq)

/-- mirrors src-tauri/src/application/service_config.rs:104-176 -/
def applyAudio (found : Found) (answers : Answers) (config : AppConfig) (force : Bool) : Apply :=
  fun s =>
    let run := shouldRun found config s
    if run && (force || s.audioRestartAttempted || !s.audio.isRunning) then
      restartAudio config answers.start s
    else if !run && shouldStopAudio config.audio.enabled s.audioRestartAttempted
        s.audio.isRunning then
      stopAudio answers.stop s
    else if run then applyControls config answers s
    else (s, .ok ())

/-- mirrors src-tauri/src/application/service_config.rs:88-177 -/
def apply (found : Found) (answers : Answers) (config : AppConfig) (force : Bool) : Apply :=
  (((Attempt.onlyIf (·.audio.isRunning) (onAudio "audio.game-mode-failed" fun audio =>
      audio.setGameMode config.audio.gameMode answers.gameMode)).andThen
    (onBridge "runtime.update-config-failed" fun bridge =>
      updateConfig bridge config.other answers.opened answers.reopened)).andThen
    (onBridge "runtime.sync-rtp-failed" fun bridge =>
      syncRtp bridge config.other answers.network force)).andThen
    (applyAudio found answers config force)

/-- The file is replaced as a whole or not at all.
mirrors src-tauri/src/application/service_config.rs:178-183 -/
def persist (config : AppConfig) : Except String Unit → Apply
  | .ok () => fun s => ({ s with disk := config }, .ok ())
  | .error message => fun s => (s, .error (configError "config.save-failed" message))

/-- What is returned, with the error of a failed rollback in it. -/
def report : Outcome CommandError → Except CommandError Unit
  | .committed => .ok ()
  | .undone error => .error error
  | .torn error rollback => .error { error with rollbackError := some rollback.toString }

/-- mirrors src-tauri/src/application/service_config.rs:36-55 -/
def commitConfigChange (next : AppConfig) (apply persist rollback : Apply) (s : Change) :
    Change × Except CommandError Unit :=
  match next.validate with
  | .error message => (s, .error (configError "config.invalid" message))
  | .ok () =>
    match transact apply persist rollback s with
    | (s', outcome) => (s', report outcome)

structure ChangeAnswers where
  read : Except String Unit
  apply : Answers
  saved : Except String Unit
  rollback : Answers

def Service.found (s : Service) : Found :=
  ⟨s.disk, s.audio.isRunning, s.audio.hasRuntimeRequest, s.bridge.inner.isSome⟩

def Service.change (s : Service) : Change :=
  { s with
    audioRestartAttempted := false
    audioStopAttempted := false
    appliedGainDb := s.disk.audio.gainDb
    appliedLimiter := s.disk.audio.limiterEnabled
    appliedVstEq := currentEq s.disk }

/-- mirrors src-tauri/src/application/service_config.rs:57-190 -/
def applyAndSaveConfig (s : Service) (config : AppConfig) (forceRestart : Bool)
    (answers : ChangeAnswers) : Service × Except CommandError Unit :=
  let previous := s.seen answers.read
  match commitConfigChange config (apply previous.found answers.apply config forceRestart)
    (persist config answers.saved) (apply previous.found answers.rollback previous.disk false)
    { previous.change with disk := s.disk } with
  | (s', result) => (s'.toService, result)

/-! ## The other operations -/

/-- `active` is the name and the identity of the device that plays.
mirrors src-tauri/src/application/service_common.rs:88-117 -/
def persistResolvedAudioDevice (s : Service) (config : AppConfig)
    (active : Option (String × String)) (read saved : Except String Unit) : Service :=
  if config.audio.other.deviceId.isSome || config.audio.other.device.isNone then s
  else match active with
    | none => s
    | some (name, deviceId) =>
      if config.audio.other.device ≠ some name then s
      else
        let migrated := s.load read
        if migrated.audio.other.deviceId.isNone ∧
            migrated.audio.other.device = config.audio.other.device then
          match saved with
          | .ok () =>
            let other := { migrated.audio.other with deviceId := some deviceId }
            { s with
              disk := { migrated with
                version := Config.currentVersion
                audio := { migrated.audio with other } } }
          | .error _ => s
        else s

/-- mirrors src-tauri/src/application/service_runtime.rs:46-84 -/
def startBridge (s : Service) (config : AppConfig) (saved : Except String Unit)
    (started : RtpLifecycle.Started) (audio : Started) : Service :=
  match saved with
  | .error _ => s
  | .ok () =>
    match RtpLifecycle.start s.bridge config.other started with
    | (bridge, .error _) => { s with disk := config, bridge }
    | (bridge, .ok _) =>
      if config.audio.enabled then
        { disk := config, bridge
          audio := (AudioEngine.start (audioSettingsFromConfig config) audio).1 }
      else { s with disk := config, bridge }

/-- mirrors src-tauri/src/application/service_runtime.rs:86-106 -/
def stopBridge (s : Service) (stopped : Stopped) : Service :=
  { s with bridge := RtpLifecycle.stop s.bridge, audio := s.audio.stop stopped }

/-- mirrors src-tauri/src/application/service_audio.rs:266-290 -/
def reloadVst (s : Service) (read : Except String Unit) (started : Started) : Service :=
  let config := s.load read
  if config.audio.enabled then
    { s with audio := (AudioEngine.start (audioSettingsFromConfig config) started).1 }
  else s

/-- The start that `open_vst_ui` and `ping_audio` make first.
mirrors src-tauri/src/application/service_audio.rs:175-195,240-259 -/
def startAudio (s : Service) (read : Except String Unit) (started : Started) : Service :=
  if s.audio.isRunning then s else reloadVst s read started

/-- mirrors src-tauri/src/application/service_runtime.rs:155-165 -/
def restartRtp (s : Service) (read : Except String Unit) (network : Network) : Service :=
  { s with bridge := (syncRtp s.bridge (s.load read).other network true).1 }

/-- A worker that is wanted fails, or plays again with what it was given. -/
def AudioEngine.worker (e : AudioEngine) (up : Bool) : AudioEngine :=
  if e.hasRuntimeRequest then { e with lifecycle := if up then .running else .recovering } else e

inductive Op where
  | change (config : AppConfig) (force : Bool) (answers : ChangeAnswers)
  | persistDevice (config : AppConfig) (active : Option (String × String))
    (read saved : Except String Unit)
  | startBridge (config : AppConfig) (saved : Except String Unit) (started : RtpLifecycle.Started)
    (audio : Started)
  | stopBridge (stopped : Stopped)
  | restartRtp (read : Except String Unit) (network : Network)
  | startAudio (read : Except String Unit) (started : Started)
  | reloadVst (read : Except String Unit) (started : Started)
  | worker (up : Bool)

def step (s : Service) : Op → Service
  | .change config force answers => (applyAndSaveConfig s config force answers).1
  | .persistDevice config active read saved =>
    persistResolvedAudioDevice s config active read saved
  | .startBridge config saved started audio => ConfigChange.startBridge s config saved started audio
  | .stopBridge stopped => ConfigChange.stopBridge s stopped
  | .restartRtp read network => ConfigChange.restartRtp s read network
  | .startAudio read started => ConfigChange.startAudio s read started
  | .reloadVst read started => ConfigChange.reloadVst s read started
  | .worker up => { s with audio := s.audio.worker up }

/-- Any configuration on the disk, and nothing runs. -/
def Initial (s : Service) : Prop :=
  s.bridge = .new ∧ s.audio.lifecycle = .stopped

def system : LTS Service Op := .ofStep Initial fun s op => some (step s op)

end RtpOscMidi.L2.ConfigChange
