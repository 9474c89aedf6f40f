import RtpOscMidi.Core.Bytes
import RtpOscMidi.Core.IoError
import RtpOscMidi.Core.Json
import RtpOscMidi.L2Machine.Config

/-!
# The control frames of the VST worker

A control message is written as JSON behind its length. What is longer than
`maxControlFrameBytes` is not written; a response is then answered with an
error under the same request. `Serde` is the JSON library: the text of a value
and the value of a text.

The numbers of a message are any `f32`: the code checks some of them, but
neither those that a plugin reports for its parameters nor those of an
equalizer that is set while it plays. The number of blocks rendered ahead is
checked before a load is written, and again where it is read.

* `decode_encode`: a message comes back from its JSON exactly when its numbers
  are finite and its blocks are at most two.
* `read_stream_iff`: what was written is read back, in order and to the last
  byte, exactly when this is so for all its messages.
-/
namespace RtpOscMidi.L1.ControlFrame

open Core
open Core.Binary32 (isFinite)
open L2.Config (F32 EqShelfSettings EqPeakSettings VstEqSettings defaultRenderAheadBlocks
  deserializeRenderAheadBlocks)

/-- mirrors src-tauri/src/audio/runtime_state.rs:60-66 -/
inductive DspThreadPriority where
  | mmcss
  | timeCritical
  deriving DecidableEq, Repr

def DspThreadPriority.codec : Codec DspThreadPriority :=
  .total (fun | .mmcss => .str "mmcss" | .timeCritical => .str "timeCritical")
    (fun
      | .str s =>
        if s = "mmcss" then some .mmcss else if s = "timeCritical" then some .timeCritical else none
      | _ => none)
    fun p => by
      cases p with
      | mmcss => rfl
      | timeCritical => rfl

theorem deserializeRenderAheadBlocks_eq (n : UInt32) :
    (deserializeRenderAheadBlocks n).toOption = if decide (n ≤ 2) then some n else none := by
  unfold deserializeRenderAheadBlocks
  by_cases h : n ≤ 2
  · rw [if_neg (UInt32.not_lt.mpr h), decide_eq_true h]
    rfl
  · rw [if_pos (UInt32.not_le.mp h), decide_eq_false h]
    rfl

/-- The field with `deserialize_with`: any number is written; 0, 1 and 2 are read.
mirrors src-tauri/src/audio/runtime_state.rs:96-100 -/
def renderAheadBlocks : Codec UInt32 :=
  .check .u32 (fun n => (deserializeRenderAheadBlocks n).toOption) (· ≤ 2)
    deserializeRenderAheadBlocks_eq

def optionalBool : Codec (Option Bool) := .option .ofBool fun _ h => by cases h

def optionalString : Codec (Option String) := .option .ofString fun _ h => by cases h

def optionalU64 : Codec (Option UInt64) := .option .u64 fun _ h => by cases h

/-- mirrors src-tauri/src/realtime.rs:80-87 -/
structure ThreadDiagnostics where
  name : String
  mmcssProfile : String
  highPriority : Bool
  fallbackApplied : Bool

def ThreadDiagnostics.codec : Codec ThreadDiagnostics :=
  Codec.via (Fields.record (
    .cons "name" none .ofString <|
    .cons "mmcssProfile" none .ofString <|
    .cons "highPriority" none .ofBool <|
    .cons "fallbackApplied" none .ofBool <|
    .nil) (by decide +kernel))
    ⟨fun x => (x.name, x.mmcssProfile, x.highPriority, x.fallbackApplied, ()),
      fun (name, mmcssProfile, highPriority, fallbackApplied, ()) => ⟨name, mmcssProfile,
        highPriority, fallbackApplied⟩,
      fun _ => rfl, fun _ => rfl⟩

/-- mirrors src-tauri/src/config.rs:139-142 -/
def EqShelfSettings.codec : Codec EqShelfSettings :=
  Codec.via (Fields.record (
    .cons "frequencyHz" none .float <|
    .cons "gainDb" none .float <|
    .nil) (by decide +kernel))
    ⟨fun x => (x.frequencyHz, x.gainDb, ()),
      fun (frequencyHz, gainDb, ()) => ⟨frequencyHz, gainDb⟩,
      fun _ => rfl, fun _ => rfl⟩

/-- mirrors src-tauri/src/config.rs:146-150 -/
def EqPeakSettings.codec : Codec EqPeakSettings :=
  Codec.via (Fields.record (
    .cons "frequencyHz" none .float <|
    .cons "gainDb" none .float <|
    .cons "q" none .float <|
    .nil) (by decide +kernel))
    ⟨fun x => (x.frequencyHz, x.gainDb, x.q, ()),
      fun (frequencyHz, gainDb, q, ()) => ⟨frequencyHz, gainDb, q⟩,
      fun _ => rfl, fun _ => rfl⟩

/-- mirrors src-tauri/src/config.rs:154-159 -/
def VstEqSettings.codec : Codec VstEqSettings :=
  Codec.via (Fields.record (
    .cons "enabled" none .ofBool <|
    .cons "lowShelf" none EqShelfSettings.codec <|
    .cons "midPeak" none EqPeakSettings.codec <|
    .cons "highShelf" none EqShelfSettings.codec <|
    .nil) (by decide +kernel))
    ⟨fun x => (x.enabled, x.lowShelf, x.midPeak, x.highShelf, ()),
      fun (enabled, lowShelf, midPeak, highShelf, ()) => ⟨enabled, lowShelf, midPeak, highShelf⟩,
      fun _ => rfl, fun _ => rfl⟩

/-- mirrors src-tauri/src/audio/runtime_state.rs:84-111 -/
structure AudioSettings where
  gameMode : Bool
  enabled : Bool
  backend : Option String
  device : Option String
  deviceId : Option String
  sampleRate : UInt32
  bufferSize : UInt32
  renderAheadBlocks : UInt32
  dspThreadPriority : DspThreadPriority
  gainDb : F32
  limiterEnabled : Bool
  vstEq : VstEqSettings
  vstPluginId : Option String
  vstPath : Option String

def AudioSettings.codec : Codec AudioSettings :=
  Codec.via (Fields.record (
    .cons "gameMode" (some true) .ofBool <|
    .cons "enabled" none .ofBool <|
    .cons "backend" (some none) optionalString <|
    .cons "device" (some none) optionalString <|
    .cons "deviceId" (some none) optionalString <|
    .cons "sampleRate" none .u32 <|
    .cons "bufferSize" none .u32 <|
    .cons "renderAheadBlocks" (some defaultRenderAheadBlocks) ControlFrame.renderAheadBlocks <|
    .cons "dspThreadPriority" (some .mmcss) DspThreadPriority.codec <|
    .cons "gainDb" none .float <|
    .cons "limiterEnabled" (some false) .ofBool <|
    .cons "vstEq" none VstEqSettings.codec <|
    .cons "vstPluginId" (some none) optionalString <|
    .cons "vstPath" (some none) optionalString <|
    .nil) (by decide +kernel))
    ⟨fun x => (x.gameMode, x.enabled, x.backend, x.device, x.deviceId, x.sampleRate, x.bufferSize,
      x.renderAheadBlocks, x.dspThreadPriority, x.gainDb, x.limiterEnabled, x.vstEq, x.vstPluginId,
      x.vstPath, ()),
      fun (gameMode, enabled, backend, device, deviceId, sampleRate, bufferSize, renderAheadBlocks,
        dspThreadPriority, gainDb, limiterEnabled, vstEq, vstPluginId, vstPath, ()) => ⟨gameMode,
        enabled, backend, device, deviceId, sampleRate, bufferSize, renderAheadBlocks,
        dspThreadPriority, gainDb, limiterEnabled, vstEq, vstPluginId, vstPath⟩,
      fun _ => rfl, fun _ => rfl⟩

/-- mirrors src-tauri/src/vst_worker/protocol.rs:20-35 -/
structure WorkerAudioStatus where
  backend : String
  device : String
  deviceId : Option String
  sampleRate : UInt32
  requestedBufferSize : UInt32
  streamBufferSize : UInt32
  pluginLatencySamples : UInt32
  bridgeLatencySamples : UInt32
  hostingMode : String
  vstMidiCompatible : Bool
  limiterEnabled : Bool
  mmcssEnabled : Bool
  powerThrottlingDisabled : Bool
  classUid : Option String

def WorkerAudioStatus.codec : Codec WorkerAudioStatus :=
  Codec.via (Fields.record (
    .cons "backend" none .ofString <|
    .cons "device" none .ofString <|
    .cons "deviceId" (some none) optionalString <|
    .cons "sampleRate" none .u32 <|
    .cons "requestedBufferSize" none .u32 <|
    .cons "streamBufferSize" none .u32 <|
    .cons "pluginLatencySamples" none .u32 <|
    .cons "bridgeLatencySamples" none .u32 <|
    .cons "hostingMode" none .ofString <|
    .cons "vstMidiCompatible" none .ofBool <|
    .cons "limiterEnabled" none .ofBool <|
    .cons "mmcssEnabled" none .ofBool <|
    .cons "powerThrottlingDisabled" none .ofBool <|
    .cons "classUid" (some none) optionalString <|
    .nil) (by decide +kernel))
    ⟨fun x => (x.backend, x.device, x.deviceId, x.sampleRate, x.requestedBufferSize,
      x.streamBufferSize, x.pluginLatencySamples, x.bridgeLatencySamples, x.hostingMode,
      x.vstMidiCompatible, x.limiterEnabled, x.mmcssEnabled, x.powerThrottlingDisabled, x.classUid,
      ()),
      fun (backend, device, deviceId, sampleRate, requestedBufferSize, streamBufferSize,
        pluginLatencySamples, bridgeLatencySamples, hostingMode, vstMidiCompatible, limiterEnabled,
        mmcssEnabled, powerThrottlingDisabled, classUid, ()) => ⟨backend, device, deviceId,
        sampleRate, requestedBufferSize, streamBufferSize, pluginLatencySamples,
        bridgeLatencySamples, hostingMode, vstMidiCompatible, limiterEnabled, mmcssEnabled,
        powerThrottlingDisabled, classUid⟩,
      fun _ => rfl, fun _ => rfl⟩

/-- mirrors src-tauri/src/vst_worker/protocol.rs:39-120 -/
structure WorkerMetrics where
  renderAheadSamples : UInt32
  renderQueueFrames : UInt64
  renderUnderflows : UInt64
  renderMissingFrames : UInt64
  renderResetSilenceFrames : UInt64
  renderBlockMaxUs : UInt32
  renderOverBudget : UInt64
  callbackGapCount : UInt64
  limiterEnabled : Option Bool
  midiTransportFailed : Bool
  pipeWaitMaxUs : UInt64
  audioWaitMaxUs : UInt64
  midiIoThreads : List ThreadDiagnostics
  midiDeliveryMaxUs : UInt64
  midiDeliveryP99Us : UInt64
  callbackCount : UInt64
  callbackIntervalMaxUs : UInt64
  audioMmcssOwned : Option Bool
  audioMmcssCritical : Option Bool
  gameMode : Bool
  maintenance : Bool
  deferredSave : Bool
  deferredEditor : Option Bool
  editorOpen : Bool
  audioPeakL : F32
  audioPeakR : F32
  audioXruns : UInt32
  streamRecoveryRequests : UInt32
  streamRouteChanges : UInt32
  backendLatencyUs : UInt64
  audioMidiDrops : UInt32
  audioLockMisses : UInt32
  audioEmergencyResets : UInt32
  callbackLastUs : UInt32
  callbackMaxUs : UInt32
  callbackOverBudgetCount : UInt32
  consecutiveDeadlineMisses : UInt32
  dspProcessLastUs : UInt32
  dspProcessP95Us : UInt32
  dspProcessP99Us : UInt32
  dspProcessMaxUs : UInt32
  midiQueueDepth : UInt32
  midiQueueMaxDepth : UInt32
  midiOldestUs : UInt64
  x86BridgeUnderruns : UInt32
  x86BridgeOverruns : UInt32
  x86WorkerAlive : Bool

def WorkerMetrics.codec : Codec WorkerMetrics :=
  Codec.via (Fields.record (
    .cons "renderAheadSamples" (some 0) .u32 <|
    .cons "renderQueueFrames" (some 0) .u64 <|
    .cons "renderUnderflows" (some 0) .u64 <|
    .cons "renderMissingFrames" (some 0) .u64 <|
    .cons "renderResetSilenceFrames" (some 0) .u64 <|
    .cons "renderBlockMaxUs" (some 0) .u32 <|
    .cons "renderOverBudget" (some 0) .u64 <|
    .cons "callbackGapCount" (some 0) .u64 <|
    .skip "limiterEnabled" .ofBool <|
    .cons "midiTransportFailed" (some false) .ofBool <|
    .cons "pipeWaitMaxUs" (some 0) .u64 <|
    .cons "audioWaitMaxUs" (some 0) .u64 <|
    .cons "midiIoThreads" (some []) (.list ThreadDiagnostics.codec) <|
    .cons "midiDeliveryMaxUs" (some 0) .u64 <|
    .cons "midiDeliveryP99Us" (some 0) .u64 <|
    .cons "callbackCount" (some 0) .u64 <|
    .cons "callbackIntervalMaxUs" (some 0) .u64 <|
    .cons "audioMmcssOwned" (some none) optionalBool <|
    .cons "audioMmcssCritical" (some none) optionalBool <|
    .cons "gameMode" (some false) .ofBool <|
    .cons "maintenance" (some false) .ofBool <|
    .cons "deferredSave" (some false) .ofBool <|
    .cons "deferredEditor" (some none) optionalBool <|
    .cons "editorOpen" (some false) .ofBool <|
    .cons "audioPeakL" none .float <|
    .cons "audioPeakR" none .float <|
    .cons "audioXruns" none .u32 <|
    .cons "streamRecoveryRequests" none .u32 <|
    .cons "streamRouteChanges" none .u32 <|
    .cons "backendLatencyUs" none .u64 <|
    .cons "audioMidiDrops" none .u32 <|
    .cons "audioLockMisses" none .u32 <|
    .cons "audioEmergencyResets" none .u32 <|
    .cons "callbackLastUs" none .u32 <|
    .cons "callbackMaxUs" none .u32 <|
    .cons "callbackOverBudgetCount" none .u32 <|
    .cons "consecutiveDeadlineMisses" none .u32 <|
    .cons "dspProcessLastUs" none .u32 <|
    .cons "dspProcessP95Us" none .u32 <|
    .cons "dspProcessP99Us" none .u32 <|
    .cons "dspProcessMaxUs" none .u32 <|
    .cons "midiQueueDepth" none .u32 <|
    .cons "midiQueueMaxDepth" none .u32 <|
    .cons "midiOldestUs" none .u64 <|
    .cons "x86BridgeUnderruns" none .u32 <|
    .cons "x86BridgeOverruns" none .u32 <|
    .cons "x86WorkerAlive" none .ofBool <|
    .nil) (by decide +kernel))
    ⟨fun x => (x.renderAheadSamples, x.renderQueueFrames, x.renderUnderflows, x.renderMissingFrames,
      x.renderResetSilenceFrames, x.renderBlockMaxUs, x.renderOverBudget, x.callbackGapCount,
      x.limiterEnabled, x.midiTransportFailed, x.pipeWaitMaxUs, x.audioWaitMaxUs, x.midiIoThreads,
      x.midiDeliveryMaxUs, x.midiDeliveryP99Us, x.callbackCount, x.callbackIntervalMaxUs,
      x.audioMmcssOwned, x.audioMmcssCritical, x.gameMode, x.maintenance, x.deferredSave,
      x.deferredEditor, x.editorOpen, x.audioPeakL, x.audioPeakR, x.audioXruns,
      x.streamRecoveryRequests, x.streamRouteChanges, x.backendLatencyUs, x.audioMidiDrops,
      x.audioLockMisses, x.audioEmergencyResets, x.callbackLastUs, x.callbackMaxUs,
      x.callbackOverBudgetCount, x.consecutiveDeadlineMisses, x.dspProcessLastUs, x.dspProcessP95Us,
      x.dspProcessP99Us, x.dspProcessMaxUs, x.midiQueueDepth, x.midiQueueMaxDepth, x.midiOldestUs,
      x.x86BridgeUnderruns, x.x86BridgeOverruns, x.x86WorkerAlive, ()),
      fun (renderAheadSamples, renderQueueFrames, renderUnderflows, renderMissingFrames,
        renderResetSilenceFrames, renderBlockMaxUs, renderOverBudget, callbackGapCount,
        limiterEnabled, midiTransportFailed, pipeWaitMaxUs, audioWaitMaxUs, midiIoThreads,
        midiDeliveryMaxUs, midiDeliveryP99Us, callbackCount, callbackIntervalMaxUs, audioMmcssOwned,
        audioMmcssCritical, gameMode, maintenance, deferredSave, deferredEditor, editorOpen,
        audioPeakL, audioPeakR, audioXruns, streamRecoveryRequests, streamRouteChanges,
        backendLatencyUs, audioMidiDrops, audioLockMisses, audioEmergencyResets, callbackLastUs,
        callbackMaxUs, callbackOverBudgetCount, consecutiveDeadlineMisses, dspProcessLastUs,
        dspProcessP95Us, dspProcessP99Us, dspProcessMaxUs, midiQueueDepth, midiQueueMaxDepth,
        midiOldestUs, x86BridgeUnderruns, x86BridgeOverruns, x86WorkerAlive, ()) =>
        ⟨renderAheadSamples, renderQueueFrames, renderUnderflows, renderMissingFrames,
        renderResetSilenceFrames, renderBlockMaxUs, renderOverBudget, callbackGapCount,
        limiterEnabled, midiTransportFailed, pipeWaitMaxUs, audioWaitMaxUs, midiIoThreads,
        midiDeliveryMaxUs, midiDeliveryP99Us, callbackCount, callbackIntervalMaxUs, audioMmcssOwned,
        audioMmcssCritical, gameMode, maintenance, deferredSave, deferredEditor, editorOpen,
        audioPeakL, audioPeakR, audioXruns, streamRecoveryRequests, streamRouteChanges,
        backendLatencyUs, audioMidiDrops, audioLockMisses, audioEmergencyResets, callbackLastUs,
        callbackMaxUs, callbackOverBudgetCount, consecutiveDeadlineMisses, dspProcessLastUs,
        dspProcessP95Us, dspProcessP99Us, dspProcessMaxUs, midiQueueDepth, midiQueueMaxDepth,
        midiOldestUs, x86BridgeUnderruns, x86BridgeOverruns, x86WorkerAlive⟩,
      fun _ => rfl, fun _ => rfl⟩

/-- mirrors src-tauri/src/types.rs:376-394 -/
structure VstParameter where
  index : UInt64
  id : UInt32
  flags : UInt32
  stepCount : Int32
  unitId : Int32
  name : String
  min : F32
  max : F32
  default : F32
  unit : String
  value : F32

def VstParameter.codec : Codec VstParameter :=
  Codec.via (Fields.record (
    .cons "index" none .u64 <|
    .cons "id" (some 0) .u32 <|
    .cons "flags" (some 0) .u32 <|
    .cons "stepCount" (some 0) .i32 <|
    .cons "unitId" (some 0) .i32 <|
    .cons "name" none .ofString <|
    .cons "min" none .float <|
    .cons "max" none .float <|
    .cons "default" none .float <|
    .cons "unit" none .ofString <|
    .cons "value" none .float <|
    .nil) (by decide +kernel))
    ⟨fun x => (x.index, x.id, x.flags, x.stepCount, x.unitId, x.name, x.min, x.max, x.default,
      x.unit, x.value, ()),
      fun (index, id, flags, stepCount, unitId, name, min, max, default, unit, value, ()) => ⟨index,
        id, flags, stepCount, unitId, name, min, max, default, unit, value⟩,
      fun _ => rfl, fun _ => rfl⟩
/-! ## Messages -/

/-- mirrors src-tauri/src/vst_worker/protocol.rs:124-208 -/
inductive ControlMessage where
  | hello (protocolVersion hostAbiVersion : UInt32) (sessionId token : String) (workerPid : UInt32)
  | load (requestId : UInt64) (settings : AudioSettings) (classUid : Option String)
      (warmupMs : UInt32)
  | openEditor (requestId : UInt64)
  | closeEditor (requestId : UInt64)
  | listParameters (requestId : UInt64)
  | setParameter (requestId index : UInt64) (value : F32)
  | setGain (requestId : UInt64) (gainDb : F32)
  | setLimiter (requestId : UInt64) (enabled : Bool)
  | setEq (requestId : UInt64) (settings : VstEqSettings)
  | setGameMode (requestId : UInt64) (enabled : Bool)
  | saveState (requestId : UInt64)
  | panic (requestId : UInt64)
  | stop (requestId : UInt64)
  | ping (sequence : UInt64)
  | pong (sequence : UInt64)
  | ready (requestId : UInt64) (status : WorkerAudioStatus)
  | parameters (requestId : UInt64) (parameters : List VstParameter)
  | ack (requestId : UInt64)
  | error (requestId : Option UInt64) (code message : String)
  | heartbeat (sequence monotonicQpc : UInt64) (metrics : WorkerMetrics)
  | editorHidden
  | stopped (requestId : UInt64)

/-- A case of the enumeration. -/
structure Case (α : Type) where
  tag : String
  fields : Fields α
  make : α → ControlMessage

namespace Case

variable {α : Type}

def write (c : Case α) (a : α) : Json := .obj (("type", .str c.tag) :: c.fields.enc a)

def read (c : Case α) (o : List (String × Json)) : Option ControlMessage :=
  (c.fields.dec o).map c.make

def hello : Case (UInt32 × UInt32 × String × String × UInt32 × Unit) where
  tag := "hello"
  fields :=
    .cons "protocol_version" none .u32 <|
    .cons "host_abi_version" none .u32 <|
    .cons "session_id" none .ofString <|
    .cons "token" none .ofString <|
    .cons "worker_pid" none .u32 <|
    .nil
  make x := .hello x.1 x.2.1 x.2.2.1 x.2.2.2.1 x.2.2.2.2.1

def load : Case (UInt64 × AudioSettings × Option String × UInt32 × Unit) where
  tag := "load"
  fields :=
    .cons "request_id" none .u64 <|
    .cons "settings" none AudioSettings.codec <|
    .cons "class_uid" (some none) optionalString <|
    .cons "warmup_ms" none .u32 <|
    .nil
  make x := .load x.1 x.2.1 x.2.2.1 x.2.2.2.1

/-- The cases that hold nothing but the number of their request. -/
def request (tag : String) (make : UInt64 → ControlMessage) : Case (UInt64 × Unit) where
  tag := tag
  fields := .cons "request_id" none .u64 .nil
  make x := make x.1

def openEditor := request "openEditor" .openEditor
def closeEditor := request "closeEditor" .closeEditor
def listParameters := request "listParameters" .listParameters
def saveState := request "saveState" .saveState
def panic := request "panic" .panic
def stop := request "stop" .stop
def ack := request "ack" .ack
def stopped := request "stopped" .stopped

def setParameter : Case (UInt64 × UInt64 × F32 × Unit) where
  tag := "setParameter"
  fields :=
    .cons "request_id" none .u64 <| .cons "index" none .u64 <| .cons "value" none .float <| .nil
  make x := .setParameter x.1 x.2.1 x.2.2.1

def setGain : Case (UInt64 × F32 × Unit) where
  tag := "setGain"
  fields := .cons "request_id" none .u64 <| .cons "gain_db" none .float <| .nil
  make x := .setGain x.1 x.2.1

/-- The cases that switch something on or off. -/
def switch (tag : String) (make : UInt64 → Bool → ControlMessage) :
    Case (UInt64 × Bool × Unit) where
  tag := tag
  fields := .cons "request_id" none .u64 <| .cons "enabled" none .ofBool <| .nil
  make x := make x.1 x.2.1

def setLimiter := switch "setLimiter" .setLimiter
def setGameMode := switch "setGameMode" .setGameMode

def setEq : Case (UInt64 × VstEqSettings × Unit) where
  tag := "setEq"
  fields := .cons "request_id" none .u64 <| .cons "settings" none VstEqSettings.codec <| .nil
  make x := .setEq x.1 x.2.1

def ping : Case (UInt64 × Unit) where
  tag := "ping"
  fields := .cons "sequence" none .u64 .nil
  make x := .ping x.1

def pong : Case (UInt64 × Unit) where
  tag := "pong"
  fields := .cons "sequence" none .u64 .nil
  make x := .pong x.1

def ready : Case (UInt64 × WorkerAudioStatus × Unit) where
  tag := "ready"
  fields := .cons "request_id" none .u64 <| .cons "status" none WorkerAudioStatus.codec <| .nil
  make x := .ready x.1 x.2.1

def parameters : Case (UInt64 × List VstParameter × Unit) where
  tag := "parameters"
  fields :=
    .cons "request_id" none .u64 <| .cons "parameters" none (.list VstParameter.codec) <| .nil
  make x := .parameters x.1 x.2.1

def error : Case (Option UInt64 × String × String × Unit) where
  tag := "error"
  fields :=
    .cons "request_id" (some none) optionalU64 <|
    .cons "code" none .ofString <|
    .cons "message" none .ofString <|
    .nil
  make x := .error x.1 x.2.1 x.2.2.1

def heartbeat : Case (UInt64 × UInt64 × WorkerMetrics × Unit) where
  tag := "heartbeat"
  fields :=
    .cons "sequence" none .u64 <|
    .cons "monotonic_qpc" none .u64 <|
    .cons "metrics" none WorkerMetrics.codec <|
    .nil
  make x := .heartbeat x.1 x.2.1 x.2.2.1

def editorHidden : Case Unit where
  tag := "editorHidden"
  fields := .nil
  make _ := .editorHidden

end Case

/-- `#[serde(tag = "type", rename_all = "camelCase")]`: the cases are renamed,
their fields are not. -/
def ControlMessage.encode : ControlMessage → Json
  | .hello v a s t p => Case.hello.write (v, a, s, t, p, ())
  | .load r s c w => Case.load.write (r, s, c, w, ())
  | .openEditor r => Case.openEditor.write (r, ())
  | .closeEditor r => Case.closeEditor.write (r, ())
  | .listParameters r => Case.listParameters.write (r, ())
  | .setParameter r i v => Case.setParameter.write (r, i, v, ())
  | .setGain r g => Case.setGain.write (r, g, ())
  | .setLimiter r e => Case.setLimiter.write (r, e, ())
  | .setEq r s => Case.setEq.write (r, s, ())
  | .setGameMode r e => Case.setGameMode.write (r, e, ())
  | .saveState r => Case.saveState.write (r, ())
  | .panic r => Case.panic.write (r, ())
  | .stop r => Case.stop.write (r, ())
  | .ping n => Case.ping.write (n, ())
  | .pong n => Case.pong.write (n, ())
  | .ready r s => Case.ready.write (r, s, ())
  | .parameters r ps => Case.parameters.write (r, ps, ())
  | .ack r => Case.ack.write (r, ())
  | .error r c t => Case.error.write (r, c, t, ())
  | .heartbeat n q x => Case.heartbeat.write (n, q, x, ())
  | .editorHidden => Case.editorHidden.write ()
  | .stopped r => Case.stopped.write (r, ())

/-- How the fields are read, by the tag. -/
def ControlMessage.readers : List (String × (List (String × Json) → Option ControlMessage)) :=
  [("hello", Case.hello.read), ("load", Case.load.read), ("openEditor", Case.openEditor.read),
    ("closeEditor", Case.closeEditor.read), ("listParameters", Case.listParameters.read),
    ("setParameter", Case.setParameter.read), ("setGain", Case.setGain.read),
    ("setLimiter", Case.setLimiter.read), ("setEq", Case.setEq.read),
    ("setGameMode", Case.setGameMode.read), ("saveState", Case.saveState.read),
    ("panic", Case.panic.read), ("stop", Case.stop.read), ("ping", Case.ping.read),
    ("pong", Case.pong.read), ("ready", Case.ready.read), ("parameters", Case.parameters.read),
    ("ack", Case.ack.read), ("error", Case.error.read), ("heartbeat", Case.heartbeat.read),
    ("editorHidden", Case.editorHidden.read), ("stopped", Case.stopped.read)]

def ControlMessage.decode : Json → Option ControlMessage
  | .obj o =>
    match o.lookup "type" with
    | some (.str tag) => (ControlMessage.readers.lookup tag).bind fun read => read o
    | _ => none
  | _ => none

/-! ## The numbers of a message -/

def eqFloats (s : VstEqSettings) : List F32 :=
  [s.lowShelf.frequencyHz, s.lowShelf.gainDb, s.midPeak.frequencyHz, s.midPeak.gainDb, s.midPeak.q,
    s.highShelf.frequencyHz, s.highShelf.gainDb]

def AudioSettings.floats (s : AudioSettings) : List F32 := s.gainDb :: eqFloats s.vstEq

def WorkerMetrics.floats (x : WorkerMetrics) : List F32 := [x.audioPeakL, x.audioPeakR]

def VstParameter.floats (p : VstParameter) : List F32 := [p.min, p.max, p.default, p.value]

def ControlMessage.floats : ControlMessage → List F32
  | .load _ settings _ _ => settings.floats
  | .setParameter _ _ value => [value]
  | .setGain _ gainDb => [gainDb]
  | .setEq _ settings => eqFloats settings
  | .parameters _ ps => ps.flatMap VstParameter.floats
  | .heartbeat _ _ metrics => metrics.floats
  | _ => []

/-- None of its numbers is infinite or no number. -/
def ControlMessage.Finite (m : ControlMessage) : Bool := m.floats.all isFinite

/-- The number of blocks rendered ahead, where it has one. -/
def ControlMessage.blocks : ControlMessage → List UInt32
  | .load _ settings _ _ => [settings.renderAheadBlocks]
  | _ => []

/-- Its numbers are finite, and there are at most two blocks. -/
def ControlMessage.Readable (m : ControlMessage) : Bool := m.Finite && m.blocks.all (· ≤ 2)

theorem optionalBool_total : optionalBool.Total := Codec.Total.option (fun _ => rfl) _

theorem optionalString_total : optionalString.Total := Codec.Total.option (fun _ => rfl) _

theorem optionalU64_total : optionalU64.Total := Codec.Total.option (fun _ => rfl) _

theorem workerAudioStatus_total : WorkerAudioStatus.codec.Total := by
  apply Codec.Total.via
  apply Fields.Total.record
  repeat' first | apply Fields.Total.cons | apply Fields.Total.nil
  all_goals first | exact optionalString_total | exact fun _ => rfl

theorem eq_good (s : VstEqSettings) : VstEqSettings.codec.good s = (eqFloats s).all isFinite := by
  simp [VstEqSettings.codec, EqShelfSettings.codec, EqPeakSettings.codec, eqFloats,
    Bool.and_assoc]

theorem audioSettings_good (s : AudioSettings) :
    AudioSettings.codec.good s = (s.floats.all isFinite && decide (s.renderAheadBlocks ≤ 2)) := by
  have hstring : ∀ o, optionalString.good o = true := optionalString_total
  have hpriority : ∀ p, DspThreadPriority.codec.good p = true := fun _ => rfl
  rw [Bool.and_comm]
  simp [AudioSettings.codec, AudioSettings.floats, eq_good, renderAheadBlocks, hstring, hpriority]

theorem workerMetrics_good (x : WorkerMetrics) :
    WorkerMetrics.codec.good x = x.floats.all isFinite := by
  have hbool : ∀ o, optionalBool.good o = true := optionalBool_total
  have hlimiter : Option.all Codec.ofBool.good x.limiterEnabled = true := by
    cases x.limiterEnabled with
    | none => rfl
    | some b => rfl
  have hthreads : x.midiIoThreads.all ThreadDiagnostics.codec.good = true :=
    Codec.Total.list (fun _ => rfl) x.midiIoThreads
  simp [WorkerMetrics.codec, WorkerMetrics.floats, hbool, hlimiter, hthreads]

theorem vstParameter_good (p : VstParameter) :
    VstParameter.codec.good p = p.floats.all isFinite := by
  simp [VstParameter.codec, VstParameter.floats]

/-- A case is read by its tag. -/
theorem decode_write {α : Type} (c : Case α)
    (hcase : ControlMessage.readers.lookup c.tag = some c.read)
    (hnames : ("type" :: c.fields.names).Nodup) (a : α) :
    ControlMessage.decode (c.write a) = if c.fields.good a then some (c.make a) else none := by
  simp only [Case.write, ControlMessage.decode, List.lookup_cons_self, hcase, Option.bind_some,
    Case.read]
  rw [c.fields.dec_tagged hnames]
  split <;> rfl

theorem decode_total {α : Type} (c : Case α)
    (hcase : ControlMessage.readers.lookup c.tag = some c.read)
    (hnames : ("type" :: c.fields.names).Nodup) (htotal : c.fields.Total) (a : α) :
    ControlMessage.decode (c.write a) = some (c.make a) :=
  (decode_write c hcase hnames a).trans (if_pos (htotal a))

/-- A case that comes back where its message is readable. -/
theorem decode_readable {α : Type} (c : Case α) {m : ControlMessage} {a : α}
    (hcase : ControlMessage.readers.lookup c.tag = some c.read)
    (hnames : ("type" :: c.fields.names).Nodup) (hmake : c.make a = m)
    (hgood : c.fields.good a = m.Readable) :
    ControlMessage.decode (c.write a) = if m.Readable then some m else none := by
  rw [decode_write c hcase hnames, hgood, hmake]

/-- A message comes back where its numbers are finite and its blocks at most
two, and no message does elsewhere. -/
theorem decode_encode (m : ControlMessage) :
    ControlMessage.decode m.encode = if m.Readable then some m else none := by
  cases m with
  | hello v a s t p => exact decode_write .hello rfl (by decide) _
  | load r s c w =>
    refine decode_readable .load rfl (by decide) rfl ?_
    simp [Case.load, ControlMessage.Readable, ControlMessage.Finite,
      ControlMessage.floats, ControlMessage.blocks, audioSettings_good,
      show optionalString.good c = true from optionalString_total c]
  | openEditor r => exact decode_write .openEditor rfl (by decide) _
  | closeEditor r => exact decode_write .closeEditor rfl (by decide) _
  | listParameters r => exact decode_write .listParameters rfl (by decide) _
  | setParameter r i v =>
    refine decode_readable .setParameter rfl (by decide) rfl ?_
    simp [Case.setParameter, ControlMessage.Readable, ControlMessage.Finite,
      ControlMessage.floats, ControlMessage.blocks]
  | setGain r g =>
    refine decode_readable .setGain rfl (by decide) rfl ?_
    simp [Case.setGain, ControlMessage.Readable, ControlMessage.Finite,
      ControlMessage.floats, ControlMessage.blocks]
  | setLimiter r e => exact decode_write .setLimiter rfl (by decide) _
  | setEq r s =>
    refine decode_readable .setEq rfl (by decide) rfl ?_
    simp [Case.setEq, ControlMessage.Readable, ControlMessage.Finite,
      ControlMessage.floats, ControlMessage.blocks, eq_good]
  | setGameMode r e => exact decode_write .setGameMode rfl (by decide) _
  | saveState r => exact decode_write .saveState rfl (by decide) _
  | panic r => exact decode_write .panic rfl (by decide) _
  | stop r => exact decode_write .stop rfl (by decide) _
  | ping n => exact decode_write .ping rfl (by decide) _
  | pong n => exact decode_write .pong rfl (by decide) _
  | ready r s =>
    refine decode_total .ready rfl (by decide) ?_ _
    exact .cons (fun _ => rfl) (.cons workerAudioStatus_total .nil)
  | parameters r ps =>
    refine decode_readable .parameters rfl (by decide) rfl ?_
    simp [Case.parameters, ControlMessage.Readable, ControlMessage.Finite,
      ControlMessage.floats, ControlMessage.blocks, List.all_flatMap,
      funext vstParameter_good]
  | ack r => exact decode_write .ack rfl (by decide) _
  | error r c t =>
    refine decode_total .error rfl (by decide) ?_ _
    exact .cons optionalU64_total (.cons (fun _ => rfl) (.cons (fun _ => rfl) .nil))
  | heartbeat n q x =>
    refine decode_readable .heartbeat rfl (by decide) rfl ?_
    simp [Case.heartbeat, ControlMessage.Readable, ControlMessage.Finite,
      ControlMessage.floats, ControlMessage.blocks, workerMetrics_good]
  | editorHidden => exact decode_write .editorHidden rfl (by decide) _
  | stopped r => exact decode_write .stopped rfl (by decide) _

/-! ## Frames -/

/-- mirrors src-tauri/src/vst_worker/protocol.rs:11-14 -/
def maxControlFrameBytes : Nat := 8 * 1024 * 1024

/-- The text of a value, and the value of a text. -/
structure Serde where
  toVec : Json → List UInt8
  fromSlice : List UInt8 → Option Json

/-- The text of `j` is the text of `j` only. -/
structure Serde.Carries (serde : Serde) (j : Json) : Prop where
  fromSlice_toVec : serde.fromSlice (serde.toVec j) = some j
  toVec_ne_nil : serde.toVec j ≠ []

section Frames

variable (serde : Serde)

/-- What is put in the pipe.
mirrors src-tauri/src/vst_worker/protocol.rs:289-304 -/
def writeControlFrame (m : ControlMessage) : Except IoError (List UInt8) :=
  let payload := serde.toVec m.encode
  if maxControlFrameBytes < payload.length then
    .error ⟨.invalidInput, "control frame exceeds size limit"⟩
  else .ok (le 4 payload.length ++ payload)

/-- The request that a response answers. -/
def ControlMessage.requestId : ControlMessage → Option UInt64
  | .parameters requestId _ => some requestId
  | .ready requestId _ => some requestId
  | .ack requestId => some requestId
  | .stopped requestId => some requestId
  | .error requestId _ _ => requestId
  | _ => none

def ControlMessage.tooLarge (m : ControlMessage) : ControlMessage :=
  .error m.requestId "worker.frame-too-large" "Response exceeds IPC frame limit"

/-- mirrors src-tauri/src/vst_worker/protocol.rs:306-333 -/
def writeControlResponse (m : ControlMessage) : Except IoError (List UInt8) :=
  match writeControlFrame serde m with
  | .error e => if e.kind = .invalidInput then writeControlFrame serde m.tooLarge else .error e
  | .ok bytes => .ok bytes

/-- mirrors src-tauri/src/vst_worker/protocol.rs:335-350 -/
def readControlFrame (bytes : List UInt8) : Except IoError (ControlMessage × List UInt8) :=
  if bytes.length < 4 then .error ⟨.unexpectedEof, "early eof"⟩
  else
    let len := ofLE (bytes.take 4)
    if len = 0 ∨ maxControlFrameBytes < len then
      .error ⟨.invalidData, "invalid control frame length"⟩
    else if (bytes.drop 4).length < len then .error ⟨.unexpectedEof, "early eof"⟩
    else match (serde.fromSlice ((bytes.drop 4).take len)).bind ControlMessage.decode with
      | some m => .ok (m, (bytes.drop 4).drop len)
      | none => .error ⟨.invalidData, "invalid control message"⟩

/-- The two ways to write. -/
inductive Writer where
  | frame
  | response
  deriving DecidableEq, Repr

def Writer.write (w : Writer) (m : ControlMessage) : Except IoError (List UInt8) :=
  match w with
  | .frame => writeControlFrame serde m
  | .response => writeControlResponse serde m

/-- What a list of writes leaves in the pipe; a write that fails leaves
nothing. -/
def stream (writes : List (Writer × ControlMessage)) : List UInt8 :=
  writes.flatMap fun w =>
    match w.1.write serde w.2 with
    | .ok bytes => bytes
    | .error _ => []

/-- The messages that were written: a response that is too large counts as the
error that took its place. -/
def written (writes : List (Writer × ControlMessage)) : List ControlMessage :=
  writes.filterMap fun w =>
    if (serde.toVec w.2.encode).length ≤ maxControlFrameBytes then some w.2
    else match w.1 with
      | .frame => none
      | .response => some w.2.tooLarge

/-- `n` messages, one after the other. -/
def readControlFrames : Nat → List UInt8 → Except IoError (List ControlMessage × List UInt8)
  | 0, bytes => .ok ([], bytes)
  | n + 1, bytes =>
    match readControlFrame serde bytes with
    | .error e => .error e
    | .ok (m, bytes) =>
      match readControlFrames n bytes with
      | .error e => .error e
      | .ok (ms, bytes) => .ok (m :: ms, bytes)

/-- The frame of a message that fits. -/
def frame (m : ControlMessage) : List UInt8 :=
  le 4 (serde.toVec m.encode).length ++ serde.toVec m.encode

variable {serde}

theorem writeControlFrame_ok {m : ControlMessage}
    (h : (serde.toVec m.encode).length ≤ maxControlFrameBytes) :
    writeControlFrame serde m = .ok (frame serde m) :=
  if_neg (Nat.not_lt.mpr h)

/-- A frame is read, or refused for what its message holds. -/
theorem readControlFrame_frame {m : ControlMessage} (hcarries : serde.Carries m.encode)
    (hlen : (serde.toVec m.encode).length ≤ maxControlFrameBytes) (rest : List UInt8) :
    readControlFrame serde (frame serde m ++ rest) =
      if m.Readable then .ok (m, rest) else .error ⟨.invalidData, "invalid control message"⟩ := by
  have hpos : (serde.toVec m.encode).length ≠ 0 :=
    fun h => hcarries.toVec_ne_nil (List.length_eq_zero_iff.mp h)
  have hread : ofLE (le 4 (serde.toVec m.encode).length) = (serde.toVec m.encode).length :=
    ofLE_le (by simp only [maxControlFrameBytes] at hlen; omega)
  have htake : (frame serde m ++ rest).take 4 = le 4 (serde.toVec m.encode).length := by
    rw [frame, List.append_assoc, List.take_left' (length_le 4 _)]
  have hdrop : (frame serde m ++ rest).drop 4 = serde.toVec m.encode ++ rest := by
    rw [frame, List.append_assoc, List.drop_left' (length_le 4 _)]
  unfold readControlFrame
  rw [if_neg (by simp [frame])]
  simp only [htake, hdrop, hread]
  rw [if_neg (by omega), if_neg (by simp), List.take_left, List.drop_left,
    hcarries.fromSlice_toVec, Option.bind_some, decode_encode]
  cases m.Readable <;> rfl

/-- Frames one after the other, up to the first that is refused. -/
theorem readControlFrames_frames {ms : List ControlMessage}
    (hms : ∀ m ∈ ms, serde.Carries m.encode ∧
      (serde.toVec m.encode).length ≤ maxControlFrameBytes) (rest : List UInt8) :
    readControlFrames serde ms.length (ms.flatMap (frame serde) ++ rest) =
      if ms.all (·.Readable) then .ok (ms, rest)
      else .error ⟨.invalidData, "invalid control message"⟩ := by
  induction ms with
  | nil => rfl
  | cons m ms ih =>
    obtain ⟨hcarries, hlen⟩ := hms m List.mem_cons_self
    have htail := ih fun m' hm' => hms m' (List.mem_cons_of_mem _ hm')
    rw [List.length_cons, readControlFrames, List.flatMap_cons, List.append_assoc,
      readControlFrame_frame hcarries hlen, List.all_cons]
    cases hreadable : m.Readable with
    | false => rfl
    | true =>
      simp only [if_true, htail, Bool.true_and]
      by_cases hall : ms.all (·.Readable) = true
      · rw [if_pos hall, if_pos hall]
      · rw [if_neg hall, if_neg hall]

/-- The JSON library carries a message and the error that may take its place,
which is short. -/
structure Serde.Handles (serde : Serde) (m : ControlMessage) : Prop where
  message : serde.Carries m.encode
  fallback : serde.Carries m.tooLarge.encode
  short : (serde.toVec m.tooLarge.encode).length ≤ maxControlFrameBytes

/-- A write leaves the frame of what was written, or nothing. -/
theorem stream_eq {writes : List (Writer × ControlMessage)}
    (h : ∀ w ∈ writes, serde.Handles w.2) :
    stream serde writes = (written serde writes).flatMap (frame serde) := by
  induction writes with
  | nil => rfl
  | cons w writes ih =>
    have hshort := (h w List.mem_cons_self).short
    have htail := ih fun w' hw' => h w' (List.mem_cons_of_mem _ hw')
    unfold stream written at htail ⊢
    rw [List.flatMap_cons, htail]
    obtain ⟨writer, m⟩ := w
    by_cases hlen : (serde.toVec m.encode).length ≤ maxControlFrameBytes
    · have hwrite : writer.write serde m = .ok (frame serde m) := by
        cases writer with
        | frame => exact writeControlFrame_ok hlen
        | response => simp only [Writer.write, writeControlResponse, writeControlFrame_ok hlen]
      simp only [hwrite, List.filterMap_cons, if_pos hlen, List.flatMap_cons]
    · have herror : writeControlFrame serde m =
          .error ⟨.invalidInput, "control frame exceeds size limit"⟩ :=
        if_pos (Nat.not_le.mp hlen)
      cases writer with
      | frame => simp only [Writer.write, herror, List.filterMap_cons, if_neg hlen, List.nil_append]
      | response =>
        simp only [Writer.write, writeControlResponse, herror, if_true, writeControlFrame_ok hshort,
          List.filterMap_cons, if_neg hlen, List.flatMap_cons]

theorem mem_written {writes : List (Writer × ControlMessage)}
    (h : ∀ w ∈ writes, serde.Handles w.2) {m : ControlMessage} (hm : m ∈ written serde writes) :
    serde.Carries m.encode ∧ (serde.toVec m.encode).length ≤ maxControlFrameBytes := by
  obtain ⟨w, hw, heq⟩ := List.mem_filterMap.mp hm
  have hhandles := h w hw
  split at heq
  · rename_i hlen
    cases heq
    exact ⟨hhandles.message, hlen⟩
  · split at heq
    · cases heq
    · cases heq
      exact ⟨hhandles.fallback, hhandles.short⟩

/-- What comes out of the pipe. -/
theorem read_stream (writes : List (Writer × ControlMessage))
    (h : ∀ w ∈ writes, serde.Handles w.2) :
    readControlFrames serde (written serde writes).length (stream serde writes) =
      if (written serde writes).all (·.Readable) then .ok (written serde writes, [])
      else .error ⟨.invalidData, "invalid control message"⟩ := by
  have hread := readControlFrames_frames (fun m hm => mem_written h hm) []
  rwa [List.append_nil, ← stream_eq h] at hread

/-- What was written is read back, in order and to the last byte, exactly when
all its numbers are finite and no load asks for more than two blocks. -/
theorem read_stream_iff (writes : List (Writer × ControlMessage))
    (h : ∀ w ∈ writes, serde.Handles w.2) :
    readControlFrames serde (written serde writes).length (stream serde writes) =
        .ok (written serde writes, []) ↔
      ∀ m ∈ written serde writes, m.Readable = true := by
  rw [read_stream writes h, ← List.all_eq_true]
  split
  · rename_i hall
    exact iff_of_true rfl hall
  · rename_i hall
    exact iff_of_false (fun heq => by cases heq) hall

end Frames

/-! ## A library that knows two texts -/

def Json.typeTag : Json → Option String
  | .obj (("type", .str tag) :: _) => some tag
  | _ => none

def ascii (text : String) : List UInt8 := text.toList.map fun c => UInt8.ofNat c.toNat

/-- The texts of one message and of the error that may take its place. -/
def Serde.ofTexts (m : ControlMessage) (text error : String) : Serde where
  toVec j := if Json.typeTag j = some "error" then ascii error else ascii text
  fromSlice bytes :=
    if bytes = ascii error then some m.tooLarge.encode
    else if bytes = ascii text then some m.encode
    else none

theorem handles_ofTexts {m : ControlMessage} {text error : String}
    (htag : Json.typeTag m.encode ≠ some "error") (htext : ascii text ≠ [] ∧ ascii text ≠ ascii error)
    (herror : ascii error ≠ [] ∧ (ascii error).length ≤ maxControlFrameBytes) :
    (Serde.ofTexts m text error).Handles m := by
  have hm : (Serde.ofTexts m text error).toVec m.encode = ascii text := if_neg htag
  have herrorTag : Json.typeTag m.tooLarge.encode = some "error" := rfl
  have he : (Serde.ofTexts m text error).toVec m.tooLarge.encode = ascii error := by
    simp only [Serde.ofTexts, herrorTag, if_true]
  refine ⟨⟨?_, ?_⟩, ⟨?_, ?_⟩, ?_⟩
  · rw [hm]
    exact (if_neg htext.2).trans (if_pos rfl)
  · rw [hm]
    exact htext.1
  · rw [he]
    exact if_pos rfl
  · rw [he]
    exact herror.1
  · rw [he]
    exact herror.2

def pingText : String := "\x7b\"type\":\"ping\",\"sequence\":99\x7d"

/-- A parameter whose default is not a number. -/
def noDefault : VstParameter :=
  ⟨0, 0, 0, 0, 0, "Gain", 0, 0x3F800000, 0x7FC00000, "dB", 0x3F000000⟩

def noDefaultText : String :=
  "\x7b\"type\":\"parameters\",\"request_id\":7,\"parameters\":[\x7b\"index\":0,\"id\":0," ++
    "\"flags\":0,\"stepCount\":0,\"unitId\":0,\"name\":\"Gain\",\"min\":0.0,\"max\":1.0," ++
    "\"default\":null,\"unit\":\"dB\",\"value\":0.5\x7d]\x7d"

def tooLargeText (requestId : String) : String :=
  "\x7b\"type\":\"error\",\"request_id\":" ++ requestId ++
    ",\"code\":\"worker.frame-too-large\"," ++
    "\"message\":\"Response exceeds IPC frame limit\"\x7d"

/-- `{"type":"ping","sequence":99}` is read back. -/
theorem read_stream_ping :
    let serde := Serde.ofTexts (.ping 99) pingText (tooLargeText "null")
    readControlFrames serde 1 (stream serde [(.frame, .ping 99)]) = .ok ([.ping 99], []) := by
  have hhandles : (Serde.ofTexts (.ping 99) pingText (tooLargeText "null")).Handles (.ping 99) :=
    handles_ofTexts (by decide +kernel) (by decide +kernel) (by decide +kernel)
  exact (read_stream_iff [(.frame, .ping 99)] (by simpa using hhandles)).mpr
    (by decide +kernel)

/-- The parameters of such a plugin: the frame is written without an error,
and the reader refuses it. -/
theorem nonfinite_parameter_refused :
    let m : ControlMessage := .parameters 7 [noDefault]
    let serde := Serde.ofTexts m noDefaultText (tooLargeText "7")
    serde.Handles m ∧ written serde [(.response, m)] = [m] ∧
      readControlFrames serde 1 (stream serde [(.response, m)]) ≠ .ok ([m], []) := by
  have hhandles : (Serde.ofTexts (.parameters 7 [noDefault]) noDefaultText
      (tooLargeText "7")).Handles (.parameters 7 [noDefault]) :=
    handles_ofTexts (by decide +kernel) (by decide +kernel) (by decide +kernel)
  have hwritten : written (Serde.ofTexts (.parameters 7 [noDefault]) noDefaultText
      (tooLargeText "7")) [(.response, .parameters 7 [noDefault])] =
      [.parameters 7 [noDefault]] := by
    have hlen : ((Serde.ofTexts (.parameters 7 [noDefault]) noDefaultText
        (tooLargeText "7")).toVec (ControlMessage.parameters 7 [noDefault]).encode).length ≤
        maxControlFrameBytes := by decide +kernel
    simp only [written, List.filterMap_cons, if_pos hlen, List.filterMap_nil]
  have hread := read_stream [(.response, .parameters 7 [noDefault])]
    (by simpa using hhandles)
  rw [hwritten, if_neg (by decide +kernel)] at hread
  exact ⟨hhandles, hwritten, fun hok => by cases hread.symm.trans hok⟩

end RtpOscMidi.L1.ControlFrame
