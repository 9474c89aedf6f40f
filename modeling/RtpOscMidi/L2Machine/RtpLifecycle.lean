import RtpOscMidi.Core.LTS

/-!
# The RTP server of the bridge

The bridge keeps the RTP server, the configuration it was started with and the
route that the processing loop sends to in three places, which `sync_rtp`,
`start` and `stop` update one after the other. What is started can fail; what
it returns is an argument.

* `bookkeeping_iff`: the three agree after every operation exactly when no
  failure in the run meets a server that was there before (`Op.Keeps`).
* `start_status`: the status that `start` returns is the one shown afterwards.
-/
namespace RtpOscMidi.L2.RtpLifecycle

open Core

abbrev Port := UInt16

/-- mirrors src-tauri/src/rtp/rtp_server.rs:60-64 -/
structure RtpRemoteTarget where
  name : String
  addr : String
  deriving DecidableEq, Repr

/-- The settings that the bridge looks at here.
mirrors src-tauri/src/config.rs:86-121 -/
structure Config where
  inputDevice : Option String
  oscEnabled : Bool
  oscInputEnabled : Bool
  oscListenIp : String
  oscListenPort : Port
  rtpEnabled : Bool
  thruEnabled : Bool
  remoteEnabled : Bool
  sessionName : String
  port : Port
  logMessages : Bool
  deriving DecidableEq, Repr

/-- mirrors src-tauri/src/config.rs:69-135 -/
def Config.default : Config :=
  ⟨none, true, false, "127.0.0.1", 9001, true, false, false, "OSCMidi", 5004, false⟩

/-- mirrors src-tauri/src/bridge/runtime.rs:39-47 -/
structure RtpConfigSnapshot where
  name : String
  requestedPort : Port
  boundPort : Port
  remoteEnabled : Bool
  remoteTargets : List RtpRemoteTarget
  logRtp : Bool
  deriving DecidableEq, Repr

/-- A running server. `outgoing` is its queue, a number of its own;
`remoteEnabled` is ghost. -/
structure RtpServer where
  name : String
  port : Port
  remoteTargets : List RtpRemoteTarget
  logRtp : Bool
  boundPort : Port
  outgoing : Nat
  remoteEnabled : Bool
  deriving DecidableEq, Repr

structure BridgeStatus where
  rtpActive : Bool
  rtpBoundPort : Option Port
  deriving DecidableEq, Repr

/-- mirrors src-tauri/src/bridge/runtime.rs:49-62 -/
structure BridgeRuntime where
  status : BridgeStatus
  oscInput : Bool
  config : Config
  deriving DecidableEq, Repr

/-- `nextQueue` numbers the servers' queues.
mirrors src-tauri/src/bridge/runtime.rs:30-37 -/
structure BridgeHandle where
  rtpOutput : Option Nat
  thruEnabled : Bool
  inner : Option BridgeRuntime
  rtpServer : Option RtpServer
  rtpSink : Bool
  rtpConfig : Option RtpConfigSnapshot
  nextQueue : Nat
  deriving DecidableEq, Repr

def BridgeHandle.new : BridgeHandle := ⟨none, true, none, none, false, none, 0⟩

/-- What `sync_rtp` gets from outside: the addresses found for the remotes,
and the port that was bound. -/
structure Network where
  resolved : List RtpRemoteTarget
  bind : Except String Port

def rtpVirtualInput : String := "RTP-MIDI (Serveur)"

/-- mirrors src-tauri/src/bridge/lifecycle.rs:33-43 -/
def rtpRequested (config : Config) : Bool :=
  config.rtpEnabled || config.thruEnabled || config.remoteEnabled ||
    config.inputDevice == some rtpVirtualInput

/-- mirrors src-tauri/src/bridge/rtp_config.rs:7-51 -/
def resolveRemoteTargets (config : Config) (network : Network) : List RtpRemoteTarget :=
  if config.remoteEnabled then network.resolved else []

/-- mirrors src-tauri/src/rtp/rtp_server.rs:113-190 -/
def RtpServer.start (config : Config) (network : Network) (queue : Nat) :
    Except String RtpServer :=
  if config.port = 65535 then .error "Port RTP invalide: 65535 reserve"
  else match network.bind with
    | .error e => .error e
    | .ok boundPort =>
      .ok ⟨config.sessionName, config.port, resolveRemoteTargets config network,
        config.logMessages, boundPort, queue, config.remoteEnabled⟩

def needsRestart (b : BridgeHandle) (config : Config) (network : Network) (force : Bool) : Bool :=
  force || b.rtpServer.isNone ||
    match b.rtpConfig with
    | none => true
    | some current =>
      current.name != config.sessionName || current.requestedPort != config.port ||
        current.remoteEnabled != config.remoteEnabled ||
        current.remoteTargets != resolveRemoteTargets config network ||
        current.logRtp != config.logMessages

def snapshot (config : Config) (network : Network) (boundPort : Port) : RtpConfigSnapshot :=
  ⟨config.sessionName, config.port, boundPort, config.remoteEnabled,
    resolveRemoteTargets config network, config.logMessages⟩

/-- mirrors src-tauri/src/bridge/lifecycle.rs:45-111 -/
def syncRtp (b : BridgeHandle) (config : Config) (network : Network) (force : Bool) :
    BridgeHandle × Except String Unit :=
  let b := { b with thruEnabled := config.thruEnabled }
  if rtpRequested config then
    if needsRestart b config network force then
      let b := { b with rtpOutput := none, rtpServer := none }
      match RtpServer.start config network b.nextQueue with
      | .error e => (b, .error e)
      | .ok server =>
        ({ b with
          rtpConfig := some (snapshot config network server.boundPort)
          rtpOutput := some server.outgoing
          rtpServer := some server
          nextQueue := b.nextQueue + 1 }, .ok ())
    else (b, .ok ())
  else ({ b with rtpOutput := none, rtpServer := none, rtpConfig := none }, .ok ())

/-- What `start` gets from outside besides: `osc` is the client for the target
of the configuration, `oscDefault` the one used when OSC is off. -/
structure Started where
  network : Network
  osc : Except String Unit
  oscDefault : Except String Unit
  oscInput : Except String Unit
  reliable : Except String Unit

/-- mirrors src-tauri/src/osc.rs:63-69 -/
def forConfig (enabled : Bool) (osc oscDefault : Except String Unit) : Except String Unit :=
  match osc with
  | .ok () => .ok ()
  | .error e => if enabled then .error e else oscDefault

/-- mirrors src-tauri/src/osc_input/mod.rs:30-60 -/
def OscInputServer.start (config : Config) (opened : Except String Unit) : Except String Bool :=
  if config.oscInputEnabled then
    match opened with
    | .ok () => .ok true
    | .error e => .error e
  else .ok false

/-- mirrors src-tauri/src/bridge/lifecycle.rs:293-303 -/
def cleanupStartupRtp (b : BridgeHandle) : BridgeHandle :=
  { b with rtpSink := false, rtpServer := none, rtpConfig := none }

/-- mirrors src-tauri/src/bridge/lifecycle.rs:114-248 -/
def startRuntime (b : BridgeHandle) (config : Config) (started : Started) :
    BridgeHandle × Except String BridgeRuntime :=
  match forConfig config.oscEnabled started.osc started.oscDefault with
  | .error e => (b, .error e)
  | .ok () =>
    match OscInputServer.start config started.oscInput with
    | .error e => (b, .error e)
    | .ok oscInput =>
      match syncRtp { b with rtpSink := true } config started.network false with
      | (b, .error e) => ({ b with rtpSink := false }, .error e)
      | (b, .ok ()) =>
        match started.reliable with
        | .error e => (cleanupStartupRtp b, .error e)
        | .ok () =>
          (b, .ok ⟨⟨b.rtpServer.isSome, b.rtpConfig.map (·.boundPort)⟩, oscInput, config⟩)

/-- mirrors src-tauri/src/bridge/lifecycle.rs:250-291 and
src-tauri/src/bridge/runtime.rs:348-353 -/
def stopInternal (b : BridgeHandle) : BridgeHandle :=
  match b.inner with
  | none => b
  | some _ => { b with inner := none, rtpSink := false, rtpServer := none, rtpConfig := none }

/-- mirrors src-tauri/src/bridge/runtime.rs:97-118 -/
def start (b : BridgeHandle) (config : Config) (started : Started) :
    BridgeHandle × Except String BridgeStatus :=
  match startRuntime (stopInternal b) config started with
  | (b, .error e) => (b, .error e)
  | (b, .ok runtime) => ({ b with inner := some runtime }, .ok runtime.status)

/-- mirrors src-tauri/src/bridge/runtime.rs:120-130 -/
def stop (b : BridgeHandle) : BridgeHandle :=
  { stopInternal b with rtpOutput := none, rtpServer := none, rtpSink := false, rtpConfig := none }

/-- The OSC input of a changed configuration, with the old one opened again
where the new one fails.
mirrors src-tauri/src/bridge/runtime.rs:192-229 -/
def replaceOscInput (runtime : BridgeRuntime) (config : Config) (sink : Bool)
    (opened reopened : Except String Unit) : BridgeRuntime × Except String Unit :=
  let old := runtime.config
  if old.oscInputEnabled ≠ config.oscInputEnabled ∨ old.oscListenIp ≠ config.oscListenIp ∨
      old.oscListenPort ≠ config.oscListenPort then
    if sink = false then (runtime, .error "Bridge MIDI input unavailable")
    else if old.oscInputEnabled ∧ old.oscListenPort = config.oscListenPort then
      match OscInputServer.start config opened with
      | .ok replacement => ({ runtime with oscInput := replacement }, .ok ())
      | .error e =>
        match OscInputServer.start old reopened with
        | .ok recovered => ({ runtime with oscInput := recovered }, .error e)
        | .error _ => ({ runtime with oscInput := false }, .error e)
    else
      match OscInputServer.start config opened with
      | .ok replacement => ({ runtime with oscInput := replacement }, .ok ())
      | .error e => (runtime, .error e)
  else (runtime, .ok ())

/-- mirrors src-tauri/src/bridge/runtime.rs:192-263 -/
def updateConfig (b : BridgeHandle) (config : Config) (opened reopened : Except String Unit) :
    BridgeHandle × Except String Unit :=
  match b.inner with
  | none => (b, .ok ())
  | some runtime =>
    match replaceOscInput runtime config b.rtpSink opened reopened with
    | (runtime, .error e) => ({ b with inner := some runtime }, .error e)
    | (runtime, .ok ()) =>
      let rtpActive := b.rtpServer.isSome
      let boundPort := if rtpActive then b.rtpConfig.map (·.boundPort) else none
      ({ b with
        thruEnabled := config.thruEnabled
        inner := some { runtime with config, status := ⟨rtpActive, boundPort⟩ } }, .ok ())

/-- mirrors src-tauri/src/bridge/runtime.rs:265-297 -/
def BridgeHandle.status (b : BridgeHandle) : BridgeStatus :=
  let rtpActive := b.rtpServer.isSome
  ⟨rtpActive, if rtpActive then b.rtpConfig.map (·.boundPort) else none⟩

/-- The queue that a frame is put in.
mirrors src-tauri/src/rtp/rtp_output.rs:49-86 -/
def BridgeHandle.send (b : BridgeHandle) (source : String) : Option Nat :=
  if source.startsWith "RTP:" then none
  else if b.thruEnabled then b.rtpOutput else none

inductive Op where
  | start (config : Config) (started : Started)
  | stop
  | updateConfig (config : Config) (opened reopened : Except String Unit)
  | syncRtp (config : Config) (network : Network) (force : Bool)
  | restartRtp (config : Config) (network : Network)

def step (b : BridgeHandle) : Op → BridgeHandle
  | .start config started => (RtpLifecycle.start b config started).1
  | .stop => RtpLifecycle.stop b
  | .updateConfig config opened reopened =>
    (RtpLifecycle.updateConfig b config opened reopened).1
  | .syncRtp config network force => (RtpLifecycle.syncRtp b config network force).1
  | .restartRtp config network => (RtpLifecycle.syncRtp b config network true).1

def run (ops : List Op) : BridgeHandle := ops.foldl step BridgeHandle.new

/-! ## What agrees -/

/-- What is recorded of a server. -/
def RtpServer.recorded (server : RtpServer) : RtpConfigSnapshot :=
  ⟨server.name, server.port, server.boundPort, server.remoteEnabled, server.remoteTargets,
    server.logRtp⟩

/-- The recorded configuration and the published route are the present
server's, the status shows its port, and frames go to its queue. -/
structure Bookkeeping (b : BridgeHandle) : Prop where
  config : b.rtpConfig = b.rtpServer.map (·.recorded)
  route : b.rtpOutput = b.rtpServer.map (·.outgoing)
  status : b.status = ⟨b.rtpServer.isSome, b.rtpServer.map (·.boundPort)⟩
  send : ∀ source queue, b.send source = some queue →
    ∃ server, b.rtpServer = some server ∧ server.outgoing = queue

theorem bookkeeping_of_agree {b : BridgeHandle} (hconfig : b.rtpConfig = b.rtpServer.map (·.recorded))
    (hroute : b.rtpOutput = b.rtpServer.map (·.outgoing)) : Bookkeeping b := by
  refine ⟨hconfig, hroute, ?_, ?_⟩
  · rw [BridgeHandle.status, hconfig]
    cases b.rtpServer with
    | none => rfl
    | some server => rfl
  · intro source queue hsend
    unfold BridgeHandle.send at hsend
    split at hsend
    · cases hsend
    · split at hsend
      · rw [hroute] at hsend
        exact Option.map_eq_some_iff.mp hsend
      · cases hsend

theorem bookkeeping_empty {b : BridgeHandle} (hserver : b.rtpServer = none) :
    Bookkeeping b ↔ b.rtpConfig = none ∧ b.rtpOutput = none := by
  constructor
  · intro h
    have hconfig := h.config
    have hroute := h.route
    rw [hserver] at hconfig hroute
    exact ⟨hconfig, hroute⟩
  · intro h
    refine bookkeeping_of_agree ?_ ?_
    · rw [hserver, h.1]
      rfl
    · rw [hserver, h.2]
      rfl

/-! ## One operation -/

/-- The server does not start. -/
def rtpFails (config : Config) (network : Network) : Bool :=
  config.port == 65535 || !network.bind.toBool

/-- The OSC client or the OSC input does not start. -/
def oscFails (config : Config) (started : Started) : Bool :=
  !(forConfig config.oscEnabled started.osc started.oscDefault).toBool ||
    !(OscInputServer.start config started.oscInput).toBool

/-- `sync_rtp` does not stop a server whose successor does not start. -/
def RestartKeeps (b : BridgeHandle) (config : Config) (network : Network) (force : Bool) : Prop :=
  rtpRequested config = true → needsRestart b config network force = true →
    rtpFails config network = true → b.rtpServer = none

/-- The operation keeps the three together. -/
def Op.Keeps (b : BridgeHandle) : Op → Prop
  | .stop => True
  | .updateConfig _ _ _ => True
  | .syncRtp config network force => RestartKeeps b config network force
  | .restartRtp config network => RestartKeeps b config network true
  | .start config started =>
    if oscFails config started then b.inner = none ∨ b.rtpServer = none
    else
      (b.inner = none → RestartKeeps b config started.network false) ∧
        (rtpRequested config = true → started.reliable.toBool = false →
          (b.inner ≠ none ∨ needsRestart b config started.network false = true) ∧
            rtpFails config started.network = true)

/-- What `sync_rtp` does. -/
theorem syncRtp_cases (b : BridgeHandle) (config : Config) (network : Network) (force : Bool) :
    (rtpRequested config = false ∧ syncRtp b config network force =
      ({ b with thruEnabled := config.thruEnabled, rtpOutput := none, rtpServer := none,
                rtpConfig := none }, .ok ())) ∨
    (rtpRequested config = true ∧ needsRestart b config network force = false ∧
      syncRtp b config network force = ({ b with thruEnabled := config.thruEnabled }, .ok ())) ∨
    (rtpRequested config = true ∧ needsRestart b config network force = true ∧
      rtpFails config network = true ∧ ∃ e, syncRtp b config network force =
      ({ b with thruEnabled := config.thruEnabled, rtpOutput := none, rtpServer := none },
        .error e)) ∨
    (rtpRequested config = true ∧ needsRestart b config network force = true ∧
      rtpFails config network = false ∧ ∃ server, syncRtp b config network force =
      ({ b with thruEnabled := config.thruEnabled, rtpOutput := some server.outgoing,
                rtpServer := some server, rtpConfig := some server.recorded,
                nextQueue := b.nextQueue + 1 }, .ok ())) := by
  have hsame : needsRestart { b with thruEnabled := config.thruEnabled } config network force =
    needsRestart b config network force := rfl
  unfold syncRtp
  cases hrequested : rtpRequested config with
  | false => exact .inl ⟨rfl, rfl⟩
  | true =>
    refine .inr ?_
    simp only [hsame, if_true]
    cases hneeds : needsRestart b config network force with
    | false => exact .inl ⟨trivial, rfl, rfl⟩
    | true =>
      refine .inr ?_
      simp only [if_true, RtpServer.start, rtpFails]
      by_cases hport : config.port = 65535
      · simp only [if_pos hport]
        exact .inl ⟨trivial, trivial, by simp [hport], _, rfl⟩
      · simp only [if_neg hport]
        cases hbind : network.bind with
        | error e => exact .inl ⟨trivial, trivial, by simp [Except.toBool], _, rfl⟩
        | ok boundPort => exact .inr ⟨trivial, trivial, by simp [Except.toBool, hport], _, rfl⟩

section Sync

variable {b : BridgeHandle} (config : Config) (network : Network) (force : Bool)

theorem syncRtp_bookkeeping_iff (hb : Bookkeeping b) :
    Bookkeeping (syncRtp b config network force).1 ↔ RestartKeeps b config network force := by
  obtain ⟨hreq, heq⟩ | ⟨hreq, hneeds, heq⟩ | ⟨hreq, hneeds, hfails, e, heq⟩ |
    ⟨hreq, hneeds, hfails, server, heq⟩ := syncRtp_cases b config network force
  · rw [heq, RestartKeeps, hreq]
    exact iff_of_true (bookkeeping_of_agree rfl rfl) (fun h => Bool.noConfusion h)
  · rw [heq, RestartKeeps, hneeds]
    exact iff_of_true (bookkeeping_of_agree hb.config hb.route) (fun _ h => Bool.noConfusion h)
  · rw [heq, RestartKeeps, hreq, hneeds, hfails, bookkeeping_empty rfl]
    have hconfig := hb.config
    constructor
    · rintro ⟨hnone, -⟩ - - -
      rw [hnone] at hconfig
      exact Option.map_eq_none_iff.mp hconfig.symm
    · intro h
      rw [h rfl rfl rfl] at hconfig
      exact ⟨hconfig, rfl⟩
  · rw [heq, RestartKeeps, hfails]
    exact iff_of_true (bookkeeping_of_agree rfl rfl) (fun _ _ h => Bool.noConfusion h)

/-- Without a server and its configuration, an old route does no harm. -/
theorem syncRtp_bookkeeping (hserver : b.rtpServer = none) (hconfig : b.rtpConfig = none) :
    Bookkeeping (syncRtp b config network force).1 := by
  obtain ⟨-, heq⟩ | ⟨-, hneeds, -⟩ | ⟨-, -, -, e, heq⟩ | ⟨-, -, -, server, heq⟩ :=
    syncRtp_cases b config network force
  · rw [heq]
    exact bookkeeping_of_agree rfl rfl
  · simp [needsRestart, hserver] at hneeds
  · rw [heq]
    exact (bookkeeping_empty rfl).mpr ⟨hconfig, rfl⟩
  · rw [heq]
    exact bookkeeping_of_agree rfl rfl

/-- A route is published when `sync_rtp` succeeds on a request. -/
theorem syncRtp_route (hb : Bookkeeping (syncRtp b config network force).1)
    (hok : (syncRtp b config network force).2 = .ok ()) :
    (syncRtp b config network force).1.rtpOutput = none ↔ rtpRequested config = false := by
  obtain ⟨hreq, heq⟩ | ⟨hreq, hneeds, heq⟩ | ⟨-, -, -, e, heq⟩ | ⟨hreq, -, -, server, heq⟩ :=
    syncRtp_cases b config network force
  · rw [heq]
    exact iff_of_true rfl hreq
  · have hroute := hb.route
    rw [heq] at hroute
    simp only [needsRestart, Bool.or_eq_false_iff, Option.isNone_eq_false_iff] at hneeds
    obtain ⟨server, hserver⟩ := Option.isSome_iff_exists.mp hneeds.1.2
    simp only [hserver, Option.map_some] at hroute
    rw [heq, hreq]
    simp [hroute]
  · rw [heq] at hok
    cases hok
  · rw [heq, hreq]
    simp

/-- Unless it fails, `sync_rtp` leaves the three in agreement. -/
theorem syncRtp_ok (hb : Bookkeeping b ∨ b.rtpServer = none ∧ b.rtpConfig = none)
    (hok : (syncRtp b config network force).2 = .ok ()) :
    Bookkeeping (syncRtp b config network force).1 := by
  cases hb with
  | inl hb =>
    refine (syncRtp_bookkeeping_iff config network force hb).mpr fun hreq hneeds hfails => ?_
    obtain ⟨hreq', -⟩ | ⟨-, hneeds', -⟩ | ⟨-, -, -, e, heq⟩ | ⟨-, -, hfails', -⟩ :=
      syncRtp_cases b config network force
    · rw [hreq] at hreq'
      cases hreq'
    · rw [hneeds] at hneeds'
      cases hneeds'
    · rw [heq] at hok
      cases hok
    · rw [hfails] at hfails'
      cases hfails'
  | inr hb => exact syncRtp_bookkeeping config network force hb.1 hb.2

/-- Where it succeeds without a server, no configuration is recorded. -/
theorem syncRtp_recorded (hok : (syncRtp b config network force).2 = .ok ())
    (hserver : (syncRtp b config network force).1.rtpServer = none) :
    (syncRtp b config network force).1.rtpConfig = none := by
  obtain ⟨-, heq⟩ | ⟨-, hneeds, heq⟩ | ⟨-, -, -, e, heq⟩ | ⟨-, -, -, server, heq⟩ :=
    syncRtp_cases b config network force
  · rw [heq]
  · rw [heq] at hserver
    simp [needsRestart, show b.rtpServer = none from hserver] at hneeds
  · rw [heq] at hok
    cases hok
  · rw [heq] at hserver
    cases hserver

theorem syncRtp_error_iff : (∃ e, (syncRtp b config network force).2 = .error e) ↔
    rtpRequested config = true ∧ needsRestart b config network force = true ∧
      rtpFails config network = true := by
  obtain ⟨hreq, heq⟩ | ⟨hreq, hneeds, heq⟩ | ⟨hreq, hneeds, hfails, e, heq⟩ |
    ⟨hreq, hneeds, hfails, server, heq⟩ := syncRtp_cases b config network force
  · simp [heq, hreq]
  · simp [heq, hneeds]
  · simp [heq, hreq, hneeds, hfails]
  · simp [heq, hfails]

end Sync

theorem stopInternal_bookkeeping_iff {b : BridgeHandle} (hb : Bookkeeping b) :
    Bookkeeping (stopInternal b) ↔ b.inner = none ∨ b.rtpServer = none := by
  have hroute := hb.route
  unfold stopInternal
  cases hinner : b.inner with
  | none => exact iff_of_true hb (.inl rfl)
  | some runtime =>
    rw [bookkeeping_empty rfl, hroute]
    simp

theorem bookkeeping_sink {b : BridgeHandle} (sink : Bool) :
    Bookkeeping { b with rtpSink := sink } ↔ Bookkeeping b :=
  ⟨fun h => ⟨h.config, h.route, h.status, h.send⟩, fun h => ⟨h.config, h.route, h.status, h.send⟩⟩

theorem startRuntime_osc {b : BridgeHandle} {config : Config} {started : Started}
    (hosc : oscFails config started = true) : (startRuntime b config started).1 = b := by
  unfold oscFails at hosc
  unfold startRuntime
  cases hclient : forConfig config.oscEnabled started.osc started.oscDefault with
  | error e => rfl
  | ok u =>
    cases hinput : OscInputServer.start config started.oscInput with
    | error e => rfl
    | ok oscInput => simp [hclient, hinput, Except.toBool] at hosc

/-- `start_runtime`, where the OSC client and the OSC input start. -/
theorem startRuntime_bookkeeping_iff {b : BridgeHandle} {config : Config} {started : Started}
    (hosc : oscFails config started = false)
    (hb : Bookkeeping b ∨ b.rtpServer = none ∧ b.rtpConfig = none) :
    Bookkeeping (startRuntime b config started).1 ↔
      Bookkeeping (syncRtp { b with rtpSink := true } config started.network false).1 ∧
        (rtpRequested config = true → started.reliable.toBool = false →
          needsRestart b config started.network false = true ∧
            rtpFails config started.network = true) := by
  have hroute := syncRtp_route (b := { b with rtpSink := true }) config started.network false
  have herror := syncRtp_error_iff (b := { b with rtpSink := true }) config started.network false
  have hok := syncRtp_ok (b := { b with rtpSink := true }) config started.network false
    (hb.imp_left (bookkeeping_sink true).mpr)
  unfold oscFails at hosc
  unfold startRuntime
  cases hclient : forConfig config.oscEnabled started.osc started.oscDefault with
  | error e => simp [hclient, Except.toBool] at hosc
  | ok u =>
    cases hinput : OscInputServer.start config started.oscInput with
    | error e => simp [hinput, Except.toBool] at hosc
    | ok oscInput =>
      simp only
      cases hsync : syncRtp { b with rtpSink := true } config started.network false with
      | mk b' result =>
        rw [hsync] at hroute herror hok
        cases result with
        | error e =>
          have hfailed := herror.mp ⟨e, rfl⟩
          simp only
          rw [bookkeeping_sink]
          exact ⟨fun h => ⟨h, fun _ _ => hfailed.2⟩, fun h => h.1⟩
        | ok v =>
          have hstarted : ¬(rtpRequested config = true ∧
              needsRestart b config started.network false = true ∧
              rtpFails config started.network = true) := fun h => by
            obtain ⟨e, he⟩ := herror.mpr h
            cases he
          simp only
          cases hreliable : started.reliable with
          | ok w => exact ⟨fun h => ⟨h, fun _ h' => Bool.noConfusion h'⟩, fun h => h.1⟩
          | error e =>
            -- the server is stopped, and its route stays
            simp only
            have hb' := hok rfl
            rw [bookkeeping_empty rfl]
            simp only [cleanupStartupRtp, true_and, hroute hb' rfl]
            constructor
            · intro hreq
              refine ⟨hb', fun h => ?_⟩
              rw [hreq] at h
              cases h
            · intro h
              by_contra hreq
              exact hstarted ⟨Bool.of_not_eq_false hreq, h.2 (Bool.of_not_eq_false hreq) rfl⟩

/-- What one operation does to the agreement. -/
theorem step_bookkeeping_iff {b : BridgeHandle} (op : Op) (hb : Bookkeeping b) :
    Bookkeeping (step b op) ↔ op.Keeps b := by
  cases op with
  | stop => exact iff_of_true (bookkeeping_of_agree rfl rfl) trivial
  | updateConfig config opened reopened =>
    refine iff_of_true ?_ trivial
    show Bookkeeping (updateConfig b config opened reopened).1
    unfold updateConfig
    split
    · exact hb
    · split
      · exact bookkeeping_of_agree hb.config hb.route
      · exact bookkeeping_of_agree hb.config hb.route
  | syncRtp config network force => exact syncRtp_bookkeeping_iff config network force hb
  | restartRtp config network => exact syncRtp_bookkeeping_iff config network true hb
  | start config started =>
    have hinner : Bookkeeping (step b (.start config started)) ↔
        Bookkeeping (startRuntime (stopInternal b) config started).1 := by
      show Bookkeeping (start b config started).1 ↔ _
      unfold start
      split
      · rename_i heq
        rw [heq]
      · rename_i b' runtime heq
        rw [heq]
        exact ⟨fun h => bookkeeping_of_agree h.config h.route,
          fun h => bookkeeping_of_agree h.config h.route⟩
    rw [hinner]
    simp only [Op.Keeps]
    cases hosc : oscFails config started with
    | true =>
      rw [if_pos rfl, startRuntime_osc hosc]
      exact stopInternal_bookkeeping_iff hb
    | false =>
      rw [if_neg (by simp)]
      unfold stopInternal
      cases hrun : b.inner with
      | none =>
        simp only
        rw [startRuntime_bookkeeping_iff hosc (.inl hb),
          syncRtp_bookkeeping_iff _ _ _ ((bookkeeping_sink true).mpr hb)]
        simp only [forall_const, ne_eq, not_true_eq_false, false_or]
        rfl
      | some runtime =>
        simp only
        rw [startRuntime_bookkeeping_iff hosc (.inr ⟨rfl, rfl⟩)]
        simp only [reduceCtorEq, false_implies, true_and, ne_eq, not_false_eq_true, true_or]
        constructor
        · intro h hreq hreliable
          exact (h.2 hreq hreliable).2
        · intro h
          refine ⟨syncRtp_bookkeeping _ _ _ rfl rfl, fun hreq hreliable => ?_⟩
          exact ⟨by simp [needsRestart], h hreq hreliable⟩

/-! ## Runs -/

theorem bookkeeping_new : Bookkeeping BridgeHandle.new := (bookkeeping_empty rfl).mpr ⟨rfl, rfl⟩

/-- The three agree after every operation of a run exactly when every
operation keeps them together. -/
theorem bookkeeping_iff (ops : List Op) :
    (∀ pre, pre <+: ops → Bookkeeping (run pre)) ↔
      ∀ pre op, pre ++ [op] <+: ops → op.Keeps (run pre) :=
  LTS.foldl_prefix_iff (fun _ op hb => step_bookkeeping_iff op hb) bookkeeping_new ops

/-- A restart that finds no free port leaves the old configuration recorded,
without a server; a start that fails behind `sync_rtp` leaves the route of the
stopped server published, and so does one that does not get that far. -/
theorem failures_leave_records :
    let bound : Network := ⟨[], .ok 5004⟩
    let busy : Network := ⟨[], .error "Impossible de démarrer RTP-MIDI (ports occupés)"⟩
    let refused : Except String Unit := .error "refused"
    let started : Started := ⟨bound, .ok (), .ok (), .ok (), .ok ()⟩
    let restart := run [.syncRtp .default bound false, .restartRtp .default busy]
    let reliable := run [.start .default { started with reliable := refused }]
    let osc := run [.start .default started, .start .default { started with osc := refused }]
    (restart.rtpServer = none ∧ restart.rtpOutput = none ∧ restart.rtpConfig.isSome) ∧
    (reliable.rtpServer = none ∧ reliable.rtpConfig = none ∧ reliable.rtpOutput = some 0) ∧
    (osc.rtpServer = none ∧ osc.rtpConfig = none ∧ osc.rtpOutput = some 0) ∧
    ¬∀ ops, Bookkeeping (run ops) := by
  have hrestart : ¬Bookkeeping (run [.syncRtp .default ⟨[], .ok 5004⟩ false,
      .restartRtp .default ⟨[], .error ""⟩]) := by
    intro h
    have hconfig := h.config
    cases hconfig
  exact ⟨by decide, by decide, by decide, fun h => hrestart (h _)⟩

/-- The status that `start` returns is the one that `status` shows then. -/
theorem start_status {b : BridgeHandle} {config : Config} {started : Started}
    {status : BridgeStatus} (h : (start b config started).2 = .ok status) :
    (start b config started).1.status = status := by
  unfold start startRuntime at h ⊢
  cases hclient : forConfig config.oscEnabled started.osc started.oscDefault with
  | error e =>
    rw [hclient] at h
    cases h
  | ok u =>
    cases hinput : OscInputServer.start config started.oscInput with
    | error e =>
      rw [hclient, hinput] at h
      cases h
    | ok oscInput =>
      rw [hclient, hinput] at h
      have hrecord := syncRtp_recorded (b := { stopInternal b with rtpSink := true }) config
        started.network false
      cases hsync : syncRtp { stopInternal b with rtpSink := true } config started.network false with
      | mk b' result =>
        rw [hsync] at hrecord
        simp only [hsync] at h ⊢
        cases result with
        | error e => cases h
        | ok v =>
          cases hreliable : started.reliable with
          | error e =>
            rw [hreliable] at h
            cases h
          | ok w =>
            rw [hreliable] at h
            cases h
            simp only [BridgeHandle.status, BridgeStatus.mk.injEq, true_and]
            cases hserver : b'.rtpServer with
            | none => simpa using hrecord rfl hserver
            | some server => rfl

end RtpOscMidi.L2.RtpLifecycle
