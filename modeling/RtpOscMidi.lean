import RtpOscMidi.Core.Binary32
import RtpOscMidi.Core.Bits
import RtpOscMidi.Core.Bytes
import RtpOscMidi.Core.Coalesce
import RtpOscMidi.Core.Json
import RtpOscMidi.Core.LTS
import RtpOscMidi.Core.Lists
import RtpOscMidi.Core.Monitor
import RtpOscMidi.Core.Notify
import RtpOscMidi.Core.Parser
import RtpOscMidi.Core.Saturating
import RtpOscMidi.Core.SlidingWindow
import RtpOscMidi.Core.Transaction
import RtpOscMidi.Core.Words
import RtpOscMidi.L1Encoding.ControlFrame
import RtpOscMidi.L1Encoding.MidiMessage
import RtpOscMidi.L1Encoding.OscArguments
import RtpOscMidi.L1Encoding.OscDecode
import RtpOscMidi.L1Encoding.OscGrammar
import RtpOscMidi.L1Encoding.OscMessages
import RtpOscMidi.L1Encoding.OscPacket
import RtpOscMidi.L1Encoding.ReliableFraming
import RtpOscMidi.L1Encoding.StateCodec
import RtpOscMidi.L1Encoding.WireFrame
import RtpOscMidi.L2Machine.Config
import RtpOscMidi.L2Machine.ConfigChange
import RtpOscMidi.L2Machine.ConfigStore
import RtpOscMidi.L2Machine.DeferredActions
import RtpOscMidi.L2Machine.GameMode
import RtpOscMidi.L2Machine.InputRouting
import RtpOscMidi.L2Machine.MidiPlayback
import RtpOscMidi.L2Machine.MidiQueue
import RtpOscMidi.L2Machine.OscOutput
import RtpOscMidi.L2Machine.ParameterRestore
import RtpOscMidi.L2Machine.PendingMidi
import RtpOscMidi.L2Machine.PluginScan
import RtpOscMidi.L2Machine.RestartBudget
import RtpOscMidi.L2Machine.RtpLifecycle
import RtpOscMidi.L2Machine.SourceState
import RtpOscMidi.L5Concurrency.Admission
import RtpOscMidi.L5Concurrency.AudioIngress
import RtpOscMidi.L5Concurrency.BridgeBarrier
import RtpOscMidi.L5Concurrency.BridgeFreshness
import RtpOscMidi.L5Concurrency.BridgeMerging
import RtpOscMidi.L5Concurrency.BridgeParameters
import RtpOscMidi.L5Concurrency.BridgeRequests
import RtpOscMidi.L5Concurrency.CallbackGate
import RtpOscMidi.L5Concurrency.CatalogueUpdates
import RtpOscMidi.L5Concurrency.ControlCommands
import RtpOscMidi.L5Concurrency.EqualizerPublication
import RtpOscMidi.L5Concurrency.EqualizerSeqlock
import RtpOscMidi.L5Concurrency.EqualizerSteps
import RtpOscMidi.L5Concurrency.IngressCallback
import RtpOscMidi.L5Concurrency.IngressCompensation
import RtpOscMidi.L5Concurrency.MidiBlocks
import RtpOscMidi.L5Concurrency.MidiWriter
import RtpOscMidi.L5Concurrency.OscInput
import RtpOscMidi.L5Concurrency.OscWorker
import RtpOscMidi.L5Concurrency.ParameterBarrier
import RtpOscMidi.L5Concurrency.ProcessingLoop
import RtpOscMidi.L5Concurrency.ReliablePlayback
import RtpOscMidi.L5Concurrency.RenderAhead
import RtpOscMidi.L5Concurrency.RenderPanic
import RtpOscMidi.L5Concurrency.Routing
import RtpOscMidi.L5Concurrency.RtpInvitations
import RtpOscMidi.L5Concurrency.RtpOutput
import RtpOscMidi.L5Concurrency.RtpPanics
import RtpOscMidi.L5Concurrency.RtpRecovery
import RtpOscMidi.L5Concurrency.RtpRoute
import RtpOscMidi.L5Concurrency.RtpSchedule
import RtpOscMidi.L5Concurrency.RtpScheduler
import RtpOscMidi.L5Concurrency.SourceWindows
import RtpOscMidi.L5Concurrency.StuckNotes
import RtpOscMidi.L5Concurrency.Supervisor
import RtpOscMidi.L5Concurrency.SupervisorStop
import RtpOscMidi.L5Concurrency.ThruWorker
import RtpOscMidi.L5Concurrency.WindowOrder
import RtpOscMidi.L5Concurrency.WindowSteps
