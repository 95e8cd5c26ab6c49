import Adas.BoundedCollect
import Adas.RowMajor
import Adas.FirstMaximum
import Adas.EventMachine
import Adas.FloatOps
import Adas.SafetyJudge
import Adas.SafetyJudgeOrder
import Adas.HazardLatch
import Adas.HazardLatchRuns
import Adas.HazardLatchRelease
import Adas.HazardLatchHistory
import Adas.UartFrame
import Adas.UartPort
import Adas.SafetyTransmitter
import Adas.SafetyTransmitterRuns
import Adas.SafetyBridge
import Adas.SafetyBridgeRuns
import Adas.SafetyBridgeHistory
import Adas.SafetyBridgeFrames
import Adas.SafetyBridgeCapacity
import Adas.SafetyBridgeFrameSize
import Adas.SafetyBridgeBackground
import Adas.SafetyBridgeProvenance
import Adas.SafetyBridgeSignHold
import Adas.ClassifierServer
import Adas.ClassifierDriver
import Adas.ClassifierDriverRuns
import Adas.CmdVelArbiter
import Adas.CmdVelArbiterRuns
import Adas.CmdVelArbiterEstop
import Adas.CmdVelArbiterForcedStops
import Adas.ButtonTeleop
import Adas.BoundedLoop
import Adas.ExactAccum
import Adas.MacPair
import Adas.ClassifierEngine
import Adas.GoldenInt8
import Adas.ClassifierEngineRows
import Adas.ClassifierEngineRequant
import Adas.ClassifierEngineSums
import Adas.ClassifierEngineGolden
import Adas.WindowScanner
import Adas.UartReceiver
import Adas.UartLink
import Adas.StreamProgram
import Adas.RoiProtocol
import Adas.TcpRoiServer
import Adas.TcpRoiClient
import Adas.ClassifyOne
import Adas.RoiExchange
import Adas.ClassifierPostprocess
import Adas.ClassifierPostprocessGolden
import Adas.RoiPreprocess
import Adas.GreedySelection
import Adas.Rounding
import Adas.RoiTypes
import Adas.RoiProposer
import Adas.DecodeReference
import Adas.RoiCropper
import Adas.ByteFile
import Adas.ClassifierModel
import Adas.ConvNet
import Adas.CrossLayerEqualization
import Adas.FixedPoint
import Adas.QuantizeExport
import Adas.CmdVelArbiterLimits
import Adas.SafetyDebounce
import Adas.SafetyDebounceRuns
import Adas.NearestRank
import Adas.LatencyStats
import Adas.CyclicRedundancy
import Adas.UartCrc
import Adas.MemoryRegion
import Adas.ClassifierRegisters
import Adas.ClassifierDeployment
import Adas.ClassifierDeploymentRuns
import Adas.ExportedNetwork
import Adas.ResourceLedger
import Adas.V4L2Capture
import Adas.V4L2CaptureStops
import Adas.LatestSlot
import Adas.FrameSource
import Adas.FrameSourceRuns
import Adas.FrameSourceThreads
import Adas.LengthFramed
import Adas.MjpegStreamServer
import Adas.MjpegStreamRuns
import Adas.SafetyChain
import Adas.SafetyChainRuns
import Adas.SequenceLock
import Adas.SafetyMessage
import Adas.SafetyMessageRuns
import Adas.KeepAlive
import Adas.KeyedRuns
import Adas.JetsonRoiClient
import Adas.JetsonRoiClientRuns
import Adas.FrameServing
import Adas.FrameCadence
import Adas.InsertionDict
import Adas.JetsonMeasurements
