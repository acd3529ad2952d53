import AutoTargeting.Library.Machine
import AutoTargeting.Library.Pool
import AutoTargeting.Library.LastWrite
import AutoTargeting.Library.Greedy
import AutoTargeting.Ring.Layout
import AutoTargeting.Ring.Memory
import AutoTargeting.Ring.Publish
import AutoTargeting.Ring.Acquire
import AutoTargeting.Ring.Frames
import AutoTargeting.Ring.FramesStep
import AutoTargeting.Ring.Reaper
import AutoTargeting.Ring.System
import AutoTargeting.Ring.Counting
import AutoTargeting.Ring.Counted
import AutoTargeting.Ring.Seen
import AutoTargeting.Ring.Invariant
import AutoTargeting.Ring.TornRead
import AutoTargeting.Ring.ReaperSafety
import AutoTargeting.Ring.CrashRecovery
import AutoTargeting.Ring.Sequential
import AutoTargeting.Ring.Refinement
import AutoTargeting.Ring.Window
import AutoTargeting.Ring.WindowLaw
import AutoTargeting.Ring.LatestOrder
import AutoTargeting.Ring.StuckSlot
import AutoTargeting.Control.Types
import AutoTargeting.Control.StateMachine
import AutoTargeting.Control.Watchdogs
import AutoTargeting.Control.AntiLoop
import AutoTargeting.Control.Commander
import AutoTargeting.Control.WallClock
import AutoTargeting.Control.Update
import AutoTargeting.Control.Moves
import AutoTargeting.Control.Operations
import AutoTargeting.Control.Corrections
import AutoTargeting.Control.Commands
import AutoTargeting.Control.Disarm
import AutoTargeting.Control.BusRunner
import AutoTargeting.Control.FailSafe
import AutoTargeting.Control.Feeding
import AutoTargeting.Control.BusOperations
import AutoTargeting.Control.IdleDisarmed
import AutoTargeting.Control.Atomicity
import AutoTargeting.Control.FcLink
import AutoTargeting.Control.HeartbeatWatch
import AutoTargeting.Control.HeartbeatLoss
import AutoTargeting.Control.HeartbeatDeadline
import AutoTargeting.Control.Coherence
import AutoTargeting.Control.Recovery
import AutoTargeting.Control.TrackFreshness
import AutoTargeting.Ipc.Base64
import AutoTargeting.Ipc.Transport
import AutoTargeting.Ipc.TransportStep
import AutoTargeting.Ipc.SharedFrames
import AutoTargeting.Ipc.Registry
import AutoTargeting.Ipc.TransportInvariant
import AutoTargeting.Ipc.FrameAgreement
import AutoTargeting.Ipc.Framing
import AutoTargeting.Ipc.Session
import AutoTargeting.Ipc.ResponseMatching
import AutoTargeting.FcAdapter.MavlinkCore
import AutoTargeting.FcAdapter.Attribution
import AutoTargeting.Yolo.Rounding
import AutoTargeting.Yolo.Letterbox
import AutoTargeting.Yolo.Postprocess
import AutoTargeting.Yolo.RknnInfer
import AutoTargeting.Yolo.Agreement
import AutoTargeting.Library.LittleEndian
import AutoTargeting.Ring.Segment
import AutoTargeting.Ring.LayoutSafety
import AutoTargeting.Ring.Loop
import AutoTargeting.Ring.FrameStream
import AutoTargeting.Ring.Recorder
import AutoTargeting.Ipc.ReceiveMessage
import AutoTargeting.Ipc.RunBridge
import AutoTargeting.Ipc.Survival
import AutoTargeting.Ipc.HealthCheck
import AutoTargeting.Ipc.HealthSession
import AutoTargeting.Detector.Preprocess
import AutoTargeting.Detector.BufferFits
import AutoTargeting.Library.JsonText
import AutoTargeting.Library.JsonNumber
import AutoTargeting.Library.Json
import AutoTargeting.Library.JsonReading
import AutoTargeting.Library.JsonFields
import AutoTargeting.EventBus.Messages
import AutoTargeting.EventBus.RoundTrip
import AutoTargeting.EventBus.Delivery
import AutoTargeting.Library.Inbox
import AutoTargeting.EventBus.Dispatch
import AutoTargeting.EventBus.Consumers
import AutoTargeting.EventBus.BadPayloads
import AutoTargeting.Library.Spacing
import AutoTargeting.Control.GuardRuns
import AutoTargeting.Control.GuardLaw
import AutoTargeting.Control.GuardTriggers
import AutoTargeting.Control.CorrectionBound
import AutoTargeting.Ota.Install
import AutoTargeting.Ota.AtomicInstall
import AutoTargeting.Library.Assignment
import AutoTargeting.Tracker.Hungarian
import AutoTargeting.Tracker.HungarianLoops
import AutoTargeting.Tracker.HungarianSearch
import AutoTargeting.Tracker.HungarianRows
import AutoTargeting.Tracker.HungarianOptimal
import AutoTargeting.Library.Keyed
import AutoTargeting.Tracker.MultiTracker
import AutoTargeting.Tracker.Matching
import AutoTargeting.Tracker.TrackerRuns
import AutoTargeting.Tracker.TrackIds
import AutoTargeting.Tracker.Exchange
import AutoTargeting.Tracker.UnmatchedPairs
import AutoTargeting.Ring.QuietLoop
import AutoTargeting.Ring.QuietTimeout
import AutoTargeting.Library.Cursor
import AutoTargeting.Scenarios.Scenario
import AutoTargeting.Scenarios.Runner
import AutoTargeting.Scenarios.RunnerLaws
import AutoTargeting.Scenarios.Verdict
import AutoTargeting.Library.JsonSearch
import AutoTargeting.Library.Strtod
import AutoTargeting.Ipc.InitRequest
import AutoTargeting.Ipc.Responses
import AutoTargeting.Library.PlanarMap
import AutoTargeting.Library.Streaks
import AutoTargeting.Tracker.Kalman
import AutoTargeting.Tracker.Locks
import AutoTargeting.Tracker.Sightings
import AutoTargeting.Tracker.TargetTracker
import AutoTargeting.Library.Overlap
import AutoTargeting.CvInference.Iou
import AutoTargeting.EventBus.TrackMessages
import AutoTargeting.CvInference.Nms
import AutoTargeting.Yolo.InsideFrame
import AutoTargeting.Yolo.RoundTrip
import AutoTargeting.Library.Blocks
import AutoTargeting.Detector.Sampling
import AutoTargeting.Library.Buffers
import AutoTargeting.VideoCapture.Convert
import AutoTargeting.VideoCapture.ConvertTotal
import AutoTargeting.VideoCapture.YuyvPaths
import AutoTargeting.Library.OrderStatistics
import AutoTargeting.Detector.Metrics
import AutoTargeting.Control.Pid
import AutoTargeting.Control.RateLimit
import AutoTargeting.Library.DecimalOrder
import AutoTargeting.Ota.Versions
import AutoTargeting.Library.JsonPretty
import AutoTargeting.VideoCapture.Replay
import AutoTargeting.VideoCapture.ReplayLaws
import AutoTargeting.Library.Binary
import AutoTargeting.Library.BinaryWords
import AutoTargeting.FcAdapter.CommandEncoding
import AutoTargeting.EventBus.DispatchCalls
import AutoTargeting.Control.CorrectionCount
import AutoTargeting.Library.RunningMax
import AutoTargeting.Library.BinaryOrder
import AutoTargeting.Yolo.ClassScan
import AutoTargeting.Yolo.RknnClassScan
import AutoTargeting.Library.WordStore
import AutoTargeting.Ring.Directory
import AutoTargeting.Ring.Prepared
import AutoTargeting.Ring.Lifecycle
import AutoTargeting.Ring.Names
import AutoTargeting.Cli.Lines
import AutoTargeting.Cli.BusConsole
import AutoTargeting.Cli.ConsoleRuns
import AutoTargeting.FcAdapter.Mock
import AutoTargeting.Cli.Repl
import AutoTargeting.Cli.ReplRuns
import AutoTargeting.Library.GreatCircle
import AutoTargeting.Control.Safety
import AutoTargeting.Control.SafetyLaws
import AutoTargeting.Library.JsonLines
import AutoTargeting.Visualizer.FrameWriter
import AutoTargeting.Visualizer.WriterRuns
import AutoTargeting.Ring.Geometry
import AutoTargeting.Ring.HandedOut
import AutoTargeting.Ring.Among
import AutoTargeting.VideoRecorder.Encoding
import AutoTargeting.VideoRecorder.Pictures
import AutoTargeting.VideoRecorder.Recording
import AutoTargeting.Detector.Events
import AutoTargeting.Detector.EventRuns
import AutoTargeting.Detector.Chain
import AutoTargeting.Library.Channel
import AutoTargeting.VideoCapture.Direct
import AutoTargeting.Ring.Offered
import AutoTargeting.VideoRecorder.CameraPublisher
import AutoTargeting.VideoRecorder.CameraRuns
import AutoTargeting.Detector.Corrections
import AutoTargeting.Detector.FramePixels
import AutoTargeting.CvInference.CpuOnnx
import AutoTargeting.CvInference.CpuFound
