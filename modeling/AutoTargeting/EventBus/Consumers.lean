import AutoTargeting.EventBus.Publishers
import AutoTargeting.EventBus.Dispatch
import AutoTargeting.Control.BusRunner
import AutoTargeting.Library.Inbox

namespace AutoTargeting.EventBus

open Json Runs Control

/-- What the loop uses of its multi-target tracker; `E` is what an update finds outside. -/
structure MultiTargetTracker (F T E : Type) where
  update : T → E → List (Detection F) → T
  activeTracks : T → List (TargetState F)
  isLocked : T → UInt64 → Bool
  trackCount : T → ℕ

/-- Durations are in nanoseconds. -/
structure TrackerConfig where
  lockedOnly : Bool
  statusInterval : ℕ
  maxDuration : Option ℕ
  quietTimeout : Option ℕ
  deriving DecidableEq, Repr

structure TrackerStatus (F : Type) where
  v : UInt8
  framesIn : ℕ
  tracksPublished : ℕ
  activeTracks : ℕ
  fps : F
  deriving DecidableEq

/-- The variables of the loop and what it published; `failed` is its return with an error. -/
structure TrackerRun (F T : Type) where
  mt : T
  framesIn : ℕ
  tracksPublished : ℕ
  windowStart : Instant
  windowFrames : ℕ
  started : Instant
  lastDet : Instant
  lastStatus : Instant
  published : List (TrackMsg F)
  statuses : List (TrackerStatus F)
  failed : Bool
  deriving DecidableEq

/-- What one turn finds outside: the clock, read by read, and which messages the bus takes. -/
structure TrackerTurn (E : Type) where
  now : Instant
  receivedAt : Instant
  env : E
  delivered : ℕ → Bool
  statusAt : Instant
  fpsAt : Instant
  windowAt : Instant
  statusDone : Instant

section
variable {F T E : Type} [PartialCmp F] [F32 F] (mt : MultiTargetTracker F T E) (cfg : TrackerConfig)

/-- `Duration::as_secs_f32`. -/
def asSecsF32 (d : ℕ) : F := F32.ofNat (d / 10 ^ 9) + F32.ofNat (d % 10 ^ 9) / F32.ofRat (10 ^ 9)

namespace TrackerRun

def fps (s : TrackerRun F T) (at_ : Instant) : F :=
  let secs : F := asSecsF32 (at_ - s.windowStart)
  if F32.ofRat 0 < secs then F32.ofNat s.windowFrames / secs else F32.ofRat 0

def publishStatus (s : TrackerRun F T) (t : TrackerTurn E) : TrackerRun F T :=
  if cfg.statusInterval ≤ t.statusAt - s.lastStatus then
    { s with
      statuses := s.statuses ++ [⟨contractVersion, s.framesIn, s.tracksPublished,
        mt.trackCount s.mt, s.fps t.fpsAt⟩]
      windowStart := t.windowAt
      windowFrames := 0
      lastStatus := t.statusDone }
  else s

def trackMsgs (tracker : T) (frame : DetectionsFrame F) : List (TrackMsg F) :=
  ((mt.activeTracks tracker).filter fun t => !cfg.lockedOnly || mt.isLocked tracker t.id).map
    (trackMsg frame.frameSeq frame.detections)

def onFrame (s : TrackerRun F T) (t : TrackerTurn E) (frame : DetectionsFrame F) :
    TrackerRun F T :=
  let tracker := mt.update s.mt t.env frame.detections
  let taken := ((trackMsgs mt cfg tracker frame).zipIdx.filter fun p => t.delivered p.2).map (·.1)
  { s with
    mt := tracker
    framesIn := s.framesIn + 1
    windowFrames := s.windowFrames + 1
    lastDet := t.receivedAt
    published := s.published ++ taken
    tracksPublished := s.tracksPublished + taken.length }

/-- The two ends that the loop has on purpose. -/
def finished (s : TrackerRun F T) (t : TrackerTurn E) : Bool :=
  cfg.maxDuration.any (fun limit => limit ≤ t.now - s.started) ||
    cfg.quietTimeout.any (fun quiet => 0 < s.framesIn && quiet ≤ t.now - s.lastDet)

/-- One turn: `recv_timeout` gives a frame, a timeout, or the error of a payload that does not
decode, with which the loop returns. -/
def turn (s : TrackerRun F T) (t : TrackerTurn E) (d : Drained (DetectionsFrame F)) :
    Option (TrackerRun F T) :=
  if s.failed || s.finished cfg t then none
  else
    match d.messages with
    | frame :: _ => some ((s.onFrame mt cfg t frame).publishStatus mt cfg t)
    | [] => if d.refused then some { s with failed := true } else some (s.publishStatus mt cfg t)

end TrackerRun

def trackerLoop : Consumer Unit (fun _ => DetectionsFrame F) (TrackerRun F T) (TrackerTurn E) where
  budget _ := some 1
  handle s t d := s.turn mt cfg t (d ())

end

inductive CommanderTopic
  | telemetry
  | tracks
  deriving DecidableEq

instance : Fintype CommanderTopic where
  elems := {.telemetry, .tracks}
  complete i := by cases i <;> decide

abbrev CommanderTopic.Msg (F G : Type) : CommanderTopic → Type
  | telemetry => TelemetrySample F G
  | tracks => TrackMsg F

def TrackMsg.forCommander {F : Type} (m : TrackMsg F) : Control.TrackMsg :=
  ⟨m.trackId.toNat, ⟨m.bbox.x.toNat, m.bbox.y.toNat, m.bbox.width.toNat, m.bbox.height.toNat⟩,
    m.misses.toNat⟩

/-- What one turn finds outside: `tick` without its messages, when a sample is handled, and what
the commander finds at each track. -/
structure CommanderTurn (F : Type) where
  tick : Tick F
  fedAt : ℤ
  found : ℕ → (ℕ → ℤ) × Env F

def CommanderTurn.withMessages {F : Type} (t : CommanderTurn F) (samples : ℕ)
    (tracks : List (TrackMsg F)) : Tick F :=
  { t.tick with
    telemetry := if samples = 0 then none else some t.fedAt
    tracks := tracks.zipIdx.map fun p => ⟨p.1.forCommander, (t.found p.2).1, (t.found p.2).2⟩ }

def commanderLoop (F G : Type) [F32 F] (cfg : CommanderBusConfig) :
    Consumer CommanderTopic (CommanderTopic.Msg F G) (BusState F) (CommanderTurn F) where
  budget
    | .telemetry => some 1
    | .tracks => some trackBudget
  handle s t d := s.step cfg (t.withMessages (d .telemetry).messages.length (d .tracks).messages)

/-- The variables of the loop, what it published and which calls it made. -/
structure BridgeRun (F : Type) where
  started : Instant
  commands : Commands F
  bridge : FcBridge
  samples : List Control.TelemetrySample
  deriving DecidableEq

/-- What one turn finds outside: the clock, the adapter's answers and what it keeps of the last
heartbeat, and whether the bus takes the sample. -/
structure BridgeTurn where
  now : Instant
  answers : ℕ → Option FcError
  teleAt : Instant
  cache : TelemetryCache
  delivered : Bool

/-- One turn of the loop, and `none` where it ends. -/
def BridgeRun.turn {F : Type} (G : Type) [ArgFloat F G] (cfg : BridgeConfig)
    (maxDuration : Option ℕ) (s : BridgeRun F) (t : BridgeTurn) (messages : List CommandMsg) :
    Option (BridgeRun F) :=
  if (maxDuration.any fun limit => limit ≤ t.now - s.started) = true then none
  else
    let answered := messages.zipIdx.map fun p => (p.1, t.answers p.2)
    let after := s.bridge.turn cfg t.cache t.teleAt t.delivered
    some { s with
      commands := answered.foldl (Commands.handle G) s.commands
      bridge := after.1
      samples := s.samples ++ after.2 }

def bridgeLoop (F G : Type) [ArgFloat F G] (cfg : BridgeConfig) (maxDuration : Option ℕ) :
    Consumer Unit (fun _ => CommandMsg) (BridgeRun F) BridgeTurn where
  budget _ := none
  handle s t d := s.turn G cfg maxDuration t (d ()).messages

end AutoTargeting.EventBus
