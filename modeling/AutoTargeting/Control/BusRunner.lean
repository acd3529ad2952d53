import AutoTargeting.Control.Commands

namespace AutoTargeting.Control

open Runs

/-- Durations are in nanoseconds. -/
structure CommanderBusConfig where
  frameSize : ℕ × ℕ
  maxTrackMisses : ℕ
  statusInterval : ℕ
  maxDuration : Option ℕ
  deriving DecidableEq, Repr

def CommanderBusConfig.default : CommanderBusConfig := ⟨(640, 480), 15, secs 1, none⟩

/-- The fields of a track message that the commander reads. -/
structure TrackMsg where
  trackId : TargetId
  bbox : BoundingBox
  misses : ℕ
  deriving DecidableEq, Repr

structure CommanderBusStats where
  tracksReceived : ℕ
  telemetryReceived : ℕ
  correctionsSent : ℕ
  correctionsSuppressed : ℕ
  deriving DecidableEq, Repr

def contractVersion : ℕ := 1

structure CommanderStatus where
  v : ℕ
  state : String
  activeTarget : Option TargetId
  stats : CommanderBusStats
  deriving DecidableEq, Repr

def trackBudget : ℕ := 32

/-- A track message with what the commander finds outside while it handles it: `utc` numbers
the feeds of the loop itself. -/
structure ReceivedTrack (F : Type) where
  track : TrackMsg
  utc : ℕ → ℤ
  env : Env F

/-- One turn of the loop: the clocks at its checks, the telemetry sample, if one waits, the
track messages that wait, and the flight controller for an abort. -/
structure Tick (F : Type) where
  now : Instant
  telemetry : Option ℤ
  tracks : List (ReceivedTrack F)
  commandFed : ℤ
  videoFed : ℤ
  checked : ℤ
  order : HashOrder
  abortEnv : Env F
  statusAt : Instant
  statusDone : Instant

/-- The variables of the loop, and what it published. -/
structure BusState (F : Type) where
  commander : Commander F
  stats : CommanderBusStats
  started : Instant
  lastStatus : Instant
  published : List CommanderStatus

section
variable {F : Type} [F32 F]

def bboxCenter (t : TrackMsg) : F × F :=
  (F32.ofNat t.bbox.x + F32.ofNat t.bbox.width / F32.ofRat 2,
    F32.ofNat t.bbox.y + F32.ofNat t.bbox.height / F32.ofRat 2)

/-- The centre of the track from the centre of the frame, in half frames. -/
def trackOffset (cfg : CommanderBusConfig) (t : TrackMsg) : F × F :=
  let (cx, cy) : F × F := bboxCenter t
  let halfW : F := F32.ofNat cfg.frameSize.1 / F32.ofRat 2
  let halfH : F := F32.ofNat cfg.frameSize.2 / F32.ofRat 2
  ((cx - halfW) / halfW, (cy - halfH) / halfH)

namespace BusState

/-- The update for a fresh track of the active target, and its place in the statistics. -/
def control (cfg : CommanderBusConfig) (s : BusState F) (r : ReceivedTrack F) : BusState F :=
  let t := s.commander.update (some (trackOffset cfg r.track)) r.env
  let after := t.2.rateLimiter.sentCount
  let stats := match t.1 with
    | .error _ => s.stats
    | .ok () =>
      if s.commander.rateLimiter.sentCount < after then
        { s.stats with correctionsSent := after }
      else { s.stats with correctionsSuppressed := s.stats.correctionsSuppressed + 1 }
  { s with commander := t.2, stats := stats }

/-- What the loop does before it controls: the first track seen becomes the target. -/
def acquireTarget (c : Commander F) (r : ReceivedTrack F) : Commander F :=
  let c := (c.feed .commandLoop (r.utc 0)).feedVideoWatchdog (r.utc 1)
  if c.activeTargetId = none then (c.selectTarget r.track.trackId).2 else c

def feedLoops (c : Commander F) (r : ReceivedTrack F) : Commander F :=
  ((c.feed .trackingLoop (r.utc 2)).feed .inferenceLoop (r.utc 3)).feedVideoWatchdog (r.utc 4)

def onTrack (cfg : CommanderBusConfig) (s : BusState F) (r : ReceivedTrack F) : BusState F :=
  let s := { s with
    stats := { s.stats with tracksReceived := s.stats.tracksReceived + 1 }
    commander := acquireTarget s.commander r }
  let s :=
    if r.track.misses ≤ cfg.maxTrackMisses ∧ s.commander.activeTargetId = some r.track.trackId then
      s.control cfg r
    else s
  { s with commander := feedLoops s.commander r }

/-- The telemetry branch: any sample feeds the heartbeat watchdog. -/
def onTelemetry (s : BusState F) : Option ℤ → BusState F
  | none => s
  | some fedAt => { s with
    stats := { s.stats with telemetryReceived := s.stats.telemetryReceived + 1 }
    commander := s.commander.feed .fcHeartbeat fedAt }

/-- The track branch, within its budget. -/
def drain (cfg : CommanderBusConfig) (s : BusState F) (tracks : List (ReceivedTrack F)) :
    BusState F := (tracks.take trackBudget).foldl (onTrack cfg) s

/-- The watchdog branch: the first watchdog with action Abort aborts and resets. -/
def checkWatchdogs (t : Tick F) (c : Commander F) : Commander F :=
  let c := (c.feed .commandLoop t.commandFed).feedVideoWatchdog t.videoFed
  let (expired, c) := c.processWatchdogExpiries t.order t.checked
  if expired.any (·.2 = .abort) then (c.abort t.abortEnv).2.reset.2 else c

def publishStatus (cfg : CommanderBusConfig) (s : BusState F) (t : Tick F) : BusState F :=
  if cfg.statusInterval ≤ t.statusAt - s.lastStatus then
    { s with
      published := s.published ++ [⟨contractVersion, s.commander.state.debugName,
        s.commander.activeTargetId, s.stats⟩]
      lastStatus := t.statusDone }
  else s

/-- One turn of the loop, and `none` where the loop ends. -/
def step (cfg : CommanderBusConfig) (s : BusState F) (t : Tick F) : Option (BusState F) :=
  if (cfg.maxDuration.any fun limit => limit ≤ t.now - s.started) = true then none
  else
    let s := (s.onTelemetry t.telemetry).drain cfg t.tracks
    some ({ s with commander := checkWatchdogs t s.commander }.publishStatus cfg t)

end BusState

/-- `CommanderBus::run` up to its loop; a subscription that fails ends it there too. -/
def begin (c : Commander F) (env : Env F) (started lastStatus : Instant) :
    Except String (BusState F) :=
  match c.connect env with
  | (.error e, _) => .error ("zenoh: " ++ e.display)
  | (.ok (), c) => .ok ⟨c.startScanning.2, ⟨0, 0, 0, 0⟩, started, lastStatus, []⟩

/-- The runs of `CommanderBus::run`, for any commander without a history yet. -/
def busRun (F : Type) [F32 F] (cfg : CommanderBusConfig) : Machine (BusState F) (Tick F) where
  Init s := ∃ c env started lastStatus, c.log = [] ∧ begin c env started lastStatus = .ok s
  step := BusState.step cfg

end

end AutoTargeting.Control
