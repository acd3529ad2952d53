import AutoTargeting.Control.Watchdogs
import AutoTargeting.Control.AntiLoop

namespace AutoTargeting.Control

inductive CommanderError
  | stateTransition (e : StateTransitionError)
  | fc (e : FcError)
  | notConnected
  | invalidState (current expected : SystemState)
  deriving DecidableEq, Repr

def CommanderError.display : CommanderError → String
  | stateTransition e => "state transition error: " ++ e.display
  | fc e => "FC error: " ++ e.display
  | notConnected => "not connected — call connect() first"
  | invalidState current expected =>
    "invalid state for operation: " ++ current.asStr ++ " (expected " ++ expected.asStr ++ ")"

/-- What a commander does that others can see: its changes of state, and its calls to the
flight controller with the error that came back. -/
inductive Entry (F : Type)
  | transition (fromState toState : SystemState)
  | fc (call : FcCall F) (error : Option FcError) (sentAt : Instant)
  deriving DecidableEq, Repr

/-- What one operation finds outside: the clocks, read by read, the answer of the flight
controller to the one call an operation makes, and its last attitude. -/
structure Env (F : Type) where
  utc : ℕ → ℤ
  mono : ℕ → Instant
  fcError : Option FcError
  attitude : Attitude F

/-- Both clocks stand at `now` nanoseconds, and the flight controller answers. -/
def envAt (now : ℕ) : Env ℚ := ⟨fun _ => now, fun _ => now, none, ⟨0, 0⟩⟩

/-- `log` is the history of the commander, oldest first; no operation reads it. -/
structure Commander (F : Type) where
  machine : StateMachine
  watchdogs : WatchdogRegistry
  antiLoop : AntiLoopState
  rateLimiter : CommandRateLimiter
  camera : CameraParams F
  config : CommanderConfig F
  activeTargetId : Option TargetId
  lastCommandAt : Option Instant
  connected : Bool
  log : List (Entry F)

abbrev CommanderResult := Except CommanderError Unit

namespace Commander
variable {F : Type} [F32 F]

def new (config : CommanderConfig F) (env : Env F) : Commander F where
  machine := .new .idle
  watchdogs := WatchdogRegistry.new
    |>.register .videoLoop ⟨config.videoLoopWdtMs, .degrade⟩ (env.utc 0)
    |>.register .inferenceLoop ⟨config.inferenceLoopWdtMs, .degrade⟩ (env.utc 1)
    |>.register .trackingLoop ⟨config.trackingLoopWdtMs, .degrade⟩ (env.utc 2)
    |>.register .commandLoop ⟨config.commandLoopWdtMs, .abort⟩ (env.utc 3)
  antiLoop := .new
  rateLimiter := .new 10
  camera := .default
  config := config
  activeTargetId := none
  lastCommandAt := none
  connected := false
  log := []

def withCameraParams (c : Commander F) (camera : CameraParams F) : Commander F :=
  { c with camera := camera }

def state (c : Commander F) : SystemState := c.machine.state

def feed (c : Commander F) (id : WatchdogId) (now : ℤ) : Commander F :=
  { c with watchdogs := c.watchdogs.feed id now }

def feedVideoWatchdog (c : Commander F) (now : ℤ) : Commander F := c.feed .videoLoop now

/-- Puts the machine that a transition left in place, and the change, if any, on record. -/
def withMachine (c : Commander F) (m : StateMachine) : Commander F :=
  { c with
    machine := m
    log := if m.state = c.state then c.log else c.log ++ [.transition c.state m.state] }

def tryTransition (c : Commander F) (next : SystemState) : CommanderResult × Commander F :=
  let t := c.machine.tryTransition next
  (t.1.mapError .stateTransition, c.withMachine t.2)

def forceTransition (c : Commander F) (next : SystemState) : Commander F :=
  c.withMachine (c.machine.forceTransition next)

def callFc (c : Commander F) (call : FcCall F) (env : Env F) (sentAt : Instant) :
    CommanderResult × Commander F :=
  (match env.fcError with
    | none => .ok ()
    | some e => .error (.fc e),
    { c with log := c.log ++ [.fc call env.fcError sentAt] })

def connect (c : Commander F) (env : Env F) : CommanderResult × Commander F :=
  match c.callFc .connect env (env.mono 0) with
  | (.error e, c) => (.error e, c)
  | (.ok (), c) =>
    { c with
      connected := true
      watchdogs := c.watchdogs.register .fcHeartbeat
        ⟨max c.config.fcHeartbeatWdtMs 1000, .abort⟩ (env.utc 0) }.tryTransition .armed

def disconnect (c : Commander F) (env : Env F) : CommanderResult × Commander F :=
  match c.callFc .disconnect env (env.mono 0) with
  | (.error e, c) => (.error e, c)
  | (.ok (), c) => (.ok (), { c with connected := false })

/-- `arm`, `set_flight_mode` and `set_roi` make their call and do no more. -/
def requestFc (c : Commander F) (call : FcCall F) (env : Env F) : CommanderResult × Commander F :=
  if !c.connected then (.error .notConnected, c) else c.callFc call env (env.mono 0)

def arm (c : Commander F) (env : Env F) : CommanderResult × Commander F := c.requestFc .arm env

def setFlightMode (c : Commander F) (mode : FlightMode) (env : Env F) :
    CommanderResult × Commander F := c.requestFc (.setMode mode) env

def setRoi (c : Commander F) (roi : RoiTarget F) (env : Env F) : CommanderResult × Commander F :=
  c.requestFc (.setRoi roi) env

/-- The result of the transition to IDLE is thrown away. -/
def disarm (c : Commander F) (env : Env F) : CommanderResult × Commander F :=
  if !c.connected then (.error .notConnected, c)
  else
    match c.callFc .disarm env (env.mono 0) with
    | (.error e, c) => (.error e, c)
    | (.ok (), c) => (.ok (), { (c.tryTransition .idle).2 with activeTargetId := none })

def startScanning (c : Commander F) : CommanderResult × Commander F :=
  match c.tryTransition .scanning with
  | (.error e, c) => (.error e, c)
  | (.ok (), c) => (.ok (), { c with activeTargetId := none })

def selectTarget (c : Commander F) (targetId : TargetId) : CommanderResult × Commander F :=
  match c.state with
  | .scanning | .tracking | .trackingDegraded | .lost =>
    match c.tryTransition .targetSelected with
    | (.error e, c) => (.error e, c)
    | (.ok (), c) =>
      match c.tryTransition .tracking with
      | (.error e, c) => (.error e, c)
      | (.ok (), c) => (.ok (), { c with activeTargetId := some targetId })
  | current => (.error (.invalidState current .scanning), c)

end Commander

end AutoTargeting.Control
