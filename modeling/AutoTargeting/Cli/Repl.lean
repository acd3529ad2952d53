import AutoTargeting.Cli.Lines
import AutoTargeting.Control.Watchdogs
import AutoTargeting.FcAdapter.Mock

namespace AutoTargeting.Cli

open Control FcAdapter

/-- What the console takes from the standard library to read its arguments; nothing is assumed of
it. -/
class Arguments (F : Type) where
  /-- `str::parse` of an `f32`, or its error. -/
  parseF32 : String → Except String F
  /-- `str::to_lowercase` -/
  toLowercase : String → String
  zero : F

def trim (line : String) : String :=
  String.ofList
    ((line.toList.dropWhile isWhitespace).reverse.dropWhile isWhitespace).reverse

/-- The digits of a number that the digits before made `n`. -/
def parseDigits (n : ℕ) : List Char → Except String ℕ
  | [] => .ok n
  | c :: s =>
    if c.isDigit then
      let n := 10 * n + (c.toNat - 48)
      if n < 2 ^ 64 then parseDigits n s else .error "number too large to fit in target type"
    else .error "invalid digit found in string"

def parseU64 (s : String) : Except String ℕ :=
  match s.toList with
  | [] => .error "cannot parse integer from empty string"
  | ['+'] => .error "invalid digit found in string"
  | '+' :: digits => parseDigits 0 digits
  | digits => parseDigits 0 digits

/-- `ReplContext`, but for the guard, which is only shown. -/
structure Repl (F : Type) where
  state : StateMachine
  fc : MockFcState F
  watchdogs : WatchdogRegistry

namespace Repl

/-- The clocks that a line finds: `Utc::now`, and `Instant::now`. -/
structure Clock where
  utc : ℤ
  instant : ℕ

variable {F : Type}

/-- A step of the state machine whose error is told with what it was for. -/
def transition (s : Repl F) (next : SystemState) (what : String) : Except String Unit × Repl F :=
  match s.state.tryTransition next with
  | (.ok (), m) => (.ok (), { s with state := m })
  | (.error e, m) => (.error (what ++ ": " ++ e.display), { s with state := m })

/-- A command to the flight controller, after which the state machine makes a step if it can. -/
def commandThen (s : Repl F) (called : Except FcError Unit × MockFcState F) (what : String)
    (next : Option SystemState) : Except String Unit × Repl F :=
  match called with
  | (.error e, fc) => (.error (what ++ ": " ++ e.display), { s with fc := fc })
  | (.ok (), fc) =>
    (.ok (), { s with
      fc := fc
      state := next.elim s.state fun next => (s.state.tryTransition next).2 })

section
variable [Arguments F]

variable (F) in
def parseFlightMode (s : String) : Except String FlightMode :=
  match Arguments.toLowercase F s with
  | "guided" => .ok .guided
  | "rtl" => .ok .rtl
  | "loiter" => .ok .loiter
  | "manual" => .ok .manual
  | "auto" => .ok .auto
  | "stabilize" | "stab" => .ok .stabilize
  | other => .error ("unknown flight mode: " ++ other)

def watchdogNamed (name : String) : Except String WatchdogId :=
  match name with
  | "video" => .ok .videoLoop
  | "inference" => .ok .inferenceLoop
  | "tracking" => .ok .trackingLoop
  | "command" => .ok .commandLoop
  | "heartbeat" | "fc" => .ok .fcHeartbeat
  | other => .error ("unknown watchdog: " ++ other)

/-- `select-target` goes through TARGET_SELECTED to TRACKING. -/
def selectTarget (s : Repl F) (args : List String) : Except String Unit × Repl F :=
  match args with
  | [] => (.error "usage: select-target <id>", s)
  | id :: _ =>
    match parseU64 id with
    | .error e => (.error ("invalid target id '" ++ id ++ "': " ++ e), s)
    | .ok _ =>
      match s.transition .targetSelected "state transition failed" with
      | (.error e, s) => (.error e, s)
      | (.ok (), s) => s.transition .tracking "lock acquisition failed"

def abort (s : Repl F) : Except String Unit × Repl F :=
  (.ok (), { s with state := s.state.forceTransition .abort, fc := (s.fc.setMode .rtl).2 })

def reset (s : Repl F) : Except String Unit × Repl F :=
  if s.state.state ≠ .abort then
    (.error ("reset only valid from ABORT state (current: " ++ s.state.state.asStr ++ ")"), s)
  else s.transition .idle "reset failed"

def setMode (s : Repl F) (args : List String) : Except String Unit × Repl F :=
  match args with
  | [] => (.error "usage: set-mode <guided|rtl|loiter|manual|auto>", s)
  | name :: _ =>
    match parseFlightMode F name with
    | .error e => (.error e, s)
    | .ok mode => s.commandThen (s.fc.setMode mode) "set_mode failed" none

def feedWatchdog (s : Repl F) (clock : Clock) (args : List String) : Except String Unit × Repl F :=
  match args with
  | [] => (.error "usage: feed-watchdog <video|inference|tracking|command|heartbeat>", s)
  | name :: _ =>
    match watchdogNamed name with
    | .error e => (.error e, s)
    | .ok id => (.ok (), { s with watchdogs := s.watchdogs.feed id clock.utc })

def angle (name arg : String) : Except String F :=
  match (Arguments.parseF32 arg : Except String F) with
  | .error e => .error (name ++ ": " ++ e)
  | .ok x => .ok x

def simulateAttitude (s : Repl F) (clock : Clock) (args : List String) :
    Except String Unit × Repl F :=
  match args with
  | roll :: pitch :: yaw :: _ =>
    let attitude : Except String (AttitudeRates F) := do
      let roll ← angle "roll" roll
      let pitch ← angle "pitch" pitch
      let yaw ← angle "yaw" yaw
      let zero := Arguments.zero
      .ok ⟨roll, pitch, yaw, zero, zero, zero⟩
    match attitude with
    | .error e => (.error e, s)
    | .ok attitude => (.ok (), { s with fc := s.fc.simulateAttitude attitude clock.instant })
  | _ => (.error "usage: simulate-attitude <roll> <pitch> <yaw>", s)

def handleCommand (s : Repl F) (clock : Clock) (input : String) : Except String Unit × Repl F :=
  match splitWhitespace input with
  | [] => (.ok (), s)
  | cmd :: args =>
    match cmd with
    | "help" | "h" | "?" => (.ok (), s)
    | "status" | "st" => (.ok (), s)
    | "arm" => s.commandThen s.fc.arm "arm failed" (some .armed)
    | "disarm" => s.commandThen s.fc.disarm "disarm failed" (some .idle)
    | "set-mode" | "mode" => s.setMode args
    | "scan" => s.transition .scanning "state transition failed"
    | "select-target" | "select" => s.selectTarget args
    | "abort" => s.abort
    | "reset" => s.reset
    | "watchdogs" | "wd" => (.ok (), s)
    | "anti-loop" | "al" => (.ok (), s)
    | "feed-watchdog" => s.feedWatchdog clock args
    | "simulate-heartbeat-loss" => (.ok (), { s with fc := s.fc.simulateHeartbeatLoss })
    | "simulate-attitude" => s.simulateAttitude clock args
    | "quit" | "exit" | "q" => (.ok (), s)
    | other => (.error ("unknown command: '" ++ other ++ "' — type 'help' for list"), s)

/-- Only these two lines end the loop, while `q` says good-bye and goes on. -/
def ends (line : String) : Bool := line = "quit" || line = "exit"

end

end Repl

/-- What happens to the console: a line, an interrupt, a turn of the task that feeds watchdogs, or
the end of the input. -/
inductive ReplEvent
  | line (text : String) (clock : Repl.Clock)
  | interrupted
  | fed (id : WatchdogId) (utc : ℤ)
  | ended

/-- The console, with `closed` after its loop. -/
structure ReplRun (F : Type) where
  repl : Repl F
  closed : Bool

def fedInBackground : List WatchdogId := [.videoLoop, .inferenceLoop, .trackingLoop, .commandLoop]

def ReplRun.step {F : Type} [Arguments F] (s : ReplRun F) : ReplEvent → Option (ReplRun F)
  | .line text clock =>
    if s.closed then none
    else
      let line := trim text
      if line = "" then some s
      else some ⟨(s.repl.handleCommand clock line).2, Repl.ends line⟩
  | .interrupted => if s.closed then none else some s
  | .ended => if s.closed then none else some { s with closed := true }
  | .fed id utc =>
    if id ∈ fedInBackground then
      some { s with repl := { s.repl with watchdogs := s.repl.watchdogs.feed id utc } }
    else none

/-- The timeouts of the watchdogs, in milliseconds. -/
structure ReplConfig where
  videoLoopWdtMs : ℕ
  inferenceLoopWdtMs : ℕ
  trackingLoopWdtMs : ℕ
  commandLoopWdtMs : ℕ
  heartbeatTimeoutMs : ℕ

def ReplRun.start {F : Type} [Arguments F] (cfg : ReplConfig) (clock : WatchdogId → ℤ)
    (connectedAt : ℕ) : ReplRun F where
  repl :=
    { state := ((StateMachine.new .idle).tryTransition .armed).2.tryTransition .scanning |>.2
      fc := ((((MockFcState.default Arguments.zero).connect connectedAt).arm).2.setMode .guided).2
      watchdogs :=
        ((((WatchdogRegistry.new.register .videoLoop ⟨cfg.videoLoopWdtMs, .degrade⟩
          (clock .videoLoop)).register .inferenceLoop ⟨cfg.inferenceLoopWdtMs, .degrade⟩
          (clock .inferenceLoop)).register .trackingLoop ⟨cfg.trackingLoopWdtMs, .degrade⟩
          (clock .trackingLoop)).register .commandLoop ⟨cfg.commandLoopWdtMs, .abort⟩
          (clock .commandLoop)).register .fcHeartbeat ⟨cfg.heartbeatTimeoutMs, .abort⟩
          (clock .fcHeartbeat) }
  closed := false

end AutoTargeting.Cli
