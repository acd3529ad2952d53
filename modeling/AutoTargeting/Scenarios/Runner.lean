import AutoTargeting.Control.Update
import AutoTargeting.Scenarios.Scenario

namespace AutoTargeting.Scenarios

open Control

structure Detection (F : Type) where
  bbox : BoundingBox
  className : String
  classId : ℕ
  confidence : F
  frameSeq : ℕ
  deriving DecidableEq, Repr

structure Clocks where
  utc : ℕ → ℤ
  mono : ℕ → Instant

/-- With the mock flight controller, which answers every call and is level. -/
def Clocks.env {F : Type} [F32 F] (t : Clocks) : Env F :=
  ⟨t.utc, t.mono, none, ⟨F32.ofRat 0, F32.ofRat 0⟩⟩

/-- The clocks during one frame, those of an action under its place in the file. -/
structure FrameClocks where
  action : ℕ → Clocks
  lockChecked : Instant
  update : Clocks
  videoFed : ℤ
  checked : ℤ
  order : HashOrder

structure RunClocks where
  created : Clocks
  connected : Clocks
  armed : Clocks
  frame : ℕ → FrameClocks

/-- An operator action of the file that the runner handed to the commander. -/
structure Executed where
  frame : ℕ
  index : ℕ
  result : CommanderResult

/-- One call of `process_watchdog_expiries`, with the commander before and after it. -/
structure WatchdogCheck (F : Type) where
  before : Commander F
  order : HashOrder
  now : ℤ
  after : Commander F

/-- The variables of the runner. `executed` and `checks` are the history of the run, oldest
first; the runner does not read them. -/
structure RunnerState (F : Type) where
  commander : Commander F
  lockAcquiredAt : Option Instant
  lockAcquisitionTimeMs : Option ℕ
  watchdogTriggers : ℕ
  failures : List String
  warnings : List String
  actionIdx : ℕ
  executed : List Executed
  checks : List (WatchdogCheck F)

/-- `duration` is left out. -/
structure ScenarioResult where
  name : String
  passed : Bool
  framesProcessed : ℕ
  finalState : SystemState
  fcCommandsSent : ℕ
  stateTransitions : ℕ
  watchdogTriggers : ℕ
  lockAcquisitionTimeMs : Option ℕ
  failures : List String
  warnings : List String
  deriving DecidableEq, Repr

/-- The characters of an upper case, as far as they are ASCII: the others are in no name of
a state. -/
def upperChar : Char → List Char
  | 'ı' => ['I']
  | 'ſ' => ['S']
  | 'ß' => ['S', 'S']
  | 'ﬀ' => ['F', 'F']
  | 'ﬁ' => ['F', 'I']
  | 'ﬂ' => ['F', 'L']
  | 'ﬃ' => ['F', 'F', 'I']
  | 'ﬄ' => ['F', 'F', 'L']
  | 'ﬅ' => ['S', 'T']
  | 'ﬆ' => ['S', 'T']
  | c => [c.toUpper]

def toUppercase (s : String) : String := String.ofList (s.toList.flatMap upperChar)

def parseState (s : String) : SystemState :=
  match toUppercase s with
  | "IDLE" => .idle
  | "ARMED" => .armed
  | "SCANNING" => .scanning
  | "TARGET_SELECTED" => .targetSelected
  | "TRACKING" => .tracking
  | "TRACKING_DEGRADED" => .trackingDegraded
  | "LOST" => .lost
  | "RTH" => .rth
  | "ABORT" => .abort
  | _ => .idle

/-- Every state's own name stands for it. -/
theorem parseState_asStr (s : SystemState) : parseState s.asStr = s := by
  cases s <;> decide

section
variable {F : Type}

/-- The product wraps at 64 bits, as in a release build. -/
def computeTargetPosition (sc : Scenario F) (frameSeq : ℕ) : ℕ × ℕ :=
  (frameSeq * sc.video.dotSpeedPxPerFrame.getD 3 % 2 ^ 64 % sc.video.width, sc.video.height / 2)

def generateDetections (sc : Scenario F) (frameSeq : ℕ) : List (Detection F) :=
  if sc.detections.occlusions.any (fun o => o.startFrame ≤ frameSeq && frameSeq ≤ o.endFrame) then
    []
  else
    let (x, y) := computeTargetPosition sc frameSeq
    [{ bbox :=
        ⟨x - sc.detections.bboxWidth / 2, y - sc.detections.bboxHeight / 2,
          sc.detections.bboxWidth, sc.detections.bboxHeight⟩
       className := sc.detections.className
       classId := sc.detections.classId
       confidence := sc.detections.confidence
       frameSeq := frameSeq }]

variable [F32 F]

def center (b : BoundingBox) : F × F :=
  (F32.ofNat b.x + F32.ofNat b.width / F32.ofRat 2,
    F32.ofNat b.y + F32.ofNat b.height / F32.ofRat 2)

def computeTargetOffset (sc : Scenario F) (detections : List (Detection F)) (c : Commander F) :
    Option (F × F) :=
  if c.state ≠ .tracking ∧ c.state ≠ .trackingDegraded then none
  else
    detections.head?.map fun det =>
      let (cx, cy) : F × F := center det.bbox
      let w : F := F32.ofNat sc.video.width
      let h : F := F32.ofNat sc.video.height
      ((cx - w / F32.ofRat 2) / (w / F32.ofRat 2), (cy - h / F32.ofRat 2) / (h / F32.ofRat 2))

namespace RunnerState

def fail (s : RunnerState F) (message : String) : RunnerState F :=
  { s with failures := s.failures ++ [message] }

/-- What the commander makes of an action, where the runner asks it for one. -/
def command (c : Commander F) (a : OperatorAction) (env : Env F) :
    Option (CommanderResult × Commander F) :=
  match a.action with
  | "select_target" => a.targetId.map c.selectTarget
  | "abort" => some (c.abort env)
  | "scan" => some c.startScanning
  | _ => none

/-- The text before the error of an action that failed. -/
def failureOf (frameSeq : ℕ) (a : OperatorAction) : String :=
  "frame " ++ toString frameSeq ++ ": " ++
    match a.action with
    | "select_target" => "select_target(" ++ toString (a.targetId.getD 0) ++ ") failed: "
    | other => other ++ " failed: "

def known : List String := ["select_target", "abort", "scan"]

def act (frameSeq : ℕ) (a : OperatorAction) (t : Clocks) (s : RunnerState F) : RunnerState F :=
  let s : RunnerState F := match command s.commander a t.env with
    | none =>
      if a.action ∈ known then s
      else
        { s with
          warnings := s.warnings ++
            ["frame " ++ toString frameSeq ++ ": unknown operator action '" ++ a.action ++ "'"] }
    | some (result, c) =>
      let s : RunnerState F := { s with
        commander := c
        executed := s.executed ++ [⟨frameSeq, s.actionIdx, result⟩] }
      match result with
      | .error e => s.fail (failureOf frameSeq a ++ e.display)
      | .ok () =>
        if a.action = "select_target" then { s with lockAcquiredAt := some (t.mono 0) } else s
  { s with actionIdx := s.actionIdx + 1 }

/-- The `while` loop, over the actions from `action_idx` on. -/
def runActions (frameSeq : ℕ) (t : ℕ → Clocks) :
    List OperatorAction → RunnerState F → RunnerState F
  | [], s => s
  | a :: rest, s =>
    if a.atFrame = frameSeq then
      runActions frameSeq t rest (s.act frameSeq a (t s.actionIdx))
    else s

/-- The lock is acquired when the state is first seen to be TRACKING. -/
def checkLock (now : Instant) (s : RunnerState F) : RunnerState F :=
  match s.lockAcquisitionTimeMs, s.lockAcquiredAt with
  | none, some t =>
    if s.commander.state = .tracking then
      { s with lockAcquisitionTimeMs := some ((now - t) / 1000000) }
    else s
  | _, _ => s

def feedCommander (frameSeq : ℕ) (offset : Option (F × F)) (t : Clocks) (s : RunnerState F) :
    RunnerState F :=
  match s.commander.update offset t.env with
  | (.error e, c) =>
    { s with commander := c }.fail
      ("frame " ++ toString frameSeq ++ ": update failed: " ++ e.display)
  | (.ok (), c) => { s with commander := c }

/-- The expired watchdogs are counted, whatever their action. -/
def checkWatchdogs (t : FrameClocks) (s : RunnerState F) : RunnerState F :=
  let before := s.commander.feedVideoWatchdog t.videoFed
  let (expired, after) := before.processWatchdogExpiries t.order t.checked
  { s with
    commander := after
    watchdogTriggers := s.watchdogTriggers + expired.length
    checks := s.checks ++ [⟨before, t.order, t.checked, after⟩] }

def onFrame (sc : Scenario F) (t : FrameClocks) (frameSeq : ℕ) (s : RunnerState F) :
    RunnerState F :=
  let s := runActions frameSeq t.action (sc.operatorActions.drop s.actionIdx) s
  let detections := generateDetections sc frameSeq
  let s := s.checkLock t.lockChecked
  let offset := computeTargetOffset sc detections s.commander
  (s.feedCommander frameSeq offset t.update).checkWatchdogs t

def beforeFrame (sc : Scenario F) (t : ℕ → FrameClocks) (s : RunnerState F) : ℕ → RunnerState F
  | 0 => s
  | n + 1 => (beforeFrame sc t s n).onFrame sc (t n) n

end RunnerState

/-- A commander that has connected, armed and begun to scan. -/
def startUp (t : RunClocks) : Except CommanderError (Commander F) :=
  match (Commander.new .default t.created.env).connect t.connected.env with
  | (.error e, _) => .error e
  | (.ok (), c) =>
    match c.arm t.armed.env with
    | (.error e, _) => .error e
    | (.ok (), c) =>
      match c.startScanning with
      | (.error e, _) => .error e
      | (.ok (), c) => .ok c

def recorded : Entry F → Bool
  | .fc .connect _ _ | .fc .disconnect _ _ | .transition _ _ => false
  | .fc _ _ _ => true

/-- The failures that the checks after the loop find. -/
def finalFailures (sc : Scenario F) (s : RunnerState F) : List String :=
  let state :=
    if s.commander.state ≠ parseState sc.expectedFinalState then
      ["final state mismatch: expected " ++ (parseState sc.expectedFinalState).asStr ++
        ", got " ++ s.commander.state.asStr]
    else []
  let lock := match sc.kpiChecks.lockAcquisitionTimeMs, s.lockAcquisitionTimeMs with
    | none, _ => []
    | some target, some actual =>
      if target < actual then
        ["lock acquisition time " ++ toString actual ++ "ms exceeds target " ++
          toString target ++ "ms"]
      else []
    | some _, none => ["lock was never acquired"]
  let triggers := match sc.kpiChecks.watchdogTriggers with
    | none => []
    | some limit =>
      if limit < s.watchdogTriggers then
        ["watchdog triggers " ++ toString s.watchdogTriggers ++ " exceed max " ++ toString limit]
      else []
  state ++ lock ++ triggers

def conclude (sc : Scenario F) (s : RunnerState F) : ScenarioResult :=
  let failures := s.failures ++ finalFailures sc s
  { name := sc.name
    passed := failures.isEmpty
    framesProcessed := sc.video.durationFrames
    finalState := s.commander.state
    fcCommandsSent := s.commander.log.countP recorded
    stateTransitions := s.commander.machine.transitionCount
    watchdogTriggers := s.watchdogTriggers
    lockAcquisitionTimeMs := s.lockAcquisitionTimeMs
    failures := failures
    warnings := s.warnings }

/-- `run_scenario` on a file that parses: the result, and the state that the loop ended in. -/
def runScenario (path : String) (sc : Scenario F) (t : RunClocks) :
    Except String (ScenarioResult × RunnerState F) :=
  match sc.load with
  | .error e => .error ("failed to load scenario " ++ path ++ ": " ++ e)
  | .ok sc =>
    match startUp t with
    | .error e => .error e.display
    | .ok c =>
      let s := RunnerState.beforeFrame sc t.frame ⟨c, none, none, 0, [], [], 0, [], []⟩
        sc.video.durationFrames
      .ok (conclude sc s, s)

end

end AutoTargeting.Scenarios
