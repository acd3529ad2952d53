import AutoTargeting.Control.Types

namespace AutoTargeting.Scenarios

open Control

structure VideoSpec where
  kind : String
  width : ℕ
  height : ℕ
  fps : ℕ
  durationFrames : ℕ
  dotSpeedPxPerFrame : Option ℕ
  deriving DecidableEq, Repr

structure OcclusionSpec where
  startFrame : ℕ
  endFrame : ℕ
  deriving DecidableEq, Repr

structure DetectionSpec (F : Type) where
  className : String
  classId : ℕ
  confidence : F
  bboxWidth : ℕ
  bboxHeight : ℕ
  occlusions : List OcclusionSpec
  deriving DecidableEq, Repr

structure OperatorAction where
  atFrame : ℕ
  action : String
  targetId : Option TargetId
  deriving DecidableEq, Repr

inductive FrameRef
  | single (frame : ℕ)
  | range (text : String)
  deriving DecidableEq, Repr

structure ExpectedEvent where
  atFrame : FrameRef
  event : String
  fromState : String
  toState : String
  deriving DecidableEq, Repr

structure KpiChecks (F : Type) where
  lockAcquisitionTimeMs : Option ℕ
  trackingAccuracyPercent : Option F
  recoveryTimeMs : Option ℕ
  yawCorrectionRateHz : Option ℕ
  watchdogTriggers : Option ℕ
  lostStateTransitions : Option ℕ
  wrongTargetLockCount : Option ℕ
  oscillationEscalationToAbort : Option Bool
  maxConsecutiveOscillations : Option ℕ
  deriving DecidableEq, Repr

structure Scenario (F : Type) where
  name : String
  video : VideoSpec
  detections : DetectionSpec F
  operatorActions : List OperatorAction
  expectedEvents : List ExpectedEvent
  expectedFinalState : String
  kpiChecks : KpiChecks F
  deriving DecidableEq, Repr

def splitOnce (separator : Char) : List Char → Option (List Char × List Char)
  | [] => none
  | c :: cs =>
    if c = separator then some ([], cs)
    else (splitOnce separator cs).map fun p => (c :: p.1, p.2)

/-- `str::parse::<u64>`: digits, after a plus sign if there is one. -/
def parseU64 (text : List Char) : Option ℕ :=
  let digits := if text.head? = some '+' then text.tail else text
  if digits = [] ∨ ¬ digits.all Char.isDigit then none
  else
    let n := digits.foldl (fun n c => 10 * n + (c.toNat - '0'.toNat)) 0
    if n < 2 ^ 64 then some n else none

def FrameRef.matches (r : FrameRef) (frame : ℕ) : Bool :=
  match r with
  | .single f => f = frame
  | .range s =>
    match splitOnce '-' s.toList with
    | none => false
    | some (startText, endText) =>
      match parseU64 startText, parseU64 endText with
      | some first, some last => first ≤ frame && frame ≤ last
      | _, _ => false

example : (FrameRef.range "50-100").matches 75 = true := by decide

variable {F : Type}

/-- The message of the `ScenarioError::Invalid` that `validate` returns. -/
def Scenario.validate (s : Scenario F) : Except String Unit :=
  if s.name = "" then .error "name is empty"
  else if s.video.width = 0 ∨ s.video.height = 0 then .error "video dimensions must be > 0"
  else if s.video.fps = 0 then .error "video fps must be > 0"
  else if s.video.durationFrames = 0 then .error "duration_frames must be > 0"
  else if s.video.kind ∉ ["synthetic", "replay"] then
    .error ("unknown video type: " ++ s.video.kind ++ " (expected 'synthetic' or 'replay')")
  else .ok ()

def Scenario.load (s : Scenario F) : Except String (Scenario F) :=
  match s.validate with
  | .error e => .error ("invalid scenario: " ++ e)
  | .ok () => .ok s

end AutoTargeting.Scenarios
