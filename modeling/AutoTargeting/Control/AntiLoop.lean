import AutoTargeting.Control.Types
import AutoTargeting.Library.Strtod

namespace AutoTargeting.Control

/-- Nanoseconds of the monotonic clock. -/
abbrev Instant := ℕ

def secs (n : ℕ) : ℕ := n * 1000000000

structure CorrectionCommand (F : Type) where
  yawRateDps : F
  pitchRateDps : F
  offsetX : F
  offsetY : F
  generatedAt : Instant
  deriving DecidableEq, Repr

inductive GuardDecision (F : Type)
  | allow (cmd : CorrectionCommand F)
  | suppress
  | degrade
  | abort
  deriving DecidableEq, Repr

/-- `yawSignHistory` has the newest sign last. -/
structure AntiLoopState where
  yawSignHistory : List Bool
  frozen : Bool
  freezeUntil : Option Instant
  recentTriggers : List Instant
  suppressedCount : ℕ
  allowedCount : ℕ
  oscillationTriggerCount : ℕ
  deriving DecidableEq, Repr

namespace AntiLoopState

def new : AntiLoopState := ⟨[], false, none, [], 0, 0, 0⟩

def suppress {F : Type} (s : AntiLoopState) : GuardDecision F × AntiLoopState :=
  (.suppress, { s with suppressedCount := s.suppressedCount + 1 })

end AntiLoopState

section
variable {F : Type} [F32 F]

/-- The bounding limits: a value beyond `limit` keeps its sign only. -/
def clip (x limit : F) : F := if limit < F32.abs x then F32.signum x * limit else x

def CorrectionCommand.clipped (c : CommanderConfig F) (cmd : CorrectionCommand F) :
    CorrectionCommand F :=
  { cmd with
    yawRateDps := clip cmd.yawRateDps c.maxYawRateDps
    pitchRateDps := clip cmd.pitchRateDps c.maxPitchRateDps
    offsetX := clip cmd.offsetX c.maxOffsetFraction
    offsetY := clip cmd.offsetY c.maxOffsetFraction }

/-- `count_sign_changes`: how often two neighbours in the history, then `next`, differ. -/
def countSignChanges (history : List Bool) (next : Bool) : ℕ :=
  match history with
  | [] => 0
  | front :: rest =>
    let (changes, prev) := rest.foldl
      (fun (changes, prev) v => (if v ≠ prev then changes + 1 else changes, v)) (0, front)
    if next ≠ prev then changes + 1 else changes

/-- The oscillation detector: does a command of this yaw rate change the sign once too often? -/
def oscillates (c : CommanderConfig F) (history : List Bool) (yawRateDps : F) : Bool :=
  let yawSign : Bool := F32.ofRat 0 < yawRateDps
  match history.getLast? with
  | none => false
  | some prev =>
    if prev ≠ yawSign ∧ F32.ofRat (1 / 10) < F32.abs yawRateDps then
      let windowSize : F := F32.ofNat history.length
      let changeRate := F32.ofNat (countSignChanges history yawSign) / windowSize
      (F32.ofRat 0 : F) < windowSize ∧ c.oscillationThreshold < changeRate
    else false

/-- Freezes the commands for a second; `oscillationAbortCount` triggers in five seconds are
too many. -/
def handleOscillation (c : CommanderConfig F) (s : AntiLoopState) (now : Instant) :
    GuardDecision F × AntiLoopState :=
  let recent := s.recentTriggers.filter (now - · < secs 5) ++ [now]
  let s := { s with
    oscillationTriggerCount := s.oscillationTriggerCount + 1
    recentTriggers := recent
    frozen := true
    freezeUntil := some (now + secs 1)
    yawSignHistory := [] }
  if c.oscillationAbortCount ≤ recent.length % 2 ^ 32 then (.abort, s) else (.degrade, s)

/-- `AntiLoopGuard::process` after the freeze check. -/
def processUnfrozen (c : CommanderConfig F) (s : AntiLoopState) (cmd : CorrectionCommand F)
    (triggeredAt : Instant) : GuardDecision F × AntiLoopState :=
  if F32.abs cmd.offsetX < c.deadbandFraction ∧ F32.abs cmd.offsetY < c.deadbandFraction then
    s.suppress
  else
    let clipped := cmd.clipped c
    if oscillates c s.yawSignHistory clipped.yawRateDps then handleOscillation c s triggeredAt
    else
      let pushed := s.yawSignHistory ++ [decide (F32.ofRat 0 < clipped.yawRateDps)]
      let history := if c.oscillationWindow < pushed.length then pushed.tail else pushed
      (.allow clipped, { s with yawSignHistory := history, allowedCount := s.allowedCount + 1 })

def process (c : CommanderConfig F) (s : AntiLoopState) (cmd : CorrectionCommand F)
    (now triggeredAt : Instant) : GuardDecision F × AntiLoopState :=
  match s.freezeUntil with
  | some until_ =>
    if now < until_ then s.suppress
    else processUnfrozen c { s with frozen := false, freezeUntil := none } cmd triggeredAt
  | none => processUnfrozen c s cmd triggeredAt

end

/-- A limiter of the calls to the flight controller. -/
structure CommandRateLimiter where
  minInterval : ℕ
  lastSent : Option Instant
  droppedCount : ℕ
  sentCount : ℕ
  deriving DecidableEq, Repr

namespace CommandRateLimiter

/-- The interval is the `f64` of `1 / rateHz` seconds, to the nearest nanosecond. -/
def new (rateHz : ℕ) : CommandRateLimiter :=
  ⟨(Strtod.roundEven (Strtod.nearest (1 / rateHz) * secs 1)).toNat, none, 0, 0⟩

def forceSend (l : CommandRateLimiter) (now : Instant) : CommandRateLimiter :=
  { l with lastSent := some now, sentCount := l.sentCount + 1 }

def trySend (l : CommandRateLimiter) (now : Instant) : Bool × CommandRateLimiter :=
  match l.lastSent with
  | none => (true, l.forceSend now)
  | some last =>
    if l.minInterval ≤ now - last then (true, l.forceSend now)
    else (false, { l with droppedCount := l.droppedCount + 1 })

end CommandRateLimiter

/-- The fields of view of `CameraParams`, which the yaw command depends on. -/
structure CameraParams (F : Type) where
  hfovRad : F
  vfovRad : F
  deriving DecidableEq, Repr

structure FrameOffset (F : Type) where
  x : F
  y : F
  deriving DecidableEq, Repr

structure NedTarget (F : Type) where
  yaw : F
  yawRate : F
  deriving DecidableEq, Repr

namespace CameraParams
variable {F : Type} [F32 F]

def fromDegrees (hfovDeg vfovDeg : F) : CameraParams F :=
  ⟨F32.toRadians hfovDeg, F32.toRadians vfovDeg⟩

def default : CameraParams F := fromDegrees (F32.ofRat 60) (F32.ofRat 34)

def offsetToAngle (camera : CameraParams F) (offset : FrameOffset F) : F × F :=
  (offset.x * (camera.hfovRad / F32.ofRat 2), offset.y * (camera.vfovRad / F32.ofRat 2))

/-- `CameraToAngular::offset_to_ned_target_with_attitude`: the pitch changes nothing. -/
def offsetToNedTargetWithAttitude (camera : CameraParams F) (offset : FrameOffset F)
    (_dronePitch droneYaw : F) : NedTarget F :=
  ⟨droneYaw + (camera.offsetToAngle offset).1, F32.ofRat 0⟩

end CameraParams

end AutoTargeting.Control
