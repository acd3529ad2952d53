import Mathlib.Data.Rat.Defs
import Mathlib.Algebra.Group.Nat.Defs

namespace AutoTargeting.Control

/-- What the commander does with an `f32`. Nothing is assumed of these operations, so that
rounding, infinities and NaN are all covered. -/
class F32 (F : Type) extends Add F, Sub F, Mul F, Div F, LT F where
  decLt : DecidableRel (LT.lt : F → F → Prop)
  /-- A literal. -/
  ofRat : ℚ → F
  /-- `n as f32`. -/
  ofNat : ℕ → F
  abs : F → F
  signum : F → F
  toRadians : F → F

instance F32.decidableLt {F : Type} [F32 F] : DecidableRel (LT.lt : F → F → Prop) := F32.decLt

def F32.clamp {F : Type} [F32 F] (x lo hi : F) : F :=
  let x := if x < lo then lo else x
  if hi < x then hi else x

/-- Exact arithmetic, for runs in which no rounding decides anything. -/
instance : F32 ℚ where
  decLt := inferInstance
  ofRat q := q
  ofNat n := n
  abs x := if x < 0 then -x else x
  signum x := if x < 0 then -1 else 1
  toRadians x := x * (355 / 113 / 180)

inductive SystemState
  | idle
  | armed
  | scanning
  | targetSelected
  | tracking
  | trackingDegraded
  | lost
  | rth
  | abort
  deriving DecidableEq, Repr

namespace SystemState

def asStr : SystemState → String
  | idle => "IDLE"
  | armed => "ARMED"
  | scanning => "SCANNING"
  | targetSelected => "TARGET_SELECTED"
  | tracking => "TRACKING"
  | trackingDegraded => "TRACKING_DEGRADED"
  | lost => "LOST"
  | rth => "RTH"
  | abort => "ABORT"

def debugName : SystemState → String
  | idle => "Idle"
  | armed => "Armed"
  | scanning => "Scanning"
  | targetSelected => "TargetSelected"
  | tracking => "Tracking"
  | trackingDegraded => "TrackingDegraded"
  | lost => "Lost"
  | rth => "Rth"
  | abort => "Abort"

end SystemState

inductive FlightMode
  | unknown
  | manual
  | stabilize
  | altHold
  | loiter
  | guided
  | rtl
  | auto
  deriving DecidableEq, Repr

def FlightMode.debugName : FlightMode → String
  | unknown => "Unknown"
  | manual => "Manual"
  | stabilize => "Stabilize"
  | altHold => "AltHold"
  | loiter => "Loiter"
  | guided => "Guided"
  | rtl => "Rtl"
  | auto => "Auto"

/-- The `f64` coordinates are only handed on: they are kept as their bits. -/
inductive RoiTarget (F : Type)
  | globalLatLng (lat lon : UInt64) (alt : F)
  | localNed (north east down : F)
  | none
  deriving DecidableEq, Repr

structure PositionTargetNED (F : Type) where
  north : F
  east : F
  down : F
  yaw : F
  deriving DecidableEq, Repr

/-- The two angles of `Attitude` that the commander reads. -/
structure Attitude (F : Type) where
  pitch : F
  yaw : F
  deriving DecidableEq, Repr

inductive FcError
  | connection (message : String)
  | commandRejected (message : String)
  | heartbeatLost (lastSeenMs : ℕ)
  | timeout
  | notArmed
  | unsupportedMode (mode : FlightMode)
  | internal (message : String)
  deriving DecidableEq, Repr

def FcError.display : FcError → String
  | connection m => "FC connection error: " ++ m
  | commandRejected m => "FC command rejected: " ++ m
  | heartbeatLost ms => "FC heartbeat lost (last seen " ++ toString ms ++ "ms ago)"
  | timeout => "FC communication timeout"
  | notArmed => "FC not armed"
  | unsupportedMode mode => "FC mode not supported: " ++ mode.debugName
  | internal m => "FC internal error: " ++ m

/-- The calls of `FlightControllerAdapter` that ask the flight controller for something. -/
inductive FcCall (F : Type)
  | connect
  | disconnect
  | arm
  | disarm
  | setMode (mode : FlightMode)
  | setRoi (roi : RoiTarget F)
  | setPositionTargetLocalNed (target : PositionTargetNED F)
  deriving DecidableEq, Repr

/-- The section of the configuration that the commander reads. -/
structure CommanderConfig (F : Type) where
  videoLoopWdtMs : ℕ
  inferenceLoopWdtMs : ℕ
  trackingLoopWdtMs : ℕ
  commandLoopWdtMs : ℕ
  fcHeartbeatWdtMs : ℕ
  deadbandFraction : F
  maxYawRateDps : F
  maxPitchRateDps : F
  maxOffsetFraction : F
  oscillationWindow : ℕ
  oscillationThreshold : F
  oscillationAbortCount : ℕ
  deriving DecidableEq, Repr

def CommanderConfig.default {F : Type} [F32 F] : CommanderConfig F where
  videoLoopWdtMs := 100
  inferenceLoopWdtMs := 200
  trackingLoopWdtMs := 50
  commandLoopWdtMs := 100
  fcHeartbeatWdtMs := 1000
  deadbandFraction := F32.ofRat (5 / 100)
  maxYawRateDps := F32.ofRat 30
  maxPitchRateDps := F32.ofRat 15
  maxOffsetFraction := F32.ofRat (30 / 100)
  oscillationWindow := 30
  oscillationThreshold := F32.ofRat (1 / 2)
  oscillationAbortCount := 3

abbrev TargetId := ℕ

structure BoundingBox where
  x : ℕ
  y : ℕ
  width : ℕ
  height : ℕ
  deriving DecidableEq, Repr

end AutoTargeting.Control
