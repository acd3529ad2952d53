import AutoTargeting.Control.Types

namespace AutoTargeting.FcAdapter

open Control

inductive RecordedCommand (F : Type)
  | setRoi (roi : RoiTarget F)
  | setPositionTargetLocalNed (target : PositionTargetNED F)
  | setMode (mode : FlightMode)
  | arm
  | disarm
  deriving DecidableEq, Repr

structure AttitudeRates (F : Type) where
  roll : F
  pitch : F
  yaw : F
  rollRate : F
  pitchRate : F
  yawRate : F
  deriving DecidableEq, Repr

/-- The last heartbeat is on the clock of `Instant`. -/
structure MockFcState (F : Type) where
  commands : List (RecordedCommand F)
  armed : Bool
  mode : FlightMode
  attitude : AttitudeRates F
  connected : Bool
  lastHeartbeat : Option ℕ
  deriving DecidableEq, Repr

namespace MockFcState

variable {F : Type}

/-- `MockFcState::default`, with zeros for the attitude. -/
def default (zero : F) : MockFcState F :=
  ⟨[], false, .unknown, ⟨zero, zero, zero, zero, zero, zero⟩, false, none⟩

/-- A command is refused without a connection, and recorded with it. -/
def record (s : MockFcState F) (c : RecordedCommand F) (armed : Bool) (mode : FlightMode) :
    Except FcError Unit × MockFcState F :=
  if s.connected then
    (.ok (), { s with commands := s.commands ++ [c], armed := armed, mode := mode })
  else (.error (.connection "not connected"), s)

def setRoi (s : MockFcState F) (roi : RoiTarget F) : Except FcError Unit × MockFcState F :=
  s.record (.setRoi roi) s.armed s.mode

def setPositionTargetLocalNed (s : MockFcState F) (target : PositionTargetNED F) :
    Except FcError Unit × MockFcState F :=
  s.record (.setPositionTargetLocalNed target) s.armed s.mode

def setMode (s : MockFcState F) (mode : FlightMode) : Except FcError Unit × MockFcState F :=
  s.record (.setMode mode) s.armed mode

def arm (s : MockFcState F) : Except FcError Unit × MockFcState F := s.record .arm true s.mode

def disarm (s : MockFcState F) : Except FcError Unit × MockFcState F :=
  s.record .disarm false s.mode

def connect (s : MockFcState F) (now : ℕ) : MockFcState F :=
  { s with connected := true, lastHeartbeat := some now, mode := .stabilize }

def disconnect (s : MockFcState F) : MockFcState F := { s with connected := false }

def simulateHeartbeatLoss (s : MockFcState F) : MockFcState F := { s with lastHeartbeat := none }

def simulateAttitude (s : MockFcState F) (attitude : AttitudeRates F) (now : ℕ) : MockFcState F :=
  { s with attitude := attitude, lastHeartbeat := some now }

end MockFcState

/-- What a recorded command makes of the two things that it can change. -/
def RecordedCommand.effect {F : Type} (s : Bool × FlightMode) : RecordedCommand F → Bool × FlightMode
  | setMode mode => (s.1, mode)
  | arm => (true, s.2)
  | disarm => (false, s.2)
  | _ => s

/-- A flight controller that has been connected all along, and what it is told by its records. -/
def MockFcState.Faithful {F : Type} (s : MockFcState F) : Prop :=
  s.connected = true ∧ (s.armed, s.mode) = s.commands.foldl RecordedCommand.effect (false, .stabilize)

/-- A connected flight controller takes a command. -/
theorem MockFcState.record_connected {F : Type} {s : MockFcState F} (h : s.connected = true)
    (c : RecordedCommand F) (armed : Bool) (mode : FlightMode) :
    s.record c armed mode =
      (.ok (), { s with commands := s.commands ++ [c], armed := armed, mode := mode }) := by
  unfold record
  rw [if_pos h]

theorem MockFcState.Faithful.record {F : Type} {s : MockFcState F} (h : s.Faithful)
    {c : RecordedCommand F} {armed : Bool} {mode : FlightMode}
    (hc : (armed, mode) = c.effect (s.armed, s.mode)) : (s.record c armed mode).2.Faithful := by
  rw [record_connected h.1]
  refine ⟨h.1, ?_⟩
  show (armed, mode) = (s.commands ++ [c]).foldl RecordedCommand.effect (false, .stabilize)
  rw [hc, h.2, List.foldl_append]
  rfl

end AutoTargeting.FcAdapter
