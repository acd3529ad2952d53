import AutoTargeting.Control.AntiLoop

namespace AutoTargeting.FcAdapter

open Control (FlightMode Instant secs)

/-- The floating-point numbers of the telemetry cache; nothing is assumed of the conversions. -/
class TelemetryFloats (F D : Type) where
  /-- `0.0` -/
  zero : F
  /-- `x as f64 / 1e7` -/
  degrees : Int32 → D
  /-- `x as f32 / 1e3` -/
  metres : Int32 → F

structure MavHeader where
  systemId : UInt8
  componentId : UInt8
  deriving DecidableEq, Repr

/-- The ids that the configuration expects of the flight controller. -/
structure MavlinkCoreConfig where
  targetSystemId : UInt8
  targetComponentId : UInt8
  deriving DecidableEq, Repr

def MavlinkCoreConfig.default : MavlinkCoreConfig := ⟨1, 1⟩

inductive MavAutopilot
  | ardupilotmega
  | other (id : UInt8)
  deriving DecidableEq, Repr

/-- The fields of a HEARTBEAT that the adapter reads. -/
structure HeartbeatData where
  customMode : UInt32
  autopilot : MavAutopilot
  baseMode : UInt8
  deriving DecidableEq, Repr

structure AttitudeData (F : Type) where
  roll : F
  pitch : F
  yaw : F
  rollspeed : F
  pitchspeed : F
  yawspeed : F
  deriving DecidableEq, Repr

structure GlobalPositionIntData where
  lat : Int32
  lon : Int32
  alt : Int32
  relativeAlt : Int32
  deriving DecidableEq, Repr

/-- The messages, by what `process_message` does about them. -/
inductive MavMessage (F : Type)
  | heartbeat (hb : HeartbeatData)
  | attitude (att : AttitudeData F)
  | globalPositionInt (pos : GlobalPositionIntData)
  | other
  deriving DecidableEq, Repr

structure Attitude (F : Type) where
  roll : F
  pitch : F
  yaw : F
  rollRate : F
  pitchRate : F
  yawRate : F
  deriving DecidableEq, Repr

structure GlobalPosition (F D : Type) where
  lat : D
  lon : D
  altMsl : F
  altAgl : F
  deriving DecidableEq, Repr

/-- `lastHeartbeatChrono` is the wall clock in nanoseconds. -/
structure TelemetryCache (F D : Type) where
  attitude : Attitude F
  globalPosition : Option (GlobalPosition F D)
  lastHeartbeat : Option Instant
  lastHeartbeatChrono : ℤ
  armed : Bool
  mode : FlightMode
  deriving DecidableEq, Repr

structure HeartbeatStatus where
  lastHeartbeat : ℤ
  armed : Bool
  mode : FlightMode
  deriving DecidableEq, Repr

def heartbeatToFlightMode (hb : HeartbeatData) : FlightMode :=
  if hb.autopilot ≠ .ardupilotmega then .unknown
  else match hb.customMode with
    | 0 => .manual
    | 2 => .stabilize
    | 10 => .auto
    | 11 => .rtl
    | 12 => .loiter
    | 15 => .guided
    | _ => .unknown

def safetyArmed : UInt8 := 128

/-- A message that `recv` returned, with the clocks when it did. -/
structure Received (F : Type) where
  header : MavHeader
  msg : MavMessage F
  now : Instant
  nowChrono : ℤ
  deriving DecidableEq, Repr

section
variable {F D : Type} [TelemetryFloats F D]

def Attitude.ofData (att : AttitudeData F) : Attitude F :=
  ⟨att.roll, att.pitch, att.yaw, att.rollspeed, att.pitchspeed, att.yawspeed⟩

def GlobalPosition.ofData (pos : GlobalPositionIntData) : GlobalPosition F D :=
  ⟨TelemetryFloats.degrees F pos.lat, TelemetryFloats.degrees F pos.lon,
    TelemetryFloats.metres D pos.alt, TelemetryFloats.metres D pos.relativeAlt⟩

namespace TelemetryCache

/-- Before the first heartbeat the cache claims one of a minute ago. -/
def fresh (nowChrono : ℤ) : TelemetryCache F D :=
  let zero : F := TelemetryFloats.zero D
  ⟨⟨zero, zero, zero, zero, zero, zero⟩, none, none, nowChrono - secs 60, false, .unknown⟩

/-- `process_message`: the header does not reach it. -/
def processMessage (c : TelemetryCache F D) (msg : MavMessage F) (now : Instant) (nowChrono : ℤ) :
    TelemetryCache F D :=
  match msg with
  | .heartbeat hb => { c with
    lastHeartbeat := some now
    lastHeartbeatChrono := nowChrono
    armed := hb.baseMode &&& safetyArmed = safetyArmed
    mode := heartbeatToFlightMode hb }
  | .attitude att => { c with attitude := .ofData att }
  | .globalPositionInt pos => { c with globalPosition := some (.ofData pos) }
  | .other => c

/-- The reader thread, over the messages that it receives before its connection fails. -/
def reader (c : TelemetryCache F D) (received : List (Received F)) : TelemetryCache F D :=
  received.foldl (fun c r => c.processMessage r.msg r.now r.nowChrono) c

def heartbeatStatus (c : TelemetryCache F D) : HeartbeatStatus :=
  ⟨c.lastHeartbeatChrono, c.armed, c.mode⟩

end TelemetryCache

end

end AutoTargeting.FcAdapter
