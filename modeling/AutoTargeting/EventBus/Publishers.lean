import AutoTargeting.EventBus.Messages
import AutoTargeting.Control.FcLink

namespace AutoTargeting.EventBus

open Json

class PartialCmp (F : Type) where
  partialCmp : F → F → Option Ordering

/-- What the components do with an `f32` on the way to a message. -/
class Float32 (F : Type) extends JsonFloat F, PartialCmp F where
  toDegrees : F → F

structure Attitude (F : Type) where
  roll : F
  pitch : F
  yaw : F
  deriving DecidableEq

structure GlobalPosition (F G : Type) where
  lat : G
  lon : G
  altAgl : F
  deriving DecidableEq

/-- The fields of a `TargetState` that its message has. -/
structure TargetState (F : Type) where
  id : UInt64
  bbox : BoundingBox
  velocity : F × F
  confidence : F
  missedFrames : UInt32
  deriving DecidableEq

def contractVersion : UInt8 := 1

/-- `Iterator::max_by` on the confidence: of equals, also of incomparable ones, the last. -/
def maxByConfidence {F : Type} [PartialCmp F] : List (Detection F) → Option (Detection F)
  | [] => none
  | d :: ds => some (ds.foldl (fun best d =>
      if (PartialCmp.partialCmp best.confidence d.confidence).getD .eq = .gt then best else d) d)

def trackMsg {F : Type} [PartialCmp F] (frameSeq : UInt64) (detections : List (Detection F))
    (t : TargetState F) : TrackMsg F where
  v := contractVersion
  trackId := t.id
  frameSeq := frameSeq
  bbox := t.bbox
  vx := t.velocity.1
  vy := t.velocity.2
  className := ((maxByConfidence detections).map (·.className)).getD ""
  classId := 0
  confidence := t.confidence
  age := t.missedFrames
  misses := t.missedFrames

section
variable {F G : Type} [Float32 F] [JsonFloat G]

def telemetrySample (now : Int64) (att : Attitude F) (pos : Option (GlobalPosition F G))
    (mode : Control.FlightMode) : TelemetrySample F G where
  tMs := now
  rollDeg := Float32.toDegrees att.roll
  pitchDeg := Float32.toDegrees att.pitch
  yawDeg := Float32.toDegrees att.yaw
  altM := pos.elim JsonFloat.zero (·.altAgl)
  latDeg := pos.elim JsonFloat.zero (·.lat)
  lonDeg := pos.elim JsonFloat.zero (·.lon)
  batteryV := JsonFloat.zero
  mode := UInt8.ofNat (Control.modeToU8 mode)

/-- The detail of an edge of the flight controller. -/
def fcDetail : Control.FcEvent → Value
  | .link _ => .object []
  | .armed armed => .object [("armed", .bool armed)]
  | .modeChange mode => .object [("mode", .string mode.debugName)]

def fcEvent (edge : Control.FcEvent) (now : DateTime) : FcEvent :=
  ⟨contractVersion, edge.kind, fcDetail edge, now⟩

/-- `ts_ns_to_datetime`; any `u64` is within the range of chrono. -/
def tsNsToDatetime (tsNs : UInt64) : DateTime where
  nanos := tsNs.toNat
  min_le := by omega
  lt_max := by have := tsNs.toNat_lt; omega

def detectionsFrame (frameId tsNs : UInt64) (detections : List (Detection F)) (w h : UInt32) :
    DetectionsFrame F := ⟨frameId, tsNsToDatetime tsNs, detections, w, h⟩

inductive ConsoleCommand (G : Type)
  | arm
  | disarm
  | mode (name : String)
  | setRoi (lat lon alt : G)
  | abort
  | configGet

def jsonNumber (x : G) : Value :=
  if JsonFloat.isFinite x = true then .number (JsonFloat.write x) else .null

def commandMsg (id : UInt64) : ConsoleCommand G → CommandMsg
  | .arm => ⟨contractVersion, "fc", "arm", .object [], "cli", id⟩
  | .disarm => ⟨contractVersion, "fc", "disarm", .object [], "cli", id⟩
  | .mode name => ⟨contractVersion, "fc", "set_mode", .object [("mode", .string name)], "cli", id⟩
  | .setRoi lat lon alt => ⟨contractVersion, "fc", "set_roi",
      .object [("alt", jsonNumber alt), ("lat", jsonNumber lat), ("lon", jsonNumber lon)], "cli", id⟩
  | .abort => ⟨contractVersion, "fc", "set_mode", .object [("mode", .string "rtl")], "cli", id⟩
  | .configGet => ⟨contractVersion, "config-svc", "get", .object [], "cli", id⟩

end

inductive Message (F G : Type)
  | detections (m : DetectionsFrame F)
  | telemetry (m : TelemetrySample F G)
  | command (m : CommandMsg)
  | track (m : TrackMsg F)
  | fcEvent (m : FcEvent)

inductive Source (F G : Type)
  | detector (frameId tsNs : UInt64) (result : List (Detection F)) (w h : UInt32)
  | fcTelemetry (now : Int64) (att : Attitude F) (pos : Option (GlobalPosition F G))
      (mode : Control.FlightMode)
  | fcEdge (edge : Control.FcEvent) (now : DateTime)
  | tracker (frameSeq : UInt64) (detections : List (Detection F)) (t : TargetState F)
  | console (c : ConsoleCommand G) (id : UInt64)

section
variable {F G : Type} [Float32 F] [JsonFloat G] (rfc : Rfc3339)

def Source.message : Source F G → Message F G
  | .detector frameId tsNs result w h => .detections (detectionsFrame frameId tsNs result w h)
  | .fcTelemetry now att pos mode => .telemetry (telemetrySample now att pos mode)
  | .fcEdge edge now => .fcEvent (EventBus.fcEvent edge now)
  | .tracker frameSeq detections t => .track (trackMsg frameSeq detections t)
  | .console c id => .command (commandMsg id c)

def Message.publish : Message F G → Bytes
  | .detections m => toVec (m.serialize rfc)
  | .telemetry m => toVec m.serialize
  | .command m => toVec m.serialize
  | .track m => toVec m.serialize
  | .fcEvent m => toVec m.serialize

/-- What a subscriber of the message's type decodes from a payload. -/
def Message.recv (payload : Bytes) : Message F G → Option (Message F G)
  | .detections _ => (fromSlice (DetectionsFrame.deserialize rfc) payload).map .detections
  | .telemetry _ => (fromSlice TelemetrySample.deserialize payload).map .telemetry
  | .command _ => (fromSlice CommandMsg.deserialize payload).map .command
  | .track _ => (fromSlice TrackMsg.deserialize payload).map .track
  | .fcEvent _ => (fromSlice FcEvent.deserialize payload).map .fcEvent

/-- The message with its time in whole milliseconds. -/
def Message.truncated : Message F G → Message F G
  | .detections m => .detections { m with capturedAt := m.capturedAt.truncated }
  | .fcEvent m => .fcEvent { m with at_ := m.at_.truncated }
  | m => m

/-- All floats that go into the message are finite. The arguments of a command may be any: there
a float that is not finite is null for the sender, too. -/
def Source.Finite : Source F G → Prop
  | .detector _ _ result _ _ => ∀ d ∈ result, JsonFloat.isFinite d.confidence = true
  | .fcTelemetry _ att pos _ =>
    (JsonFloat.isFinite (Float32.toDegrees att.roll) = true ∧
      JsonFloat.isFinite (Float32.toDegrees att.pitch) = true ∧
      JsonFloat.isFinite (Float32.toDegrees att.yaw) = true) ∧
    ∀ p ∈ pos, JsonFloat.isFinite p.lat = true ∧ JsonFloat.isFinite p.lon = true ∧
      JsonFloat.isFinite p.altAgl = true
  | .tracker _ _ t => JsonFloat.isFinite t.velocity.1 = true ∧
      JsonFloat.isFinite t.velocity.2 = true ∧ JsonFloat.isFinite t.confidence = true
  | .fcEdge _ _ => True
  | .console _ _ => True

end

end AutoTargeting.EventBus
