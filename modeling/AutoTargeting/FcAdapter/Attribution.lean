import AutoTargeting.FcAdapter.MavlinkCore
import AutoTargeting.Library.LastWrite

namespace AutoTargeting.FcAdapter

open Control (secs)
open LastWrite

section
variable {F : Type}

/-- Was this message sent by the flight controller of the configuration? -/
def MavlinkCoreConfig.sentByTarget (cfg : MavlinkCoreConfig) (r : Received F) : Bool :=
  r.header.systemId = cfg.targetSystemId ∧ r.header.componentId = cfg.targetComponentId

def Received.heartbeat? (r : Received F) : Option HeartbeatStatus :=
  match r.msg with
  | .heartbeat hb => some ⟨r.nowChrono, hb.baseMode &&& safetyArmed = safetyArmed,
    heartbeatToFlightMode hb⟩
  | _ => none

def Received.attitude? (r : Received F) : Option (Attitude F) :=
  match r.msg with
  | .attitude att => some (.ofData att)
  | _ => none

variable {D : Type} [TelemetryFloats F D]

/-- What a GLOBAL_POSITION_INT writes to the cache. -/
def Received.globalPosition? (D : Type) [TelemetryFloats F D] (r : Received F) :
    Option (Option (GlobalPosition F D)) :=
  match r.msg with
  | .globalPositionInt pos => some (some (.ofData pos))
  | _ => none

namespace TelemetryCache
variable (c : TelemetryCache F D) (received : List (Received F))

/-- What `heartbeat_status`, `attitude` and `global_position` return. -/
def view : HeartbeatStatus × Attitude F × Option (GlobalPosition F D) :=
  (c.heartbeatStatus, c.attitude, c.globalPosition)

theorem reader_heartbeatStatus : (c.reader received).heartbeatStatus =
    lastWrite Received.heartbeat? c.heartbeatStatus received := by
  induction received generalizing c with
  | nil => rfl
  | cons r rest ih =>
    have hone : (c.processMessage r.msg r.now r.nowChrono).heartbeatStatus =
        r.heartbeat?.getD c.heartbeatStatus := by
      unfold Received.heartbeat?
      cases r.msg <;> rfl
    show ((c.processMessage r.msg r.now r.nowChrono).reader rest).heartbeatStatus = _
    rw [ih, hone]
    rfl

theorem reader_attitude : (c.reader received).attitude =
    lastWrite Received.attitude? c.attitude received := by
  induction received generalizing c with
  | nil => rfl
  | cons r rest ih =>
    have hone : (c.processMessage r.msg r.now r.nowChrono).attitude =
        r.attitude?.getD c.attitude := by
      unfold Received.attitude?
      cases r.msg <;> rfl
    show ((c.processMessage r.msg r.now r.nowChrono).reader rest).attitude = _
    rw [ih, hone]
    rfl

theorem reader_globalPosition : (c.reader received).globalPosition =
    lastWrite (Received.globalPosition? D) c.globalPosition received := by
  induction received generalizing c with
  | nil => rfl
  | cons r rest ih =>
    have hone : (c.processMessage r.msg r.now r.nowChrono).globalPosition =
        (r.globalPosition? D).getD c.globalPosition := by
      unfold Received.globalPosition?
      cases r.msg <;> rfl
    show ((c.processMessage r.msg r.now r.nowChrono).reader rest).globalPosition = _
    rw [ih, hone]
    rfl

end TelemetryCache

/-- The target owns what was last written of each of the three. -/
structure OwnedByTarget (cfg : MavlinkCoreConfig) (c : TelemetryCache F D)
    (received : List (Received F)) : Prop where
  heartbeat : LastOwned Received.heartbeat? c.heartbeatStatus cfg.sentByTarget received
  attitude : LastOwned Received.attitude? c.attitude cfg.sentByTarget received
  globalPosition : LastOwned (Received.globalPosition? D) c.globalPosition cfg.sentByTarget received

/-- What the adapter returns is what it would return without the messages of others, exactly if
the target owns the last HEARTBEAT, the last ATTITUDE and the last GLOBAL_POSITION_INT. -/
theorem attributed_iff (cfg : MavlinkCoreConfig) (c : TelemetryCache F D)
    (received : List (Received F)) :
    (c.reader received).view = (c.reader (received.filter cfg.sentByTarget)).view ↔
      OwnedByTarget cfg c received := by
  have hheartbeat := lastWrite_filter_iff Received.heartbeat? c.heartbeatStatus
    cfg.sentByTarget received
  have hattitude := lastWrite_filter_iff Received.attitude? c.attitude cfg.sentByTarget received
  have hposition := lastWrite_filter_iff (Received.globalPosition? D) c.globalPosition
    cfg.sentByTarget received
  unfold TelemetryCache.view
  rw [Prod.mk.injEq, Prod.mk.injEq, c.reader_heartbeatStatus, c.reader_heartbeatStatus,
    c.reader_attitude, c.reader_attitude, c.reader_globalPosition, c.reader_globalPosition,
    hheartbeat, hattitude, hposition]
  exact ⟨fun h => ⟨h.1, h.2.1, h.2.2⟩, fun h => ⟨h.heartbeat, h.attitude, h.globalPosition⟩⟩

end

instance : TelemetryFloats ℚ ℚ where
  zero := 0
  degrees x := x.toInt / 10000000
  metres x := x.toInt / 1000

/-- The armed vehicle's heartbeat, and five seconds later one of a ground station. -/
def groundStationHeartbeat : List (Received ℚ) :=
  [⟨⟨1, 1⟩, .heartbeat ⟨15, .ardupilotmega, safetyArmed⟩, 0, 0⟩,
    ⟨⟨255, 190⟩, .heartbeat ⟨0, .other 8, 0⟩, secs 5, secs 5⟩]

/-- The ground station's heartbeat is taken for the vehicle's: it is fresh, and disarmed. -/
theorem heartbeat_of_ground_station :
    ¬ ∀ (c : TelemetryCache ℚ ℚ) (received : List (Received ℚ)),
      (c.reader received).view =
        (c.reader (received.filter MavlinkCoreConfig.default.sentByTarget)).view := by
  intro hall
  have hview := hall (.fresh 0) groundStationHeartbeat
  have hstatus := congrArg Prod.fst hview
  revert hstatus
  decide +kernel

end AutoTargeting.FcAdapter
