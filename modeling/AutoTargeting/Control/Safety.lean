import AutoTargeting.Control.Types

namespace AutoTargeting.Control.Safety

/-- What the monitors compare of an `f32`; nothing is assumed of it. -/
class SafetyFloat (F : Type) extends F32 F, LE F where
  decLe : DecidableRel (LE.le : F → F → Prop)

instance SafetyFloat.decidableLe {F : Type} [SafetyFloat F] : DecidableRel (LE.le : F → F → Prop) :=
  SafetyFloat.decLe

class F64Math (G : Type) extends Add G, Sub G, Mul G, Div G where
  /-- A literal. -/
  ofRat : ℚ → G
  toRadians : G → G
  sin : G → G
  cos : G → G
  sqrt : G → G
  asin : G → G
  powi : G → ℕ → G

class AsF32 (F G : Type) where
  asF32 : G → F

/-- `GlobalPosition`, but for the height above ground, which is not read. -/
structure GlobalPosition (F G : Type) where
  lat : G
  lon : G
  altMsl : F
  deriving DecidableEq, Repr

structure GeofenceConfig (F : Type) where
  maxDistanceM : F
  maxAltitudeM : F
  minAltitudeM : F
  deriving DecidableEq, Repr

def GeofenceConfig.default {F : Type} [F32 F] : GeofenceConfig F :=
  ⟨F32.ofRat 500, F32.ofRat 120, F32.ofRat (-10)⟩

inductive GeofenceViolation
  | distanceExceeded
  | altitudeMaxExceeded
  | altitudeMinExceeded
  deriving DecidableEq, Repr

def GeofenceViolation.display : GeofenceViolation → String
  | distanceExceeded => "distance exceeded"
  | altitudeMaxExceeded => "max altitude exceeded"
  | altitudeMinExceeded => "min altitude exceeded"

/-- Home is a latitude, a longitude and a height. -/
structure Geofence (F G : Type) where
  config : GeofenceConfig F
  home : Option (G × G × F)
  lastPosition : Option (GlobalPosition F G)

section
variable {F G : Type} [SafetyFloat F] [F64Math G] [AsF32 F G]

/-- The haversine formula, in metres. -/
def haversineDistance (lat1 lon1 lat2 lon2 : G) : F :=
  let two : G := F64Math.ofRat 2
  let lat1Rad := F64Math.toRadians lat1
  let lat2Rad := F64Math.toRadians lat2
  let dlat := F64Math.toRadians (lat2 - lat1)
  let dlon := F64Math.toRadians (lon2 - lon1)
  let a := F64Math.powi (F64Math.sin (dlat / two)) 2 +
    F64Math.cos lat1Rad * F64Math.cos lat2Rad * F64Math.powi (F64Math.sin (dlon / two)) 2
  let c := two * F64Math.asin (F64Math.sqrt a)
  AsF32.asF32 (F64Math.ofRat 6371000 * c)

namespace Geofence

def new (config : GeofenceConfig F) : Geofence F G := ⟨config, none, none⟩

/-- The first of the three limits that a position is beyond. -/
def violation (config : GeofenceConfig F) (home : G × G × F) (pos : GlobalPosition F G) :
    Option GeofenceViolation :=
  if config.maxDistanceM < haversineDistance home.1 home.2.1 pos.lat pos.lon then
    some .distanceExceeded
  else
    let altAgl := pos.altMsl - home.2.2
    if config.maxAltitudeM < altAgl then some .altitudeMaxExceeded
    else if altAgl < config.minAltitudeM then some .altitudeMinExceeded
    else none

def check (g : Geofence F G) : Option GeofenceViolation :=
  g.home.bind fun home => g.lastPosition.bind fun pos => violation g.config home pos

def distanceFromHome (g : Geofence F G) : Option F :=
  g.home.bind fun home => g.lastPosition.map fun pos =>
    haversineDistance home.1 home.2.1 pos.lat pos.lon

end Geofence

end

structure BatteryConfig (F : Type) where
  rthThresholdPct : F
  landThresholdPct : F
  minVoltage : F
  deriving DecidableEq, Repr

def BatteryConfig.default {F : Type} [F32 F] : BatteryConfig F :=
  ⟨F32.ofRat 30, F32.ofRat 15, F32.ofRat (21 / 2)⟩

inductive BatteryViolation
  | lowBatteryRth
  | criticalBatteryLand
  | lowVoltage
  deriving DecidableEq, Repr

def BatteryViolation.display : BatteryViolation → String
  | lowBatteryRth => "low battery — RTH triggered"
  | criticalBatteryLand => "critical battery — LAND triggered"
  | lowVoltage => "low voltage"

structure BatteryState (F : Type) where
  voltage : F
  remainingPct : F
  deriving DecidableEq, Repr

structure BatteryMonitor (F : Type) where
  config : BatteryConfig F
  lastBattery : Option (BatteryState F)
  deriving DecidableEq, Repr

namespace BatteryMonitor

variable {F : Type} [SafetyFloat F]

/-- What is wrong with a battery; one without a voltage is not judged by it. -/
def violation (config : BatteryConfig F) (bat : BatteryState F) : Option BatteryViolation :=
  if bat.remainingPct ≤ config.landThresholdPct then some .criticalBatteryLand
  else if bat.remainingPct ≤ config.rthThresholdPct then some .lowBatteryRth
  else if F32.ofRat 0 < bat.voltage ∧ bat.voltage ≤ config.minVoltage then some .lowVoltage
  else none

def check (b : BatteryMonitor F) : Option BatteryViolation := b.lastBattery.bind (violation b.config)

end BatteryMonitor

structure SafetyConfig (F : Type) where
  geofence : GeofenceConfig F
  battery : BatteryConfig F
  enableGeofence : Bool
  enableBattery : Bool
  deriving DecidableEq, Repr

structure SafetyMonitor (F G : Type) where
  config : SafetyConfig F
  geofence : Geofence F G
  battery : BatteryMonitor F

inductive SafetyViolation
  | geofence (v : GeofenceViolation)
  | battery (v : BatteryViolation)
  deriving DecidableEq, Repr

def SafetyViolation.display : SafetyViolation → String
  | geofence v => "geofence: " ++ v.display
  | battery v => "battery: " ++ v.display

inductive SafetyAction
  | rth
  | land
  | warn
  deriving DecidableEq, Repr

namespace SafetyMonitor

variable {F G : Type}

def new (config : SafetyConfig F) : SafetyMonitor F G :=
  ⟨config, .new config.geofence, ⟨config.battery, none⟩⟩

def setHome (m : SafetyMonitor F G) (lat lon : G) (altMsl : F) : SafetyMonitor F G :=
  { m with geofence := { m.geofence with home := some (lat, lon, altMsl) } }

/-- A monitor that is not enabled keeps nothing. -/
def updatePosition (m : SafetyMonitor F G) (pos : GlobalPosition F G) : SafetyMonitor F G :=
  if m.config.enableGeofence then
    { m with geofence := { m.geofence with lastPosition := some pos } }
  else m

def updateBattery (m : SafetyMonitor F G) (voltage remainingPct : F) : SafetyMonitor F G :=
  if m.config.enableBattery then
    { m with battery := { m.battery with lastBattery := some ⟨voltage, remainingPct⟩ } }
  else m

variable [SafetyFloat F] [F64Math G] [AsF32 F G]

/-- The battery comes first, and only a battery that is critical is a reason to land. -/
def check (m : SafetyMonitor F G) : Option (SafetyViolation × SafetyAction) :=
  match if m.config.enableBattery then m.battery.check else none with
  | some v =>
    some (.battery v, match v with
      | .criticalBatteryLand => .land
      | .lowBatteryRth | .lowVoltage => .rth)
  | none =>
    if m.config.enableGeofence ∧ m.geofence.home.isSome then
      m.geofence.check.map fun v => (.geofence v, .rth)
    else none

def distanceFromHome (m : SafetyMonitor F G) : Option F := m.geofence.distanceFromHome

end SafetyMonitor

inductive SafetyEvent (F G : Type)
  | setHome (lat lon : G) (altMsl : F)
  | updatePosition (pos : GlobalPosition F G)
  | updateBattery (voltage remainingPct : F)

def SafetyMonitor.run {F G : Type} (m : SafetyMonitor F G) (es : List (SafetyEvent F G)) :
    SafetyMonitor F G :=
  es.foldl (fun m e => match e with
    | .setHome lat lon altMsl => m.setHome lat lon altMsl
    | .updatePosition pos => m.updatePosition pos
    | .updateBattery voltage remainingPct => m.updateBattery voltage remainingPct) m

end AutoTargeting.Control.Safety
