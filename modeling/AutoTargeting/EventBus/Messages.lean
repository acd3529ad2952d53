import AutoTargeting.Library.JsonFields

namespace AutoTargeting.EventBus

open Json

/-- What serde_json does with a float: a finite one is written as a numeral, which is read
back as the same float, and any other as null. Nothing else is assumed of floats. -/
class JsonFloat (F : Type) where
  isFinite : F → Bool
  zero : F
  write : F → Numeral
  read : Numeral → Option F
  zero_finite : isFinite zero = true
  read_write : ∀ x, isFinite x = true → read (write x) = some x

/-- `DateTime<Utc>`, in nanoseconds since the epoch, within the range of chrono. -/
structure DateTime where
  nanos : ℤ
  min_le : -8334601228800 * 10 ^ 9 ≤ nanos
  lt_max : nanos < 8210266876800 * 10 ^ 9
  deriving DecidableEq

namespace DateTime

def unixEpoch : DateTime := ⟨0, by decide, by decide⟩

def timestampMillis (t : DateTime) : ℤ := t.nanos / 10 ^ 6

def fromTimestampMillis (ms : ℤ) : Option DateTime :=
  if h : -8334601228800 * 10 ^ 9 ≤ ms * 10 ^ 6 ∧ ms * 10 ^ 6 < 8210266876800 * 10 ^ 9 then
    some ⟨ms * 10 ^ 6, h.1, h.2⟩
  else none

/-- The last millisecond that had begun. -/
def truncated (t : DateTime) : DateTime where
  nanos := t.nanos / 10 ^ 6 * 10 ^ 6
  min_le := by have := t.min_le; omega
  lt_max := by have := t.lt_max; omega

theorem fromTimestampMillis_timestampMillis (t : DateTime) :
    fromTimestampMillis t.timestampMillis = some t.truncated := by
  have hmin := t.truncated.min_le
  have hmax := t.truncated.lt_max
  exact dif_pos ⟨hmin, hmax⟩

end DateTime

/-- How chrono writes a time in RFC 3339, and reads it back. -/
structure Rfc3339 where
  format : DateTime → String
  parse : String → Option DateTime
  parse_format : ∀ t, parse (format t) = some t

structure BoundingBox where
  x : UInt32
  y : UInt32
  width : UInt32
  height : UInt32
  deriving DecidableEq, Repr

structure Detection (F : Type) where
  bbox : BoundingBox
  className : String
  classId : UInt32
  confidence : F
  frameSeq : UInt64
  detectedAt : DateTime
  deriving DecidableEq

structure DetectionsFrame (F : Type) where
  frameSeq : UInt64
  capturedAt : DateTime
  detections : List (Detection F)
  frameW : UInt32
  frameH : UInt32
  deriving DecidableEq

structure TelemetrySample (F G : Type) where
  tMs : Int64
  rollDeg : F
  pitchDeg : F
  yawDeg : F
  altM : F
  latDeg : G
  lonDeg : G
  batteryV : F
  mode : UInt8
  deriving DecidableEq

structure CommandMsg where
  v : UInt8
  target : String
  cmd : String
  args : Value
  source : String
  id : UInt64

structure TrackMsg (F : Type) where
  v : UInt8
  trackId : UInt64
  frameSeq : UInt64
  bbox : BoundingBox
  vx : F
  vy : F
  className : String
  classId : UInt32
  confidence : F
  age : UInt32
  misses : UInt32
  deriving DecidableEq

structure FcEvent where
  v : UInt8
  kind : String
  detail : Value
  at_ : DateTime

section
variable {F G : Type} [JsonFloat F] [JsonFloat G] (rfc : Rfc3339)

def writeFloat (x : F) : Doc :=
  if JsonFloat.isFinite x = true then .number (JsonFloat.write x) else .null

def writeU8 (n : UInt8) : Doc := .int n.toNat
def writeU32 (n : UInt32) : Doc := .int n.toNat
def writeU64 (n : UInt64) : Doc := .int n.toNat

def writeTsMs (t : DateTime) : Doc := .int t.timestampMillis

def BoundingBox.serialize (b : BoundingBox) : Doc :=
  .struct [("x", writeU32 b.x), ("y", writeU32 b.y), ("width", writeU32 b.width),
    ("height", writeU32 b.height)]

def Detection.serialize (d : Detection F) : Doc :=
  .struct [("bbox", d.bbox.serialize), ("class", .string d.className),
    ("class_id", writeU32 d.classId), ("confidence", writeFloat d.confidence),
    ("frame_seq", writeU64 d.frameSeq), ("detected_at", .string (rfc.format d.detectedAt))]

def DetectionsFrame.serialize (f : DetectionsFrame F) : Doc :=
  .struct [("frame_seq", writeU64 f.frameSeq), ("captured_at", writeTsMs f.capturedAt),
    ("detections", .array (f.detections.map (Detection.serialize rfc))),
    ("frame_w", writeU32 f.frameW), ("frame_h", writeU32 f.frameH)]

def TelemetrySample.serialize (t : TelemetrySample F G) : Doc :=
  .struct [("t_ms", .int t.tMs.toInt), ("roll_deg", writeFloat t.rollDeg),
    ("pitch_deg", writeFloat t.pitchDeg), ("yaw_deg", writeFloat t.yawDeg),
    ("alt_m", writeFloat t.altM), ("lat_deg", writeFloat t.latDeg),
    ("lon_deg", writeFloat t.lonDeg), ("battery_v", writeFloat t.batteryV),
    ("mode", writeU8 t.mode)]

def CommandMsg.serialize (c : CommandMsg) : Doc :=
  .struct [("v", writeU8 c.v), ("target", .string c.target), ("cmd", .string c.cmd),
    ("args", c.args.doc), ("source", .string c.source), ("id", writeU64 c.id)]

def TrackMsg.serialize (t : TrackMsg F) : Doc :=
  .struct [("v", writeU8 t.v), ("track_id", writeU64 t.trackId),
    ("frame_seq", writeU64 t.frameSeq), ("bbox", t.bbox.serialize), ("vx", writeFloat t.vx),
    ("vy", writeFloat t.vy), ("class", .string t.className), ("class_id", writeU32 t.classId),
    ("confidence", writeFloat t.confidence), ("age", writeU32 t.age),
    ("misses", writeU32 t.misses)]

def FcEvent.serialize (e : FcEvent) : Doc :=
  .struct [("v", writeU8 e.v), ("kind", .string e.kind), ("detail", e.detail.doc),
    ("at", writeTsMs e.at_)]

def readFloat : Value → Option F
  | .number n => JsonFloat.read n
  | _ => none

def readU8 (v : Value) : Option UInt8 := (v.nat (2 ^ 8)).map UInt8.ofNat
def readU32 (v : Value) : Option UInt32 := (v.nat (2 ^ 32)).map UInt32.ofNat
def readU64 (v : Value) : Option UInt64 := (v.nat (2 ^ 64)).map UInt64.ofNat

def readTsMs (v : Value) : Option DateTime :=
  v.i64.map fun ms => (DateTime.fromTimestampMillis ms).getD .unixEpoch

def readRfc3339 (v : Value) : Option DateTime := v.text.bind rfc.parse

def BoundingBox.deserialize (v : Value) : Option BoundingBox := do
  let fs ← v.fields
  let x ← Value.required "x" readU32 fs
  let y ← Value.required "y" readU32 fs
  let width ← Value.required "width" readU32 fs
  let height ← Value.required "height" readU32 fs
  some ⟨x, y, width, height⟩

def Detection.deserialize (v : Value) : Option (Detection F) := do
  let fs ← v.fields
  let bbox ← Value.required "bbox" BoundingBox.deserialize fs
  let className ← Value.required "class" Value.text fs
  let classId ← Value.required "class_id" readU32 fs
  let confidence ← Value.required "confidence" readFloat fs
  let frameSeq ← Value.required "frame_seq" readU64 fs
  let detectedAt ← Value.required "detected_at" (readRfc3339 rfc) fs
  some ⟨bbox, className, classId, confidence, frameSeq, detectedAt⟩

def DetectionsFrame.deserialize (v : Value) : Option (DetectionsFrame F) := do
  let fs ← v.fields
  let frameSeq ← Value.required "frame_seq" readU64 fs
  let capturedAt ← Value.required "captured_at" readTsMs fs
  let detections ← Value.required "detections"
    (fun v => v.items.bind (·.mapM (Detection.deserialize rfc))) fs
  let frameW ← Value.optional "frame_w" 0 readU32 fs
  let frameH ← Value.optional "frame_h" 0 readU32 fs
  some ⟨frameSeq, capturedAt, detections, frameW, frameH⟩

def defaultModeUnknown : UInt8 := 255

def TelemetrySample.deserialize (v : Value) : Option (TelemetrySample F G) := do
  let fs ← v.fields
  let tMs ← Value.required "t_ms" (fun v => v.i64.map Int64.ofInt) fs
  let rollDeg ← Value.required "roll_deg" readFloat fs
  let pitchDeg ← Value.required "pitch_deg" readFloat fs
  let yawDeg ← Value.required "yaw_deg" readFloat fs
  let altM ← Value.required "alt_m" readFloat fs
  let latDeg ← Value.optional "lat_deg" JsonFloat.zero readFloat fs
  let lonDeg ← Value.optional "lon_deg" JsonFloat.zero readFloat fs
  let batteryV ← Value.optional "battery_v" JsonFloat.zero readFloat fs
  let mode ← Value.optional "mode" defaultModeUnknown readU8 fs
  some ⟨tMs, rollDeg, pitchDeg, yawDeg, altM, latDeg, lonDeg, batteryV, mode⟩

def CommandMsg.deserialize (v : Value) : Option CommandMsg := do
  let fs ← v.fields
  let version ← Value.required "v" readU8 fs
  let target ← Value.required "target" Value.text fs
  let cmd ← Value.required "cmd" Value.text fs
  let args ← Value.required "args" (fun v => some v.toMap) fs
  let source ← Value.required "source" Value.text fs
  let id ← Value.required "id" readU64 fs
  some ⟨version, target, cmd, args, source, id⟩

def TrackMsg.deserialize (v : Value) : Option (TrackMsg F) := do
  let fs ← v.fields
  let version ← Value.required "v" readU8 fs
  let trackId ← Value.required "track_id" readU64 fs
  let frameSeq ← Value.required "frame_seq" readU64 fs
  let bbox ← Value.required "bbox" BoundingBox.deserialize fs
  let vx ← Value.required "vx" readFloat fs
  let vy ← Value.required "vy" readFloat fs
  let className ← Value.required "class" Value.text fs
  let classId ← Value.required "class_id" readU32 fs
  let confidence ← Value.required "confidence" readFloat fs
  let age ← Value.required "age" readU32 fs
  let misses ← Value.required "misses" readU32 fs
  some ⟨version, trackId, frameSeq, bbox, vx, vy, className, classId, confidence, age, misses⟩

def FcEvent.deserialize (v : Value) : Option FcEvent := do
  let fs ← v.fields
  let version ← Value.required "v" readU8 fs
  let kind ← Value.required "kind" Value.text fs
  let detail ← Value.required "detail" (fun v => some v.toMap) fs
  let at_ ← Value.required "at" readTsMs fs
  some ⟨version, kind, detail, at_⟩

end

/-- The payload of `TypedPublisher::publish`. -/
def toVec (d : Doc) : Bytes := d.render

/-- What `TypedSubscriber::recv` makes of a payload. -/
def fromSlice {α : Type} (deserialize : Value → Option α) (payload : Bytes) : Option α :=
  (parse payload).bind deserialize

end AutoTargeting.EventBus
