import AutoTargeting.EventBus.Publishers

namespace AutoTargeting.EventBus

open Json

variable {F G : Type} [JsonFloat F] [JsonFloat G] (rfc : Rfc3339) (limit : ℕ)

def floatValue (x : F) : Value :=
  if JsonFloat.isFinite x = true then .number (JsonFloat.write x) else .null

@[simp]
theorem read_writeFloat (x : F) : (writeFloat x).read limit = some (floatValue x) := by
  unfold writeFloat floatValue
  split <;> simp

/-- Of a float, exactly the finite ones come back. -/
@[simp]
theorem readFloat_bind {α : Type} (x : F) (k : F → Option α) (a : α) :
    (readFloat (floatValue x)).bind k = some a ↔ JsonFloat.isFinite x = true ∧ k x = some a := by
  unfold floatValue
  split
  · rename_i hx
    simp [readFloat, JsonFloat.read_write x hx, hx]
  · simp_all [readFloat]

@[simp]
theorem readU8_ofInt (n : UInt8) : readU8 (.number (.ofInt n.toNat)) = some n := by
  rw [readU8, Value.nat_ofInt n.toNat_lt, Option.map_some, UInt8.ofNat_toNat]

@[simp]
theorem readU32_ofInt (n : UInt32) : readU32 (.number (.ofInt n.toNat)) = some n := by
  rw [readU32, Value.nat_ofInt n.toNat_lt, Option.map_some, UInt32.ofNat_toNat]

@[simp]
theorem readU64_ofInt (n : UInt64) : readU64 (.number (.ofInt n.toNat)) = some n := by
  rw [readU64, Value.nat_ofInt n.toNat_lt, Option.map_some, UInt64.ofNat_toNat]

@[simp]
theorem i64_ofInt_toInt (n : Int64) : Value.i64 (.number (.ofInt n.toInt)) = some n.toInt :=
  Value.i64_ofInt ⟨n.le_toInt, n.toInt_lt⟩

/-- A time in milliseconds, which are within the range of an `i64`. -/
@[simp]
theorem readTsMs_ofInt (t : DateTime) :
    readTsMs (.number (.ofInt t.timestampMillis)) = some t.truncated := by
  have hmin := t.min_le
  have hmax := t.lt_max
  have hms : -2 ^ 63 ≤ t.timestampMillis ∧ t.timestampMillis < 2 ^ 63 := by
    unfold DateTime.timestampMillis
    omega
  rw [readTsMs, Value.i64_ofInt hms, Option.map_some, DateTime.fromTimestampMillis_timestampMillis,
    Option.getD_some]

@[simp]
theorem readRfc3339_format (t : DateTime) :
    readRfc3339 rfc (.string (rfc.format t)) = some t := by
  simp [readRfc3339, Value.text, rfc.parse_format]

def BoundingBox.value (b : BoundingBox) : Value :=
  .object [("x", .number (.ofInt b.x.toNat)), ("y", .number (.ofInt b.y.toNat)),
    ("width", .number (.ofInt b.width.toNat)), ("height", .number (.ofInt b.height.toNat))]

@[simp]
theorem BoundingBox.read_serialize (b : BoundingBox) :
    b.serialize.read (limit + 1) = some b.value := by
  simp [serialize, readStruct, writeU32, value]

@[simp]
theorem BoundingBox.deserialize_value (b : BoundingBox) : deserialize b.value = some b := by
  simp [deserialize, value, Value.fields, Value.required, Value.under]

def Detection.value (d : Detection F) : Value :=
  .object [("bbox", d.bbox.value), ("class", .string d.className),
    ("class_id", .number (.ofInt d.classId.toNat)), ("confidence", floatValue d.confidence),
    ("frame_seq", .number (.ofInt d.frameSeq.toNat)),
    ("detected_at", .string (rfc.format d.detectedAt))]

theorem Detection.read_serialize (d : Detection F) :
    (d.serialize rfc).read (limit + 2) = some (d.value rfc) := by
  simp [serialize, readStruct, writeU32, writeU64, value]

theorem Detection.deserialize_value (d : Detection F) :
    deserialize rfc (d.value rfc) =
      (readFloat (floatValue d.confidence)).bind fun x : F => some { d with confidence := x } := by
  simp [deserialize, value, Value.fields, Value.required, Value.under, Value.text]

theorem readItems_detections (ds : List (Detection F)) :
    readItems (limit + 2) (ds.map (Detection.serialize rfc)) =
      some (ds.map (Detection.value rfc)) := by
  induction ds with
  | nil => rfl
  | cons d ds ih =>
    rw [List.map_cons, readItems, Detection.read_serialize, ih]
    rfl

theorem mapM_detections (ds : List (Detection F)) :
    (ds.map (Detection.value rfc)).mapM (Detection.deserialize rfc) = some ds ↔
      ∀ d ∈ ds, JsonFloat.isFinite d.confidence = true := by
  induction ds with
  | nil => simp
  | cons d ds ih =>
    rw [List.map_cons, List.mapM_cons, Detection.deserialize_value, Option.bind_eq_bind,
      Option.bind_assoc, readFloat_bind, List.forall_mem_cons, ← ih]
    simp [Option.bind_eq_some_iff]

theorem TelemetrySample.received_iff (t : TelemetrySample F G) :
    (t.serialize.read (limit + 1)).bind deserialize = some t ↔
      JsonFloat.isFinite t.rollDeg = true ∧ JsonFloat.isFinite t.pitchDeg = true ∧
        JsonFloat.isFinite t.yawDeg = true ∧ JsonFloat.isFinite t.altM = true ∧
        JsonFloat.isFinite t.latDeg = true ∧ JsonFloat.isFinite t.lonDeg = true ∧
        JsonFloat.isFinite t.batteryV = true := by
  simp [serialize, readStruct, writeU8, deserialize, Value.fields, Value.required, Value.optional,
    Value.under]

theorem TrackMsg.received_iff (t : TrackMsg F) :
    (t.serialize.read (limit + 2)).bind deserialize = some t ↔
      JsonFloat.isFinite t.vx = true ∧ JsonFloat.isFinite t.vy = true ∧
        JsonFloat.isFinite t.confidence = true := by
  simp [serialize, readStruct, writeU8, writeU32, writeU64, deserialize, Value.fields,
    Value.required, Value.under, Value.text]

theorem DetectionsFrame.received_iff (f : DetectionsFrame F) :
    ((f.serialize rfc).read (limit + 4)).bind (deserialize rfc) =
        some { f with capturedAt := f.capturedAt.truncated } ↔
      ∀ d ∈ f.detections, JsonFloat.isFinite d.confidence = true := by
  have harray : (Doc.array (f.detections.map (Detection.serialize rfc))).read (limit + 3) =
      some (.array (f.detections.map (Detection.value rfc))) := by
    rw [Doc.read, readItems_detections, Option.map_some]
  rw [← mapM_detections rfc]
  simp [serialize, readStruct, writeU32, writeU64, writeTsMs, harray, deserialize, Value.fields,
    Value.required, Value.optional, Value.under, Value.items, Option.bind_eq_some_iff]

theorem CommandMsg.received (c : CommandMsg) (hread : c.args.doc.read limit = some c.args)
    (hmap : c.args.toMap = c.args) :
    (c.serialize.read (limit + 1)).bind deserialize = some c := by
  simp [serialize, readStruct, writeU8, writeU64, hread, deserialize, Value.fields, Value.required,
    Value.under, Value.text, hmap]

theorem FcEvent.received (e : FcEvent) (hread : e.detail.doc.read limit = some e.detail)
    (hmap : e.detail.toMap = e.detail) :
    (e.serialize.read (limit + 1)).bind deserialize = some { e with at_ := e.at_.truncated } := by
  simp [serialize, readStruct, writeU8, writeTsMs, hread, deserialize, Value.fields,
    Value.required, Value.under, Value.text, hmap]

@[simp]
theorem wellFormed_writeFloat (x : F) : (writeFloat x).WellFormed := by
  unfold writeFloat
  split <;> simp

@[simp]
theorem BoundingBox.wellFormed (b : BoundingBox) : b.serialize.WellFormed := by
  simp [serialize, writeU32]

@[simp]
theorem Detection.wellFormed (d : Detection F) : (d.serialize rfc).WellFormed := by
  simp [serialize, writeU32, writeU64]

theorem DetectionsFrame.wellFormed (f : DetectionsFrame F) : (f.serialize rfc).WellFormed := by
  simp [serialize, writeU32, writeU64, writeTsMs]

theorem TelemetrySample.wellFormed (t : TelemetrySample F G) : t.serialize.WellFormed := by
  simp [serialize, writeU8]

theorem TrackMsg.wellFormed (t : TrackMsg F) : t.serialize.WellFormed := by
  simp [serialize, writeU8, writeU32, writeU64]

theorem CommandMsg.wellFormed (c : CommandMsg) : c.serialize.WellFormed := by
  simp [serialize, writeU8, writeU64, wellFormed_doc]

theorem FcEvent.wellFormed (e : FcEvent) : e.serialize.WellFormed := by
  simp [serialize, writeU8, writeTsMs, wellFormed_doc]

theorem fromSlice_toVec {α : Type} {d : Doc} (h : d.WellFormed) (deserialize : Value → Option α) :
    fromSlice deserialize (toVec d) = (d.read maxLevels).bind deserialize := by
  rw [fromSlice, toVec, parse_render h]

/-- A float among the arguments of a command comes back as it was put there. -/
theorem jsonNumber_kept (x : G) :
    (jsonNumber x).doc.read limit = some (jsonNumber x) ∧ (jsonNumber x).toMap = jsonNumber x := by
  unfold jsonNumber
  split <;> simp [Value.doc, Value.toMap]

/-- The arguments of the console's commands are read as they were written. -/
theorem commandMsg_args (c : ConsoleCommand G) (id : UInt64) :
    (commandMsg id c).args.doc.read (limit + 1) = some (commandMsg id c).args ∧
      (commandMsg id c).args.toMap = (commandMsg id c).args := by
  cases c with
  | setRoi lat lon alt =>
    have hlat := jsonNumber_kept limit lat
    have hlon := jsonNumber_kept limit lon
    have halt := jsonNumber_kept limit alt
    have hkeys : keyBefore (utf8 "alt") (utf8 "lat") = true ∧
        keyBefore (utf8 "lat") (utf8 "lon") = true := by decide
    constructor
    · simp [commandMsg, Value.doc, docFields, readStruct, hlat, hlon, halt]
    · simp [commandMsg, Value.toMap, toMapFields, insertField, hlat, hlon, halt, hkeys]
  | _ => simp [commandMsg, Value.doc, docFields, readStruct, Value.toMap, toMapFields, insertField]

theorem fcDetail_kept (edge : Control.FcEvent) :
    (fcDetail edge).doc.read (limit + 1) = some (fcDetail edge) ∧
      (fcDetail edge).toMap = fcDetail edge := by
  cases edge <;>
    simp [fcDetail, Value.doc, docFields, readStruct, Value.toMap, toMapFields, insertField]

theorem map_eq_some_of_injective {α β : Type} {f : α → β} (hf : Function.Injective f)
    (x : Option α) (a : α) : x.map f = some (f a) ↔ x = some a := by
  cases x <;> simp [hf.eq_iff]

end AutoTargeting.EventBus
