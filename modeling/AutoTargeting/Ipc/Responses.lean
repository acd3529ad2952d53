import AutoTargeting.EventBus.Delivery
import AutoTargeting.Ipc.InitRequest

namespace AutoTargeting.Ipc

open Json EventBus

def escapeJsonByte (b : UInt8) : Bytes :=
  match b.toNat with
  | 34 => [92, 34]
  | 92 => [92, 92]
  | 10 => [92, 110]
  | 13 => [92, 114]
  | 9 => [92, 116]
  | _ => [b]

def escapeJsonString (s : Bytes) : Bytes := escape escapeJsonByte s

def quoted (s : String) : Doc := .quoted (escapeJsonString (utf8 s))

/-- The only control characters are line feeds, carriage returns and tabs. -/
def Printable (s : String) : Prop := ∀ b ∈ utf8 s, b < 32 → b = 10 ∨ b = 13 ∨ b = 9

instance : DecidablePred Printable := fun _ => inferInstanceAs (Decidable (∀ _ ∈ _, _ → _))

theorem escapeJsonByte_cases (b : UInt8) :
    (∃ d, escapeJsonByte b = [backslash, d] ∧ simpleEscape d = some b) ∨
      (b ≠ quote ∧ b ≠ backslash ∧ escapeJsonByte b = [b]) := by
  have hof : ∀ n, b.toNat = n → b = UInt8.ofNat n := fun n h => by rw [← h, UInt8.ofNat_toNat]
  unfold escapeJsonByte
  split
  · exact .inl ⟨34, rfl, by rw [hof 34 ‹_›]; rfl⟩
  · exact .inl ⟨92, rfl, by rw [hof 92 ‹_›]; rfl⟩
  · exact .inl ⟨110, rfl, by rw [hof 10 ‹_›]; rfl⟩
  · exact .inl ⟨114, rfl, by rw [hof 13 ‹_›]; rfl⟩
  · exact .inl ⟨116, rfl, by rw [hof 9 ‹_›]; rfl⟩
  · refine .inr ⟨?_, ?_, rfl⟩ <;> rintro rfl <;> simp_all [quote, backslash]

theorem closed_escapeJsonByte (b : UInt8) : Closed (escapeJsonByte b) := by
  rcases escapeJsonByte_cases b with ⟨d, h, -⟩ | ⟨hq, hb, h⟩
  · rw [h]
    exact closed_pair d
  · rw [h]
    exact closed_singleton hq hb

@[simp]
theorem wellFormed_quoted (s : String) : (quoted s).WellFormed :=
  Closed.escape closed_escapeJsonByte _

/-- A control character that is left as it is makes the text unreadable. -/
theorem fails_escapeJsonByte {b : UInt8} (hlt : b < 32) (h : ¬ (b = 10 ∨ b = 13 ∨ b = 9)) :
    Fails escapeJsonByte b := by
  have hall : ∀ b : UInt8, b < 32 → ¬ (b = 10 ∨ b = 13 ∨ b = 9) →
      escapeJsonByte b = [b] ∧ b ≠ backslash := by
    apply forall_byte
    decide +kernel
  obtain ⟨hself, hslash⟩ := hall b hlt h
  intro s
  rw [hself, List.singleton_append, unescape_cons hslash, if_pos hlt]

theorem reads_escapeJsonByte {b : UInt8} (h : b < 32 → b = 10 ∨ b = 13 ∨ b = 9) :
    Reads escapeJsonByte b := by
  rcases escapeJsonByte_cases b with ⟨d, hb, hd⟩ | ⟨-, hslash, hb⟩
  · exact reads_of_pair hb hd
  · apply reads_of_self hb hslash
    intro hlt
    rcases h hlt with rfl | rfl | rfl <;> exact absurd hb (by decide)

/-- A string of the bridge is read for what it is, or not at all. -/
@[simp]
theorem read_quoted (s : String) (limit : ℕ) :
    (quoted s).read limit = if Printable s then some (.string s) else none := by
  rw [quoted, Doc.read, readString, escapeJsonString]
  split
  case isTrue h =>
    rw [unescape_escape fun b hb => reads_escapeJsonByte (h b hb), Option.bind_some,
      ofUtf8_utf8, Option.map_some]
  case isFalse h =>
    have hnone : unescape (escape escapeJsonByte (utf8 s)) = none := by
      apply unescape_escape_eq_none
      · intro b
        by_cases hb : b < 32 → b = 10 ∨ b = 13 ∨ b = 9
        · exact .inl (reads_escapeJsonByte hb)
        · rw [Classical.not_imp] at hb
          exact .inr (fails_escapeJsonByte hb.1 hb.2)
      · simp only [Printable, not_forall] at h
        obtain ⟨b, hb, hlt, hcontrol⟩ := h
        exact ⟨b, hb, fails_escapeJsonByte hlt hcontrol⟩
    rw [hnone]
    rfl

/-- `std::to_string` of a float: six digits behind the point, or a word for an infinity or
NaN. What it writes for a finite float is read as some float. -/
class PrintedFloat (F : Type) extends BoundedFloat F where
  printed : F → Numeral
  word : F → Bytes
  word_mem : ∀ x, word x ∈ ([[105, 110, 102], [45, 105, 110, 102], [110, 97, 110],
    [45, 110, 97, 110]] : List Bytes)
  read_printed : ∀ x, isFinite x = true → (read (printed x)).isSome

structure InitResponse where
  ok : Bool
  error : String
  outputClasses : UInt32
  backend : String
  deriving DecidableEq

structure DetectionJson (F : Type) where
  bbox : BoundingBox
  className : String
  classId : UInt32
  confidence : F
  deriving DecidableEq

structure InferResponse (F : Type) where
  ok : Bool
  error : String
  frameSeq : UInt64
  latencyMs : UInt32
  detections : List (DetectionJson F)
  deriving DecidableEq

structure HealthResponse (F : Type) where
  ok : Bool
  modelLoaded : Bool
  npuUtilization : F
  backend : String
  deriving DecidableEq

section
variable {F : Type} [PrintedFloat F]

/-- `std::to_string` of a float. -/
def toStringFloat (x : F) : Doc :=
  .scalar (if JsonFloat.isFinite x = true then (PrintedFloat.printed x).token
    else PrintedFloat.word x)

/-- The `init_ack` that `run_bridge` puts together. -/
def InitResponse.serialize (r : InitResponse) : Doc :=
  .struct ([("type", .string "init_ack"), ("ok", .bool r.ok)] ++
    if r.ok then [("output_classes", writeU32 r.outputClasses), ("backend", quoted r.backend)]
    else [("error", quoted r.error)])

def DetectionJson.serialize (d : DetectionJson F) : Doc :=
  .struct [("bbox", d.bbox.serialize), ("class", quoted d.className),
    ("class_id", writeU32 d.classId), ("confidence", toStringFloat d.confidence)]

def InferResponse.serialize (r : InferResponse F) : Doc :=
  .struct ([("type", .string "infer_ack"), ("ok", .bool r.ok)] ++
    if r.ok then
      [("frame_seq", writeU64 r.frameSeq), ("latency_ms", writeU32 r.latencyMs),
        ("detections", .array (r.detections.map DetectionJson.serialize))]
    else [("error", quoted r.error)])

def HealthResponse.serialize (r : HealthResponse F) : Doc :=
  .struct [("type", .string "health_ack"), ("ok", .bool r.ok),
    ("model_loaded", .bool r.modelLoaded), ("npu_utilization", toStringFloat r.npuUtilization),
    ("backend", quoted r.backend)]

example : toVec (InitResponse.serialize ⟨false, "no \"x\"\n", 0, ""⟩) =
    utf8 "\x7b\"type\":\"init_ack\",\"ok\":false,\"error\":\"no \\\"x\\\"\\n\"\x7d" := by decide

end

def InitResponse.deserialize (v : Value) : Option InitResponse := do
  let fs ← v.fields
  let ok ← Value.required "ok" Value.flag fs
  let error ← Value.optional "error" "" Value.text fs
  let outputClasses ← Value.optional "output_classes" 0 readU32 fs
  let backend ← Value.optional "backend" "" Value.text fs
  some ⟨ok, error, outputClasses, backend⟩

section
variable {F : Type} [JsonFloat F]

def DetectionJson.deserialize (v : Value) : Option (DetectionJson F) := do
  let fs ← v.fields
  let bbox ← Value.required "bbox" BoundingBox.deserialize fs
  let className ← Value.required "class" Value.text fs
  let classId ← Value.required "class_id" readU32 fs
  let confidence ← Value.required "confidence" readFloat fs
  some ⟨bbox, className, classId, confidence⟩

def InferResponse.deserialize (v : Value) : Option (InferResponse F) := do
  let fs ← v.fields
  let ok ← Value.required "ok" Value.flag fs
  let error ← Value.optional "error" "" Value.text fs
  let frameSeq ← Value.optional "frame_seq" 0 readU64 fs
  let latencyMs ← Value.optional "latency_ms" 0 readU32 fs
  let detections ← Value.optional "detections" []
    (fun v => v.items.bind (·.mapM DetectionJson.deserialize)) fs
  some ⟨ok, error, frameSeq, latencyMs, detections⟩

def HealthResponse.deserialize (v : Value) : Option (HealthResponse F) := do
  let fs ← v.fields
  let ok ← Value.required "ok" Value.flag fs
  let modelLoaded ← Value.optional "model_loaded" false Value.flag fs
  let npuUtilization ← Value.optional "npu_utilization" JsonFloat.zero readFloat fs
  let backend ← Value.optional "backend" "" Value.text fs
  some ⟨ok, modelLoaded, npuUtilization, backend⟩

end

section
variable {F : Type} [PrintedFloat F]

theorem readScalar_word {word : Bytes} (h : word ∈ ([[105, 110, 102], [45, 105, 110, 102],
    [110, 97, 110], [45, 110, 97, 110]] : List Bytes)) :
    readScalar word = none ∧ (Doc.scalar word).WellFormed := by
  have hall : ∀ word ∈ ([[105, 110, 102], [45, 105, 110, 102], [110, 97, 110],
      [45, 110, 97, 110]] : List Bytes), word ≠ [] ∧ isNumeral word = false ∧
      word.all (!isDelimiter ·) = true ∧ word ≠ [110, 117, 108, 108] ∧
      word ≠ [116, 114, 117, 101] ∧ word ≠ [102, 97, 108, 115, 101] := by decide
  obtain ⟨hne, hnumeral, hbytes, hnull, htrue, hfalse⟩ := hall word h
  constructor
  · simp [readScalar, hnumeral, hnull, htrue, hfalse]
  · exact wellFormed_token hne hbytes

@[simp]
theorem read_toStringFloat (x : F) (limit : ℕ) : (toStringFloat x).read limit =
    if JsonFloat.isFinite x = true then some (.number (PrintedFloat.printed x)) else none := by
  unfold toStringFloat
  split
  · rw [Doc.read, readScalar_numeral]
  · rw [Doc.read, (readScalar_word (PrintedFloat.word_mem x)).1]

@[simp]
theorem wellFormed_toStringFloat (x : F) : (toStringFloat x).WellFormed := by
  unfold toStringFloat
  split
  · exact wellFormed_number _
  · exact (readScalar_word (PrintedFloat.word_mem x)).2

theorem InitResponse.wellFormed (r : InitResponse) : r.serialize.WellFormed := by
  cases hok : r.ok <;> simp [serialize, hok, writeU32]

@[simp]
theorem DetectionJson.wellFormed (d : DetectionJson F) : d.serialize.WellFormed := by
  simp [serialize, writeU32]

theorem InferResponse.wellFormed (r : InferResponse F) : r.serialize.WellFormed := by
  cases hok : r.ok <;> simp [serialize, hok, writeU32, writeU64]

theorem HealthResponse.wellFormed (r : HealthResponse F) : r.serialize.WellFormed := by
  simp [serialize]

inductive Response (F : Type)
  | init (r : InitResponse)
  | infer (r : InferResponse F)
  | health (r : HealthResponse F)

/-- The error, the backend or the class names that a response carries. -/
def Response.texts : Response F → List String
  | .init r => if r.ok then [r.backend] else [r.error]
  | .infer r => if r.ok then r.detections.map DetectionJson.className else [r.error]
  | .health r => [r.backend]

def Response.floats : Response F → List F
  | .init _ => []
  | .infer r => if r.ok then r.detections.map DetectionJson.confidence else []
  | .health r => [r.npuUtilization]

/-- The response that the client has when it has read the document. -/
def Response.received : Response F → Option (Response F)
  | .init r => (fromSlice InitResponse.deserialize (toVec r.serialize)).map .init
  | .infer r => (fromSlice InferResponse.deserialize (toVec r.serialize)).map .infer
  | .health r => (fromSlice HealthResponse.deserialize (toVec r.serialize)).map .health

/-- The document is read, and the texts of the response came through. -/
def Response.Recovered (d : Response F) : Prop :=
  ∃ d', d.received = some d' ∧ d'.texts = d.texts

/-- The responses that come through. -/
structure Response.Survives (d : Response F) : Prop where
  texts : ∀ s ∈ d.texts, Printable s
  floats : ∀ x ∈ d.floats, JsonFloat.isFinite x = true

theorem init_recovered_iff (r : InitResponse) :
    (Response.init r : Response F).Recovered ↔ (Response.init r : Response F).Survives := by
  have hread : (Response.init r : Response F).received =
      ((r.serialize.read (126 + 1)).bind InitResponse.deserialize).map .init := by
    rw [Response.received, fromSlice_toVec r.wellFormed]
    rfl
  have hsurvives : (Response.init r : Response F).Survives ↔
      Printable (if r.ok then r.backend else r.error) := by
    constructor
    · intro h
      apply h.texts
      cases hok : r.ok <;> simp [Response.texts, hok]
    · intro h
      constructor
      · cases hok : r.ok <;> simpa [Response.texts, hok] using h
      · simp [Response.floats]
  rw [hsurvives, Response.Recovered, hread]
  cases hok : r.ok with
  | false =>
    by_cases hp : Printable r.error
    · simp [InitResponse.serialize, hok, hp, readStruct, InitResponse.deserialize, Value.fields,
        Value.required, Value.optional, Value.under, Value.flag, Value.text, Response.texts]
    · simp [InitResponse.serialize, hok, hp, readStruct]
  | true =>
    by_cases hp : Printable r.backend
    · simp [InitResponse.serialize, hok, hp, readStruct, InitResponse.deserialize, Value.fields,
        Value.required, Value.optional, Value.under, Value.flag, Value.text, Response.texts,
        writeU32]
    · simp [InitResponse.serialize, hok, hp, readStruct, writeU32]

theorem health_recovered_iff (r : HealthResponse F) :
    (Response.health r).Recovered ↔ (Response.health r).Survives := by
  have hread : (Response.health r).received =
      ((r.serialize.read (126 + 1)).bind HealthResponse.deserialize).map .health := by
    rw [Response.received, fromSlice_toVec r.wellFormed]
    rfl
  have hsurvives : (Response.health r).Survives ↔
      Printable r.backend ∧ JsonFloat.isFinite r.npuUtilization = true := by
    constructor
    · exact fun h => ⟨h.texts _ (by simp [Response.texts]), h.floats _ (by simp [Response.floats])⟩
    · rintro ⟨hp, hx⟩
      constructor
      · simpa [Response.texts] using hp
      · simpa [Response.floats] using hx
  rw [hsurvives, Response.Recovered, hread]
  by_cases hp : Printable r.backend
  · by_cases hx : JsonFloat.isFinite r.npuUtilization = true
    · obtain ⟨x, hprinted⟩ := Option.isSome_iff_exists.mp (PrintedFloat.read_printed _ hx)
      simp [HealthResponse.serialize, hp, hx, readStruct, HealthResponse.deserialize,
        Value.fields, Value.required, Value.optional, Value.under, Value.flag, Value.text,
        readFloat, hprinted, Response.texts]
    · simp [HealthResponse.serialize, hp, hx, readStruct]
  · simp [HealthResponse.serialize, hp, readStruct]

def DetectionJson.Readable (d : DetectionJson F) : Prop :=
  Printable d.className ∧ JsonFloat.isFinite d.confidence = true

def DetectionJson.value (d : DetectionJson F) : Value :=
  .object [("bbox", d.bbox.value), ("class", .string d.className),
    ("class_id", .number (.ofInt d.classId.toNat)),
    ("confidence", .number (PrintedFloat.printed d.confidence))]

theorem DetectionJson.read_serialize_of_readable {d : DetectionJson F} (h : d.Readable)
    (limit : ℕ) : d.serialize.read (limit + 2) = some d.value := by
  simp [serialize, readStruct, writeU32, value, h.1, h.2]

theorem DetectionJson.readable_of_read {d : DetectionJson F} {limit : ℕ} {v : Value}
    (h : d.serialize.read (limit + 2) = some v) : d.Readable := by
  by_cases hp : Printable d.className
  · by_cases hx : JsonFloat.isFinite d.confidence = true
    · exact ⟨hp, hx⟩
    · simp [serialize, readStruct, hp, hx] at h
  · simp [serialize, readStruct, hp] at h

theorem DetectionJson.deserialize_value {d : DetectionJson F} (h : d.Readable) :
    ∃ x : F, deserialize d.value = some { d with confidence := x } := by
  obtain ⟨x, hprinted⟩ := Option.isSome_iff_exists.mp (PrintedFloat.read_printed _ h.2)
  refine ⟨x, ?_⟩
  simp [deserialize, value, Value.fields, Value.required, Value.under, Value.text, readFloat,
    hprinted]

/-- A list is read where each of its detections can be read. -/
theorem readItems_of_readable {ds : List (DetectionJson F)} (h : ∀ d ∈ ds, d.Readable)
    (limit : ℕ) : readItems (limit + 2) (ds.map DetectionJson.serialize) =
      some (ds.map DetectionJson.value) := by
  induction ds with
  | nil => rfl
  | cons d ds ih =>
    rw [List.map_cons, readItems,
      DetectionJson.read_serialize_of_readable (h d (by simp)), ih fun d hd => h d (by simp [hd])]
    rfl

theorem readable_of_readItems {ds : List (DetectionJson F)} {limit : ℕ} {vs : List Value}
    (h : readItems (limit + 2) (ds.map DetectionJson.serialize) = some vs) :
    ∀ d ∈ ds, d.Readable := by
  induction ds generalizing vs with
  | nil => simp
  | cons d ds ih =>
    rw [List.map_cons, readItems] at h
    simp only [Option.bind_eq_bind, Option.bind_eq_some_iff] at h
    obtain ⟨v, hd, vs, hds, -⟩ := h
    intro e he
    rcases List.mem_cons.mp he with rfl | he
    · exact DetectionJson.readable_of_read hd
    · exact ih hds e he

/-- The client's list has the class names of the bridge's. -/
theorem mapM_deserialize_value {ds : List (DetectionJson F)} (h : ∀ d ∈ ds, d.Readable) :
    ∃ es : List (DetectionJson F),
      (ds.map DetectionJson.value).mapM DetectionJson.deserialize = some es ∧
      es.map DetectionJson.className = ds.map DetectionJson.className := by
  induction ds with
  | nil => exact ⟨[], rfl, rfl⟩
  | cons d ds ih =>
    obtain ⟨x, hx⟩ := DetectionJson.deserialize_value (h d (by simp))
    obtain ⟨es, hes, hnames⟩ := ih fun d hd => h d (by simp [hd])
    refine ⟨{ d with confidence := x } :: es, ?_, by simp [hnames]⟩
    rw [List.map_cons, List.mapM_cons, hx, hes]
    rfl

/-- A failed inference has one text and no number to lose. -/
theorem infer_survives_of_error {r : InferResponse F} (hok : r.ok = false) :
    (Response.infer r).Survives ↔ Printable r.error := by
  constructor
  · exact fun h => h.texts _ (by simp [Response.texts, hok])
  · intro h
    constructor
    · simpa [Response.texts, hok] using h
    · simp [Response.floats, hok]

theorem infer_survives_of_ok {r : InferResponse F} (hok : r.ok = true) :
    (Response.infer r).Survives ↔ ∀ d ∈ r.detections, d.Readable := by
  constructor
  · intro h d hd
    constructor
    · exact h.texts _ (by simpa [Response.texts, hok] using ⟨d, hd, rfl⟩)
    · exact h.floats _ (by simpa [Response.floats, hok] using ⟨d, hd, rfl⟩)
  · intro h
    constructor
    · simpa [Response.texts, hok] using fun d hd => (h d hd).1
    · simpa [Response.floats, hok] using fun d hd => (h d hd).2

theorem infer_recovered_iff (r : InferResponse F) :
    (Response.infer r).Recovered ↔ (Response.infer r).Survives := by
  have hread : (Response.infer r).received =
      ((r.serialize.read (124 + 3)).bind InferResponse.deserialize).map .infer := by
    rw [Response.received, fromSlice_toVec r.wellFormed]
    rfl
  rw [Response.Recovered, hread]
  cases hok : r.ok with
  | false =>
    rw [infer_survives_of_error hok]
    by_cases hp : Printable r.error
    · simp [InferResponse.serialize, hok, hp, readStruct, InferResponse.deserialize, Value.fields,
        Value.required, Value.optional, Value.under, Value.flag, Value.text, Response.texts]
    · simp [InferResponse.serialize, hok, hp, readStruct]
  | true =>
    rw [infer_survives_of_ok hok]
    constructor
    · rintro ⟨d', hd', -⟩
      cases hitems : readItems 125 (r.detections.map DetectionJson.serialize) with
      | none =>
        simp [InferResponse.serialize, hok, readStruct, writeU32, writeU64, Doc.read,
          hitems] at hd'
      | some vs => exact readable_of_readItems hitems
    · intro h
      obtain ⟨es, hes, hnames⟩ := mapM_deserialize_value h
      have harray : (Doc.array (r.detections.map DetectionJson.serialize)).read 126 =
          some (.array (r.detections.map DetectionJson.value)) := by
        rw [Doc.read, readItems_of_readable h, Option.map_some]
      refine ⟨.infer { r with error := "", detections := es }, ?_, ?_⟩
      · simp [InferResponse.serialize, hok, readStruct, writeU32, writeU64, harray,
          InferResponse.deserialize, Value.fields, Value.required, Value.optional, Value.under,
          Value.flag, Value.items, hes]
      · simpa [Response.texts, hok] using hnames

/-- The texts of a request and of a response come through exactly where the one needs no
escapes, and the other no escapes but those that the bridge has. -/
theorem texts_survive_iff (c : Casts F) (r : InitRequest F) (d : Response F) :
    ((∃ p, parseInitRequest c (toVec r.serialize) = some p ∧ r.Recovered p) ↔ r.Survives c) ∧
      (d.Recovered ↔ d.Survives) := by
  apply And.intro (r.recovered_iff c)
  cases d with
  | init r => exact init_recovered_iff r
  | infer r => exact infer_recovered_iff r
  | health r => exact health_recovered_iff r

end

/-- Three of the floats. -/
inductive SampleFloat
  | zero
  | half
  | nan
  deriving DecidableEq, Repr

namespace SampleFloat

def write : SampleFloat → Numeral
  | half => ⟨[48, 46, 53], by decide⟩
  | _ => ⟨[48, 46, 48], Eq.refl true⟩

def printed : SampleFloat → Numeral
  | half => ⟨[48, 46, 53, 48, 48, 48, 48, 48], by decide⟩
  | _ => ⟨[48, 46, 48, 48, 48, 48, 48, 48], by decide⟩

def read (n : Numeral) : Option SampleFloat :=
  if Strtod.scan n.token = some 0 then some .zero
  else if Strtod.scan n.token = some (1 / 2) then some .half
  else none

theorem scan_samples :
    Strtod.scan [48, 46, 48] = some 0 ∧ Strtod.scan [48, 46, 53] = some (1 / 2) ∧
    Strtod.scan [48, 46, 48, 48, 48, 48, 48, 48] = some 0 ∧
    Strtod.scan [48, 46, 53, 48, 48, 48, 48, 48] = some (1 / 2) := by
  decide +kernel

instance : PrintedFloat SampleFloat where
  isFinite x := x ≠ .nan
  zero := .zero
  write := write
  read := read
  zero_finite := by decide
  read_write x h := by
    obtain ⟨hzero, hhalf, -, -⟩ := scan_samples
    cases x with
    | zero => simp [read, write, hzero]
    | half => simp [read, write, hhalf]
    | nan => simp at h
  write_bounded x _ q hq := by
    obtain ⟨hzero, hhalf, -, -⟩ := scan_samples
    cases x with
    | half =>
      obtain rfl : 1 / 2 = q := Option.some.inj (hhalf.symm.trans hq)
      have hlow : (2 : ℚ) ^ (-1022 : ℤ) ≤ 2 ^ (-1 : ℤ) :=
        zpow_le_zpow_right₀ (by norm_num) (by norm_num)
      have hhigh : (1 : ℚ) ≤ 2 ^ 1023 := one_le_pow₀ (by norm_num)
      rw [zpow_neg_one, ← one_div] at hlow
      rw [abs_of_pos (by norm_num)]
      exact .inr ⟨hlow, le_trans (by norm_num) hhigh⟩
    | _ =>
      obtain rfl : 0 = q := Option.some.inj (hzero.symm.trans hq)
      exact .inl rfl
  printed := printed
  word _ := [110, 97, 110]
  word_mem _ := by decide
  read_printed x _ := by
    obtain ⟨-, -, hzero, hhalf⟩ := scan_samples
    cases x <;> simp [read, printed, hzero, hhalf]

end SampleFloat

/-- A model in a directory whose name has quotes in it. -/
def quotedPath : InitRequest SampleFloat :=
  ⟨"/models/\"best\"/yolo.rknn", 1280, 720, "nv12", .half, .half, none, none, none⟩

def sampleCasts : Casts SampleFloat := ⟨fun _ => .zero, fun _ => 0, fun _ => 0⟩

/-- An error message that rings a bell. -/
def ringing : Response SampleFloat := .init ⟨false, "\u0007no model", 0, ""⟩

/-- The path is cut at its first quote, and the message cannot be read. -/
theorem texts_lost :
    (¬ ∃ p, parseInitRequest sampleCasts (toVec quotedPath.serialize) = some p ∧
        quotedPath.Recovered p) ∧ ¬ ringing.Recovered := by
  constructor
  · rw [InitRequest.recovered_iff]
    intro h
    exact absurd h.modelPath (by decide)
  · rw [ringing, init_recovered_iff]
    intro h
    exact absurd (h.texts _ List.mem_cons_self) (by decide)

end AutoTargeting.Ipc
