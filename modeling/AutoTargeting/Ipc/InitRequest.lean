import AutoTargeting.EventBus.Messages
import AutoTargeting.Library.JsonSearch
import AutoTargeting.Library.Strtod

namespace AutoTargeting.Ipc

open Json EventBus

/-- Floats whose numerals are of no unusual size: a `double` is near to each of them. -/
class BoundedFloat (F : Type) extends JsonFloat F where
  write_bounded : ∀ x, isFinite x = true → ∀ q, Strtod.scan (write x).token = some q →
    q = 0 ∨ 2 ^ (-1022 : ℤ) ≤ |q| ∧ |q| ≤ 2 ^ 1023

/-- `InitRequest` of the client; its `msg_type` is always "init". -/
structure InitRequest (F : Type) where
  modelPath : String
  inputWidth : UInt32
  inputHeight : UInt32
  inputFormat : String
  confidenceThreshold : F
  nmsThreshold : F
  frameShm : Option String
  frameShmBuffers : Option UInt32
  frameShmSize : Option UInt64
  deriving DecidableEq

structure ParsedInit (F : Type) where
  modelPath : Bytes
  inputWidth : UInt32
  inputHeight : UInt32
  inputFormat : Bytes
  confidenceThreshold : F
  nmsThreshold : F
  frameShm : Bytes
  frameShmBuffers : UInt32
  frameShmSize : UInt64
  deriving DecidableEq

/-- What a `double` is cast to. Beyond the range of an integer type the language leaves the
result to the machine. -/
structure Casts (F : Type) where
  float : ℚ → F
  beyondU32 : ℚ → UInt32
  beyondU64 : ℚ → UInt64

namespace Casts
variable {F : Type}

def u32 (c : Casts F) (x : ℚ) : UInt32 :=
  if -1 < x ∧ x < 2 ^ 32 then UInt32.ofNat ⌊x⌋.toNat else c.beyondU32 x

def u64 (c : Casts F) (x : ℚ) : UInt64 :=
  if -1 < x ∧ x < 2 ^ 64 then UInt64.ofNat ⌊x⌋.toNat else c.beyondU64 x

end Casts

section
variable {F : Type} [JsonFloat F]

/-- A field that is left out where there is no value. -/
def skipNone {α : Type} (name : String) (write : α → Doc) (x : Option α) : List (String × Doc) :=
  (x.map fun a => (name, write a)).toList

def InitRequest.fields (r : InitRequest F) : List (String × Doc) :=
  [("type", .string "init"), ("model_path", .string r.modelPath),
    ("input_width", writeU32 r.inputWidth), ("input_height", writeU32 r.inputHeight),
    ("input_format", .string r.inputFormat),
    ("confidence_threshold", writeFloat r.confidenceThreshold),
    ("nms_threshold", writeFloat r.nmsThreshold)] ++
  (skipNone "frame_shm" .string r.frameShm ++
    (skipNone "frame_shm_buffers" writeU32 r.frameShmBuffers ++
      skipNone "frame_shm_size" writeU64 r.frameShmSize))

def InitRequest.serialize (r : InitRequest F) : Doc := .struct r.fields

end

def findString (json : Bytes) (key : String) : Option Bytes :=
  (findAfter (keyNeedle (utf8 key) [quote]) json).bind fun s =>
    if quote ∈ s then some (s.takeWhile (· ≠ quote)) else none

def findNumber (json : Bytes) (key : String) : Option ℚ :=
  (findAfter (keyNeedle (utf8 key) []) json).bind Strtod.stod

/-- Into a fresh request, as `run_bridge` has it. -/
def parseInitRequest {F : Type} (c : Casts F) (json : Bytes) : Option (ParsedInit F) := do
  let modelPath ← findString json "model_path"
  let inputWidth ← (findNumber json "input_width").map c.u32
  let inputHeight ← (findNumber json "input_height").map c.u32
  let inputFormat ← findString json "input_format"
  let confidenceThreshold ← (findNumber json "confidence_threshold").map c.float
  let nmsThreshold ← (findNumber json "nms_threshold").map c.float
  some
    { modelPath := modelPath
      inputWidth := inputWidth
      inputHeight := inputHeight
      inputFormat := inputFormat
      confidenceThreshold := confidenceThreshold
      nmsThreshold := nmsThreshold
      frameShm := (findString json "frame_shm").getD []
      frameShmBuffers := ((findNumber json "frame_shm_buffers").map c.u32).getD 0
      frameShmSize := ((findNumber json "frame_shm_size").map c.u64).getD 0 }

def initKeys : List String :=
  ["type", "model_path", "input_width", "input_height", "input_format", "confidence_threshold",
    "nms_threshold", "frame_shm", "frame_shm_buffers", "frame_shm_size"]

theorem isKey_of_mem_initKeys : ∀ key ∈ initKeys, IsKey (utf8 key) := by decide +kernel

theorem skipNone_keys {α : Type} (name : String) (write : α → Doc) (x : Option α) :
    ((skipNone name write x).map Prod.fst).Sublist [name] := by
  cases x <;> simp [skipNone]

section
variable {F : Type} [JsonFloat F]

theorem InitRequest.keys_sublist (r : InitRequest F) :
    (r.fields.map Prod.fst).Sublist initKeys := by
  simp only [fields, List.map_append]
  apply List.Sublist.append (List.Sublist.refl ["type", "model_path", "input_width",
    "input_height", "input_format", "confidence_threshold", "nms_threshold"])
  apply List.Sublist.append (skipNone_keys "frame_shm" _ _)
  exact List.Sublist.append (skipNone_keys "frame_shm_buffers" _ _)
    (skipNone_keys "frame_shm_size" _ _)

theorem flat_writeFloat (x : F) : Flat (writeFloat x) := by
  unfold writeFloat
  split
  · exact .scalar (wellFormed_number _)
  · exact .scalar wellFormed_null

theorem InitRequest.searchable (r : InitRequest F) : Searchable r.fields := by
  have hinit : initKeys.Nodup := by decide
  constructor
  · exact hinit.sublist r.keys_sublist
  · intro f hf
    exact isKey_of_mem_initKeys _ (r.keys_sublist.subset (List.mem_map_of_mem hf))
  · intro f hf
    simp only [fields, skipNone, List.mem_append, List.mem_cons, List.not_mem_nil, or_false,
      Option.mem_toList, Option.map_eq_some_iff] at hf
    rcases hf with (rfl | rfl | rfl | rfl | rfl | rfl | rfl) |
      ⟨s, -, rfl⟩ | ⟨n, -, rfl⟩ | ⟨n, -, rfl⟩
    · exact .string _
    · exact .string _
    · exact .scalar (wellFormed_int _)
    · exact .scalar (wellFormed_int _)
    · exact .string _
    · exact flat_writeFloat _
    · exact flat_writeFloat _
    · exact .string _
    · exact .scalar (wellFormed_int _)
    · exact .scalar (wellFormed_int _)

end

section
variable {fields : List (String × Doc)} {key : String}

/-- What `find_string` makes of a written string: it stops at the first quote, and takes no
escape back. -/
def cut (s : String) : Bytes := (escape escapeByte (utf8 s)).takeWhile (· ≠ quote)

theorem findString_of_mem (h : Searchable fields) {s : String}
    (hmem : (key, Doc.string s) ∈ fields) :
    findString (Doc.struct fields).render key = some (cut s) := by
  have hopen : [quote] <+: (Doc.string s).render := by simp [Doc.string, Doc.render]
  obtain ⟨t, -, ht⟩ := h.findAfter_of_mem hmem (by simp) hopen
  have hrest : (Doc.string s).render.drop [quote].length ++ t =
      escape escapeByte (utf8 s) ++ quote :: t := by
    simp [Doc.string, Doc.render]
  have hcut : (escape escapeByte (utf8 s) ++ quote :: t).takeWhile (· ≠ quote) = cut s := by
    rw [List.takeWhile_append]
    split
    case isTrue hall =>
      have hwhole := (List.takeWhile_sublist (p := (· ≠ quote))
        (l := escape escapeByte (utf8 s))).eq_of_length hall
      rw [cut, hwhole]
      simp
    case isFalse => rfl
  rw [findString, ht, hrest, Option.bind_some, if_pos (by simp), hcut]

theorem findString_of_not_mem (h : Searchable fields) (hkey : IsKey (utf8 key))
    (hnot : key ∉ fields.map Prod.fst) : findString (Doc.struct fields).render key = none := by
  rw [findString, h.findAfter_of_not_mem hkey (by simp) hnot, Option.bind_none]

theorem findNumber_of_not_mem (h : Searchable fields) (hkey : IsKey (utf8 key))
    (hnot : key ∉ fields.map Prod.fst) : findNumber (Doc.struct fields).render key = none := by
  rw [findNumber, h.findAfter_of_not_mem hkey (by simp) hnot, Option.bind_none]

theorem stops_of_follows {t : Bytes} (h : Follows t) : Strtod.Stops t := by
  obtain ⟨c, t, rfl, hc, -⟩ := h
  intro b hb
  obtain rfl : c = b := by simpa using hb
  rw [← Bool.not_eq_true]
  intro hnumeral
  rw [isDelimiter_of_numeralByte hnumeral] at hc
  exact absurd hc (by decide)

/-- A token is read as the number that it starts with. -/
theorem findNumber_of_mem (h : Searchable fields) {b : UInt8} {token : Bytes}
    (hmem : (key, Doc.scalar (b :: token)) ∈ fields) (hb : Strtod.isSpace b = false) :
    findNumber (Doc.struct fields).render key =
      (Strtod.scan (b :: token)).bind Strtod.toDouble := by
  obtain ⟨t, hfollows, ht⟩ := h.findAfter_of_mem hmem (by simp) (List.nil_prefix)
  rw [findNumber, ht, Option.bind_some]
  exact Strtod.stod_append hb (stops_of_follows hfollows)

theorem isSpace_of_numeralByte :
    ∀ b : UInt8, isNumeralByte b = true → Strtod.isSpace b = false := by
  apply forall_byte
  decide +kernel

theorem findNumber_numeral (h : Searchable fields) {n : Numeral}
    (hmem : (key, Doc.number n) ∈ fields) :
    findNumber (Doc.struct fields).render key =
      (Strtod.scan n.token).bind Strtod.toDouble := by
  obtain ⟨hne, hbytes⟩ := isNumeral_bytes n.wf
  obtain ⟨token, hwf⟩ := n
  cases token with
  | nil => simp at hne
  | cons b token =>
    apply findNumber_of_mem h hmem
    apply isSpace_of_numeralByte
    simp only [List.all_cons, Bool.and_eq_true] at hbytes
    exact hbytes.1

theorem findNumber_nat (h : Searchable fields) {n : ℕ} (hn : n < 2 ^ 64)
    (hmem : (key, Doc.int n) ∈ fields) :
    findNumber (Doc.struct fields).render key = some (Strtod.nearest n) := by
  have hscan : Strtod.scan (Numeral.ofInt n).token = some (n : ℚ) := Strtod.scan_decimal n
  rw [findNumber_numeral h hmem, hscan, Option.bind_some, (Strtod.toDouble_natCast hn).1]

theorem findNumber_float {F : Type} [BoundedFloat F] (h : Searchable fields) {x : F}
    (hmem : (key, writeFloat x) ∈ fields) :
    (findNumber (Doc.struct fields).render key).isSome ↔ JsonFloat.isFinite x = true := by
  by_cases hx : JsonFloat.isFinite x = true
  · rw [writeFloat, if_pos hx] at hmem
    obtain ⟨q, hq⟩ := Option.isSome_iff_exists.mp (Strtod.scan_isSome (JsonFloat.write x).wf)
    rw [findNumber_numeral h hmem, hq, Option.bind_some]
    apply iff_of_true _ hx
    rcases BoundedFloat.write_bounded x hx q hq with rfl | ⟨hlow, hhigh⟩
    · have hzero := (Strtod.toDouble_natCast (n := 0) (by decide)).1
      rw [Nat.cast_zero] at hzero
      simp [hzero]
    · simp [Strtod.toDouble_eq_some hlow hhigh]
  · rw [writeFloat, if_neg hx] at hmem
    rw [findNumber_of_mem h hmem (by decide)]
    have hnull : Strtod.scan [110, 117, 108, 108] = none := by
      simp [Strtod.scan, Strtod.splitSign, Strtod.scanUnsigned, isDigit, Strtod.splitFraction]
    simp [hnull, hx]

end

/-- The strings and dimensions came through, and so did which fields of the segment are there:
a string that is not empty, and numbers that are not zero. -/
structure InitRequest.Recovered {F : Type} (r : InitRequest F) (p : ParsedInit F) : Prop where
  modelPath : p.modelPath = utf8 r.modelPath
  inputWidth : p.inputWidth = r.inputWidth
  inputHeight : p.inputHeight = r.inputHeight
  inputFormat : p.inputFormat = utf8 r.inputFormat
  frameShm : ∀ s, r.frameShm = some s → p.frameShm = utf8 s
  frameShmGiven : p.frameShm ≠ [] ↔ r.frameShm.isSome
  frameShmBuffersGiven : p.frameShmBuffers ≠ 0 ↔ r.frameShmBuffers.isSome
  frameShmSizeGiven : p.frameShmSize ≠ 0 ↔ r.frameShmSize.isSome

/-- Nothing in the text is escaped when it is written. -/
def PlainText (s : String) : Prop := ∀ b ∈ utf8 s, Unescaped b

instance : DecidablePred PlainText := fun _ => inferInstanceAs (Decidable (∀ _ ∈ _, _))

/-- The requests that come through: plain texts, finite thresholds, and no field of the
segment that looks as if it was left out. -/
structure InitRequest.Survives {F : Type} [JsonFloat F] (r : InitRequest F) (c : Casts F) :
    Prop where
  modelPath : PlainText r.modelPath
  inputFormat : PlainText r.inputFormat
  confidenceThreshold : JsonFloat.isFinite r.confidenceThreshold = true
  nmsThreshold : JsonFloat.isFinite r.nmsThreshold = true
  frameShm : ∀ s, r.frameShm = some s → PlainText s ∧ s ≠ ""
  frameShmBuffers : r.frameShmBuffers ≠ some 0
  frameShmSize : ∀ n, r.frameShmSize = some n → n ≠ 0 ∧
    (Strtod.nearest n.toNat < 2 ^ 64 ∨ c.beyondU64 (Strtod.nearest n.toNat) ≠ 0)

theorem cut_eq_iff {s : String} : cut s = utf8 s ↔ PlainText s := takeWhile_escape_eq_iff _

theorem floor_natCast_toNat (n : ℕ) : ⌊(n : ℚ)⌋.toNat = n := by simp

theorem Casts.u32_nearest {F : Type} (c : Casts F) (n : UInt32) :
    c.u32 (Strtod.nearest n.toNat) = n := by
  have hlt : n.toNat < 2 ^ 32 := n.toNat_lt
  have hrange : -1 < (n.toNat : ℚ) ∧ (n.toNat : ℚ) < 2 ^ 32 := by
    constructor
    · have hnonneg : (0 : ℚ) ≤ n.toNat := Nat.cast_nonneg _
      linarith
    · exact_mod_cast hlt
  rw [Strtod.nearest_natCast (by omega), u32, if_pos hrange, floor_natCast_toNat,
    UInt32.ofNat_toNat]

/-- Where the cast of a size is in range, it is zero for zero alone. -/
theorem Casts.u64_nearest {F : Type} (c : Casts F) (n : UInt64) :
    c.u64 (Strtod.nearest n.toNat) ≠ 0 ↔ n ≠ 0 ∧
      (Strtod.nearest n.toNat < 2 ^ 64 ∨ c.beyondU64 (Strtod.nearest n.toNat) ≠ 0) := by
  by_cases hn : n = 0
  · subst hn
    have hzero : Strtod.nearest ((0 : UInt64).toNat : ℚ) = ((0 : UInt64).toNat : ℚ) :=
      Strtod.nearest_natCast (by decide)
    rw [hzero]
    simp [u64]
  have hne : n.toNat ≠ 0 := by
    intro h
    apply hn
    rw [← UInt64.ofNat_toNat (x := n), h]
    rfl
  have hone := (Strtod.toDouble_natCast n.toNat_lt).2 hne
  generalize Strtod.nearest n.toNat = x at hone ⊢
  have hlow : -1 < x := by linarith
  by_cases hx : x < 2 ^ 64
  · have hfloor : 1 ≤ ⌊x⌋ := Int.le_floor.mpr (by exact_mod_cast hone)
    have hfloor' : ⌊x⌋ < 2 ^ 64 := Int.floor_lt.mpr (by exact_mod_cast hx)
    have hcast : UInt64.ofNat ⌊x⌋.toNat ≠ 0 := by
      intro h
      have hnat := congrArg UInt64.toNat h
      rw [UInt64.toNat_ofNat'] at hnat
      change ⌊x⌋.toNat % 2 ^ 64 = 0 at hnat
      omega
    simp [u64, hlow, hx, hn, hcast]
  · simp [u64, hx, hn]

section
variable {F : Type} [BoundedFloat F]

namespace InitRequest

theorem findString_serialize (r : InitRequest F) {key s : String}
    (h : (key, Doc.string s) ∈ r.fields) : findString (toVec r.serialize) key = some (cut s) :=
  findString_of_mem r.searchable h

theorem findNumber_serialize (c : Casts F) (r : InitRequest F) {key : String} {n : UInt32}
    (h : (key, writeU32 n) ∈ r.fields) :
    (findNumber (toVec r.serialize) key).map c.u32 = some n := by
  have hlt : n.toNat < 2 ^ 64 := Nat.lt_trans n.toNat_lt (by decide)
  have hfind : findNumber (toVec r.serialize) key = some (Strtod.nearest n.toNat) :=
    findNumber_nat r.searchable hlt h
  rw [hfind, Option.map_some, c.u32_nearest]

theorem frameShm_serialize (r : InitRequest F) :
    (findString (toVec r.serialize) "frame_shm").getD [] = (r.frameShm.map cut).getD [] := by
  cases hr : r.frameShm with
  | none =>
    have hfind : findString (toVec r.serialize) "frame_shm" = none := by
      refine findString_of_not_mem r.searchable (isKey_of_mem_initKeys _ (by simp [initKeys])) ?_
      cases r.frameShmBuffers <;> cases r.frameShmSize <;>
        simp [InitRequest.fields, skipNone, hr]
    rw [hfind]
    rfl
  | some s =>
    rw [r.findString_serialize (s := s) (by simp [InitRequest.fields, skipNone, hr])]
    rfl

theorem frameShmBuffers_serialize (c : Casts F) (r : InitRequest F) :
    ((findNumber (toVec r.serialize) "frame_shm_buffers").map c.u32).getD 0 =
      r.frameShmBuffers.getD 0 := by
  cases hr : r.frameShmBuffers with
  | none =>
    have hfind : findNumber (toVec r.serialize) "frame_shm_buffers" = none := by
      refine findNumber_of_not_mem r.searchable (isKey_of_mem_initKeys _ (by simp [initKeys])) ?_
      cases r.frameShm <;> cases r.frameShmSize <;> simp [InitRequest.fields, skipNone, hr]
    rw [hfind]
    rfl
  | some n =>
    rw [r.findNumber_serialize c (n := n) (by simp [InitRequest.fields, skipNone, hr]),
      Option.getD_some]

theorem frameShmSize_serialize (c : Casts F) (r : InitRequest F) :
    ((findNumber (toVec r.serialize) "frame_shm_size").map c.u64).getD 0 =
      (r.frameShmSize.map fun n => c.u64 (Strtod.nearest n.toNat)).getD 0 := by
  cases hr : r.frameShmSize with
  | none =>
    have hfind : findNumber (toVec r.serialize) "frame_shm_size" = none := by
      refine findNumber_of_not_mem r.searchable (isKey_of_mem_initKeys _ (by simp [initKeys])) ?_
      cases r.frameShm <;> cases r.frameShmBuffers <;> simp [InitRequest.fields, skipNone, hr]
    rw [hfind]
    rfl
  | some n =>
    have hmem : ("frame_shm_size", writeU64 n) ∈ r.fields := by
      simp [InitRequest.fields, skipNone, hr]
    have hfind : findNumber (toVec r.serialize) "frame_shm_size" =
        some (Strtod.nearest n.toNat) := findNumber_nat r.searchable n.toNat_lt hmem
    rw [hfind]
    rfl

end InitRequest

/-- The searches, one after the other, on a request of the client. -/
theorem parseInitRequest_serialize (c : Casts F) (r : InitRequest F) (p : ParsedInit F) :
    parseInitRequest c (toVec r.serialize) = some p ↔
      ∃ x y, findNumber (toVec r.serialize) "confidence_threshold" = some x ∧
        findNumber (toVec r.serialize) "nms_threshold" = some y ∧
        p = ⟨cut r.modelPath, r.inputWidth, r.inputHeight, cut r.inputFormat, c.float x,
          c.float y, (r.frameShm.map cut).getD [], r.frameShmBuffers.getD 0,
          (r.frameShmSize.map fun n => c.u64 (Strtod.nearest n.toNat)).getD 0⟩ := by
  have hpath : findString (toVec r.serialize) "model_path" = some (cut r.modelPath) :=
    r.findString_serialize (by simp [InitRequest.fields])
  have hformat : findString (toVec r.serialize) "input_format" = some (cut r.inputFormat) :=
    r.findString_serialize (by simp [InitRequest.fields])
  have hwidth : (findNumber (toVec r.serialize) "input_width").map c.u32 = some r.inputWidth :=
    r.findNumber_serialize c (by simp [InitRequest.fields])
  have hheight : (findNumber (toVec r.serialize) "input_height").map c.u32 =
      some r.inputHeight := r.findNumber_serialize c (by simp [InitRequest.fields])
  unfold parseInitRequest
  rw [hpath, hformat, hwidth, hheight, r.frameShm_serialize, r.frameShmBuffers_serialize c,
    r.frameShmSize_serialize c]
  simp only [Option.bind_eq_bind, Option.bind_some, Option.bind_eq_some_iff,
    Option.map_eq_some_iff, Option.some.injEq]
  constructor
  · rintro ⟨_, ⟨x, hx, rfl⟩, _, ⟨y, hy, rfl⟩, rfl⟩
    exact ⟨x, y, hx, hy, rfl⟩
  · rintro ⟨x, y, hx, hy, rfl⟩
    exact ⟨_, ⟨x, hx, rfl⟩, _, ⟨y, hy, rfl⟩, rfl⟩

/-- A path that is left out and one that is empty look alike. -/
theorem frameShm_recovered_iff (x : Option String) :
    ((∀ s, x = some s → (x.map cut).getD [] = utf8 s) ∧
        ((x.map cut).getD [] ≠ [] ↔ x.isSome)) ↔
      ∀ s, x = some s → PlainText s ∧ s ≠ "" := by
  cases x with
  | none => simp
  | some s =>
    simp only [Option.map_some, Option.getD_some, Option.some.injEq, forall_eq',
      Option.isSome_some, iff_true, cut_eq_iff]
    apply and_congr_right
    intro hplain
    rw [cut_eq_iff.mpr hplain]
    have hempty : utf8 "" = [] := by decide
    rw [← hempty, utf8_injective.ne_iff]

theorem InitRequest.recovered_iff (c : Casts F) (r : InitRequest F) :
    (∃ p, parseInitRequest c (toVec r.serialize) = some p ∧ r.Recovered p) ↔ r.Survives c := by
  have hconfidence : (findNumber (toVec r.serialize) "confidence_threshold").isSome ↔
      JsonFloat.isFinite r.confidenceThreshold = true :=
    findNumber_float r.searchable (by simp [fields])
  have hnms : (findNumber (toVec r.serialize) "nms_threshold").isSome ↔
      JsonFloat.isFinite r.nmsThreshold = true :=
    findNumber_float r.searchable (by simp [fields])
  -- the bridge reads no count and a count of 0 alike
  have hbuffers : (r.frameShmBuffers.getD 0 ≠ 0 ↔ r.frameShmBuffers.isSome) ↔
      r.frameShmBuffers ≠ some 0 := by
    cases r.frameShmBuffers <;> simp
  have hsize : ((r.frameShmSize.map fun n => c.u64 (Strtod.nearest n.toNat)).getD 0 ≠ 0 ↔
      r.frameShmSize.isSome) ↔ ∀ n, r.frameShmSize = some n → n ≠ 0 ∧
        (Strtod.nearest n.toNat < 2 ^ 64 ∨ c.beyondU64 (Strtod.nearest n.toNat) ≠ 0) := by
    cases r.frameShmSize with
    | none => simp
    | some n =>
      simp only [Option.map_some, Option.getD_some, Option.isSome_some, iff_true,
        Option.some.injEq, forall_eq', c.u64_nearest]
  simp only [parseInitRequest_serialize]
  constructor
  · rintro ⟨p, ⟨x, y, hx, hy, rfl⟩, h⟩
    exact {
      modelPath := cut_eq_iff.mp h.modelPath
      inputFormat := cut_eq_iff.mp h.inputFormat
      confidenceThreshold := hconfidence.mp (by simp [hx])
      nmsThreshold := hnms.mp (by simp [hy])
      frameShm := (frameShm_recovered_iff _).mp ⟨h.frameShm, h.frameShmGiven⟩
      frameShmBuffers := hbuffers.mp h.frameShmBuffersGiven
      frameShmSize := hsize.mp h.frameShmSizeGiven }
  · intro h
    obtain ⟨x, hx⟩ := Option.isSome_iff_exists.mp (hconfidence.mpr h.confidenceThreshold)
    obtain ⟨y, hy⟩ := Option.isSome_iff_exists.mp (hnms.mpr h.nmsThreshold)
    obtain ⟨hshm, hgiven⟩ := (frameShm_recovered_iff _).mpr h.frameShm
    refine ⟨_, ⟨x, y, hx, hy, rfl⟩, ?_⟩
    exact {
      modelPath := cut_eq_iff.mpr h.modelPath
      inputWidth := rfl
      inputHeight := rfl
      inputFormat := cut_eq_iff.mpr h.inputFormat
      frameShm := hshm
      frameShmGiven := hgiven
      frameShmBuffersGiven := hbuffers.mpr h.frameShmBuffers
      frameShmSizeGiven := hsize.mpr h.frameShmSize }

end

end AutoTargeting.Ipc
