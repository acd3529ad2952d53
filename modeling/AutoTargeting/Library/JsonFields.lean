import AutoTargeting.Library.JsonReading

namespace Json

def Doc.null : Doc := .scalar [110, 117, 108, 108]

def Doc.bool (b : Bool) : Doc :=
  .scalar (if b then [116, 114, 117, 101] else [102, 97, 108, 115, 101])

def Doc.number (n : Numeral) : Doc := .scalar n.token

def Doc.int (k : ℤ) : Doc := .number (.ofInt k)

def Doc.string (s : String) : Doc := .quoted (escape escapeByte (utf8 s))

def Doc.struct (fields : List (String × Doc)) : Doc :=
  .object (fields.map fun f => (escape escapeByte (utf8 f.1), f.2))

theorem readScalar_numeral (n : Numeral) : readScalar n.token = some (.number n) := by
  have hword : ∀ word : Bytes, isNumeral word = false → n.token ≠ word := by
    rintro word hw rfl
    simp [n.wf] at hw
  rw [readScalar, if_neg (hword _ (by decide)), if_neg (hword _ (by decide)),
    if_neg (hword _ (by decide)), dif_pos n.wf]

section
variable (limit : ℕ)

@[simp]
theorem read_null : Doc.null.read limit = some .null := by cases limit <;> rfl

@[simp]
theorem read_bool (b : Bool) : (Doc.bool b).read limit = some (.bool b) := by
  cases limit <;> cases b <;> rfl

@[simp]
theorem read_number (n : Numeral) : (Doc.number n).read limit = some (.number n) := by
  rw [Doc.number, Doc.read, readScalar_numeral]

@[simp]
theorem read_int (k : ℤ) : (Doc.int k).read limit = some (.number (.ofInt k)) :=
  read_number limit _

@[simp]
theorem read_string (s : String) : (Doc.string s).read limit = some (.string s) := by
  rw [Doc.string, Doc.read, readString_escape, Option.map_some]

/-- The fields that a reader finds in a structure. -/
def readStruct : List (String × Doc) → Option (List (String × Value))
  | [] => some []
  | f :: fs => do
    let v ← f.2.read limit
    let vs ← readStruct fs
    some ((f.1, v) :: vs)

@[simp]
theorem read_struct (fields : List (String × Doc)) :
    (Doc.struct fields).read (limit + 1) = (readStruct limit fields).map .object := by
  have hfields : readFields limit (fields.map fun f => (escape escapeByte (utf8 f.1), f.2)) =
      readStruct limit fields := by
    induction fields with
    | nil => rfl
    | cons f fs ih =>
      rw [List.map_cons, readFields, readString_escape, ih]
      rfl
  rw [Doc.struct, Doc.read, hfields]

end

theorem isDelimiter_of_numeralByte {b : UInt8} (h : isNumeralByte b = true) :
    isDelimiter b = false := by
  rw [← Bool.not_eq_true]
  intro hb
  have hcases : b ∈ [32, 9, 10, 13, 34, 44, 58, 91, 93, 123, 125] := by
    simpa [isDelimiter, isSpace, quote, comma, colon, openBracket, closeBracket, openBrace,
      closeBrace, or_assoc] using hb
  have hnone : ([32, 9, 10, 13, 34, 44, 58, 91, 93, 123, 125] : Bytes).all (!isNumeralByte ·) =
      true := by decide
  have hbyte := List.all_eq_true.mp hnone b hcases
  simp [h] at hbyte

@[simp]
theorem wellFormed_number (n : Numeral) : (Doc.number n).WellFormed := by
  obtain ⟨hne, hbytes⟩ := isNumeral_bytes n.wf
  exact ⟨hne, fun b hb => isDelimiter_of_numeralByte (List.all_eq_true.mp hbytes b hb)⟩

@[simp]
theorem wellFormed_int (k : ℤ) : (Doc.int k).WellFormed := wellFormed_number _

theorem wellFormed_token {token : Bytes} (h : token ≠ [])
    (hbytes : token.all (!isDelimiter ·) = true) : (Doc.scalar token).WellFormed :=
  ⟨h, fun b hb => by simpa using List.all_eq_true.mp hbytes b hb⟩

@[simp]
theorem wellFormed_null : Doc.null.WellFormed := wellFormed_token (by decide) (by decide)

@[simp]
theorem wellFormed_bool (b : Bool) : (Doc.bool b).WellFormed := by
  cases b
  · exact wellFormed_token (by decide) (by decide)
  · exact wellFormed_token (by decide) (by decide)

@[simp]
theorem wellFormed_string (s : String) : (Doc.string s).WellFormed := closed_escape _

@[simp]
theorem wellFormed_struct (fields : List (String × Doc)) :
    (Doc.struct fields).WellFormed ↔ ∀ f ∈ fields, f.2.WellFormed := by
  change WellFormedFields _ ↔ _
  induction fields with
  | nil => simp [WellFormedFields]
  | cons f fs ih => simp [WellFormedFields, closed_escape, ih]

@[simp]
theorem wellFormed_array (items : List Doc) :
    (Doc.array items).WellFormed ↔ ∀ d ∈ items, d.WellFormed := by
  change WellFormedItems _ ↔ _
  induction items with
  | nil => simp [WellFormedItems]
  | cons d ds ih => simp [WellFormedItems, ih]

mutual

def Value.doc : Value → Doc
  | .null => .null
  | .bool b => .bool b
  | .number n => .number n
  | .string s => .string s
  | .array vs => .array (docItems vs)
  | .object fs => .struct (docFields fs)

def docItems : List Value → List Doc
  | [] => []
  | v :: vs => v.doc :: docItems vs

def docFields : List (String × Value) → List (String × Doc)
  | [] => []
  | (k, v) :: fs => (k, v.doc) :: docFields fs

end

mutual

theorem wellFormed_doc : ∀ v : Value, v.doc.WellFormed
  | .null => wellFormed_null
  | .bool b => wellFormed_bool b
  | .number n => wellFormed_number n
  | .string s => wellFormed_string s
  | .array vs => (wellFormed_array _).mpr (wellFormed_docItems vs)
  | .object fs => (wellFormed_struct _).mpr (wellFormed_docFields fs)

theorem wellFormed_docItems : ∀ (vs : List Value), ∀ d ∈ docItems vs, d.WellFormed
  | [], _, h => by simp [docItems] at h
  | v :: vs, d, h => by
    rw [docItems, List.mem_cons] at h
    exact h.elim (fun h => h ▸ wellFormed_doc v) (wellFormed_docItems vs d)

theorem wellFormed_docFields : ∀ (fs : List (String × Value)), ∀ f ∈ docFields fs, f.2.WellFormed
  | [], _, h => by simp [docFields] at h
  | (k, v) :: fs, f, h => by
    rw [docFields, List.mem_cons] at h
    exact h.elim (fun h => h ▸ wellFormed_doc v) (wellFormed_docFields fs f)

end

/-- The order of the keys of a map: by their bytes. -/
def keyBefore : Bytes → Bytes → Bool
  | _, [] => false
  | [], _ :: _ => true
  | a :: s, b :: t => a.toNat < b.toNat || (a == b && keyBefore s t)

/-- A field in front of a map; of two fields under one key the later one counts. -/
def insertField (k : String) (v : Value) : List (String × Value) → List (String × Value)
  | [] => [(k, v)]
  | (k', v') :: fs =>
    if keyBefore (utf8 k) (utf8 k') then (k, v) :: (k', v') :: fs
    else if k = k' then (k', v') :: fs
    else (k', v') :: insertField k v fs

mutual

def Value.toMap : Value → Value
  | .null => .null
  | .bool b => .bool b
  | .number n => .number n
  | .string s => .string s
  | .array vs => .array (toMapItems vs)
  | .object fs => .object (toMapFields fs)

def toMapItems : List Value → List Value
  | [] => []
  | v :: vs => v.toMap :: toMapItems vs

def toMapFields : List (String × Value) → List (String × Value)
  | [] => []
  | (k, v) :: fs => insertField k v.toMap (toMapFields fs)

end

namespace Value

variable {α : Type}

/-- An unsigned integer below a bound. -/
def nat (bound : ℕ) : Value → Option ℕ
  | .number n => n.toInt?.bind fun k => if 0 ≤ k ∧ k < bound then some k.toNat else none
  | _ => none

def i64 : Value → Option ℤ
  | .number n => n.toInt?.bind fun k => if -2 ^ 63 ≤ k ∧ k < 2 ^ 63 then some k else none
  | _ => none

def text : Value → Option String
  | .string s => some s
  | _ => none

def flag : Value → Option Bool
  | .bool b => some b
  | _ => none

def items : Value → Option (List Value)
  | .array vs => some vs
  | _ => none

def fields : Value → Option (List (String × Value))
  | .object fs => some fs
  | _ => none

/-- The values under a name. -/
def under (name : String) (fs : List (String × Value)) : List Value :=
  (fs.filter fun f => f.1 = name).map (·.2)

def required (name : String) (decode : Value → Option α) (fs : List (String × Value)) : Option α :=
  match under name fs with
  | [v] => decode v
  | _ => none

/-- A field with a default. -/
def optional (name : String) (default : α) (decode : Value → Option α)
    (fs : List (String × Value)) : Option α :=
  match under name fs with
  | [] => some default
  | [v] => decode v
  | _ => none

theorem nat_ofInt {bound n : ℕ} (h : n < bound) :
    nat bound (.number (.ofInt n)) = some n := by
  have hn : (0 : ℤ) ≤ n ∧ (n : ℤ) < bound := by omega
  simp [nat, hn]

theorem i64_ofInt {k : ℤ} (h : -2 ^ 63 ≤ k ∧ k < 2 ^ 63) : i64 (.number (.ofInt k)) = some k := by
  simp only [i64, Numeral.toInt?_ofInt, Option.bind_some, if_pos h]

end Value

end Json
