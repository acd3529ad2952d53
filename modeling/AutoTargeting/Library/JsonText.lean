import Mathlib.Data.Nat.Digits.Lemmas
import Mathlib.Data.List.Basic

namespace Json

abbrev Bytes := List UInt8

/-- The UTF-8 bytes of a string. -/
def utf8 (s : String) : Bytes := s.toList.flatMap String.utf8EncodeChar

/-- The string with these UTF-8 bytes, if there is one. -/
def ofUtf8 (b : Bytes) : Option String := String.fromUTF8? b.toByteArray

theorem toByteArray_utf8 (s : String) : (utf8 s).toByteArray = s.toByteArray := by
  conv_rhs => rw [← String.ofList_toList (s := s)]
  rfl

@[simp]
theorem ofUtf8_utf8 (s : String) : ofUtf8 (utf8 s) = some s := by
  rw [ofUtf8, toByteArray_utf8, String.fromUTF8?, dif_pos s.isValidUTF8]
  rfl

theorem utf8_injective : Function.Injective utf8 := by
  intro s t h
  have hread := congrArg ofUtf8 h
  simpa using hread

def quote : UInt8 := 34
def backslash : UInt8 := 92

/-- The raw contents up to the closing quote, and what follows the quote. -/
def splitQuoted : Bytes → Option (Bytes × Bytes)
  | [] => none
  | c :: s =>
    if c = quote then some ([], s)
    else if c = backslash then
      match s with
      | [] => none
      | d :: s => (splitQuoted s).map fun p => (c :: d :: p.1, p.2)
    else (splitQuoted s).map fun p => (c :: p.1, p.2)

def hexDigit (n : ℕ) : UInt8 := UInt8.ofNat (if n < 10 then 48 + n else 87 + n)

def hexValue (b : UInt8) : Option ℕ :=
  let n := b.toNat
  if 48 ≤ n ∧ n ≤ 57 then some (n - 48)
  else if 97 ≤ n ∧ n ≤ 102 then some (n - 87)
  else if 65 ≤ n ∧ n ≤ 70 then some (n - 55)
  else none

/-- The 16 bits of four hexadecimal digits. -/
def hexUnit (a b c d : UInt8) : Option ℕ := do
  let a ← hexValue a
  let b ← hexValue b
  let c ← hexValue c
  let d ← hexValue d
  some (((a * 16 + b) * 16 + c) * 16 + d)

def simpleEscape (b : UInt8) : Option UInt8 :=
  match b.toNat with
  | 34 => some 34
  | 92 => some 92
  | 47 => some 47
  | 98 => some 8
  | 102 => some 12
  | 110 => some 10
  | 114 => some 13
  | 116 => some 9
  | _ => none

/-- The bytes that a raw string stands for. -/
def unescape : Bytes → Option Bytes
  | [] => some []
  | 92 :: 117 :: a :: b :: c :: d :: s =>
    match hexUnit a b c d with
    | none => none
    | some unit =>
      if 0xDC00 ≤ unit ∧ unit ≤ 0xDFFF then none
      else if 0xD800 ≤ unit ∧ unit ≤ 0xDBFF then
        -- the first half of a surrogate pair
        match s with
        | 92 :: 117 :: a :: b :: c :: d :: s =>
          match hexUnit a b c d with
          | none => none
          | some low =>
            if 0xDC00 ≤ low ∧ low ≤ 0xDFFF then
              let code := 0x10000 + (unit - 0xD800) * 1024 + (low - 0xDC00)
              (unescape s).map (String.utf8EncodeChar (Char.ofNat code) ++ ·)
            else none
        | _ => none
      else (unescape s).map (String.utf8EncodeChar (Char.ofNat unit) ++ ·)
  | c :: s =>
    if c = backslash then
      match s with
      | [] => none
      | d :: s =>
        match simpleEscape d with
        | none => none
        | some b => (unescape s).map (b :: ·)
    else if c < 32 then none
    else (unescape s).map (c :: ·)

def readString (raw : Bytes) : Option String := (unescape raw).bind ofUtf8

def escape (e : UInt8 → Bytes) (s : Bytes) : Bytes := s.flatMap e

def escapeByte (b : UInt8) : Bytes :=
  match b.toNat with
  | 34 => [92, 34]
  | 92 => [92, 92]
  | 8 => [92, 98]
  | 9 => [92, 116]
  | 10 => [92, 110]
  | 12 => [92, 102]
  | 13 => [92, 114]
  | n => if n < 32 then [92, 117, 48, 48, hexDigit (n / 16), hexDigit (n % 16)] else [b]

/-- The reader takes the byte back out of its escape. -/
def Reads (e : UInt8 → Bytes) (b : UInt8) : Prop :=
  ∀ s, unescape (e b ++ s) = (unescape s).map (b :: ·)

/-- The reader refuses the escape of the byte. -/
def Fails (e : UInt8 → Bytes) (b : UInt8) : Prop := ∀ s, unescape (e b ++ s) = none

/-- The closing quote is behind these raw contents. -/
def Closed (raw : Bytes) : Prop :=
  ∀ s, splitQuoted (raw ++ s) = (splitQuoted s).map fun p => (raw ++ p.1, p.2)

variable {e : UInt8 → Bytes} {s : Bytes}

theorem unescape_escape (h : ∀ b ∈ s, Reads e b) : unescape (escape e s) = some s := by
  induction s with
  | nil => rfl
  | cons b s ih =>
    have hs : unescape (escape e s) = some s := ih fun c hc => h c (by simp [hc])
    have hb : unescape (e b ++ escape e s) = some (b :: s) := by
      rw [h b (by simp) (escape e s), hs, Option.map_some]
    simpa [escape] using hb

theorem unescape_escape_eq_none (h : ∀ b, Reads e b ∨ Fails e b) (hs : ∃ b ∈ s, Fails e b) :
    unescape (escape e s) = none := by
  induction s with
  | nil => simp at hs
  | cons b s ih =>
    have hb : unescape (e b ++ escape e s) = none := by
      cases h b with
      | inr hfails => exact hfails _
      | inl hreads =>
        rw [hreads (escape e s)]
        obtain ⟨c, hc, hfails⟩ := hs
        rcases List.mem_cons.mp hc with rfl | hc
        · rw [← hreads (escape e s), hfails (escape e s)]
        · rw [ih ⟨c, hc, hfails⟩, Option.map_none]
    simpa [escape] using hb

theorem Closed.nil : Closed [] := by
  intro s
  change splitQuoted s = (splitQuoted s).map id
  rw [Option.map_id_fun, id]

theorem Closed.append {raw raw' : Bytes} (h : Closed raw) (h' : Closed raw') :
    Closed (raw ++ raw') := by
  intro s
  rw [List.append_assoc, h, h', Option.map_map]
  congr 1
  funext p
  simp

theorem Closed.escape (h : ∀ b, Closed (e b)) (s : Bytes) : Closed (escape e s) := by
  induction s with
  | nil => exact Closed.nil
  | cons b s ih => simpa [Json.escape] using (h b).append ih

theorem splitQuoted_closed {raw : Bytes} (h : Closed raw) (s : Bytes) :
    splitQuoted (raw ++ quote :: s) = some (raw, s) := by
  rw [h, splitQuoted.eq_def]
  simp

theorem closed_singleton {b : UInt8} (hq : b ≠ quote) (hb : b ≠ backslash) : Closed [b] := by
  intro s
  change splitQuoted (b :: s) = _
  rw [splitQuoted.eq_def]
  simp [hq, hb]

theorem closed_pair (b : UInt8) : Closed [backslash, b] := by
  intro s
  simp [splitQuoted, backslash, quote]

theorem unescape_cons {b : UInt8} (hb : b ≠ backslash) (s : Bytes) :
    unescape (b :: s) = if b < 32 then none else (unescape s).map (b :: ·) := by
  have h92 : b ≠ 92 := hb
  rw [unescape.eq_def]
  split
  · simp_all
  · simp_all
  · rename_i hcons
    obtain ⟨rfl, rfl⟩ := List.cons.inj hcons
    rw [if_neg hb]

theorem unescape_pair {d : UInt8} (hd : d ≠ 117) (s : Bytes) :
    unescape (backslash :: d :: s) =
      (simpleEscape d).bind fun b => (unescape s).map (b :: ·) := by
  rw [unescape.eq_def]
  split
  · simp_all
  · simp_all
  · rename_i hcons
    obtain ⟨rfl, rfl⟩ := List.cons.inj hcons
    simp only [if_pos]
    cases simpleEscape d <;> rfl

theorem reads_of_pair {b d : UInt8} (h : e b = [backslash, d]) (hd : simpleEscape d = some b) :
    Reads e b := by
  intro s
  have hne : d ≠ 117 := by
    rintro rfl
    simp [simpleEscape] at hd
  rw [h]
  change unescape (backslash :: d :: s) = _
  rw [unescape_pair hne, hd, Option.bind_some]

theorem reads_of_self {b : UInt8} (h : e b = [b]) (hb : b ≠ backslash) (hc : ¬ b < 32) :
    Reads e b := by
  intro s
  rw [h]
  change unescape (b :: s) = _
  rw [unescape_cons hb, if_neg hc]

theorem hexUnit_control : ∀ n < 32, hexUnit 48 48 (hexDigit (n / 16)) (hexDigit (n % 16)) = some n := by
  decide

theorem utf8EncodeChar_control : ∀ n < 32, String.utf8EncodeChar (Char.ofNat n) = [UInt8.ofNat n] := by
  decide

theorem unescape_control {n : ℕ} (h : n < 32) (s : Bytes) :
    unescape (92 :: 117 :: 48 :: 48 :: hexDigit (n / 16) :: hexDigit (n % 16) :: s) =
      (unescape s).map (UInt8.ofNat n :: ·) := by
  rw [unescape]
  simp only [hexUnit_control n h, utf8EncodeChar_control n h]
  rw [if_neg (by omega), if_neg (by omega)]
  rfl

theorem escapeByte_cases (b : UInt8) :
    (∃ d, escapeByte b = [backslash, d] ∧ simpleEscape d = some b) ∨
      (b < 32 ∧ escapeByte b =
        [92, 117, 48, 48, hexDigit (b.toNat / 16), hexDigit (b.toNat % 16)]) ∨
      (b ≠ quote ∧ b ≠ backslash ∧ ¬ b < 32 ∧ escapeByte b = [b]) := by
  have hlt : b < 32 ↔ b.toNat < 32 := UInt8.lt_iff_toNat_lt
  have hof : ∀ n, b.toNat = n → b = UInt8.ofNat n := fun n h => by rw [← h, UInt8.ofNat_toNat]
  unfold escapeByte
  split
  · exact .inl ⟨34, rfl, by rw [hof 34 ‹_›]; rfl⟩
  · exact .inl ⟨92, rfl, by rw [hof 92 ‹_›]; rfl⟩
  · exact .inl ⟨98, rfl, by rw [hof 8 ‹_›]; rfl⟩
  · exact .inl ⟨116, rfl, by rw [hof 9 ‹_›]; rfl⟩
  · exact .inl ⟨110, rfl, by rw [hof 10 ‹_›]; rfl⟩
  · exact .inl ⟨102, rfl, by rw [hof 12 ‹_›]; rfl⟩
  · exact .inl ⟨114, rfl, by rw [hof 13 ‹_›]; rfl⟩
  · split
    · exact .inr (.inl ⟨hlt.mpr ‹_›, rfl⟩)
    · refine .inr (.inr ⟨?_, ?_, fun h => ‹¬ _› (hlt.mp h), rfl⟩) <;> rintro rfl <;> simp_all [quote, backslash]

theorem reads_escapeByte (b : UInt8) : Reads escapeByte b := by
  rcases escapeByte_cases b with ⟨d, h, hd⟩ | ⟨hlt, h⟩ | ⟨-, hb, hc, h⟩
  · exact reads_of_pair h hd
  · intro s
    rw [h]
    refine (unescape_control (UInt8.lt_iff_toNat_lt.mp hlt) s).trans ?_
    rw [UInt8.ofNat_toNat]
  · exact reads_of_self h hb hc

theorem closed_escapeByte (b : UInt8) : Closed (escapeByte b) := by
  rcases escapeByte_cases b with ⟨d, h, -⟩ | ⟨hlt, h⟩ | ⟨hq, hb, -, h⟩
  · rw [h]
    exact closed_pair d
  · have hdigits : ∀ n < 32, hexDigit (n / 16) ≠ quote ∧ hexDigit (n / 16) ≠ backslash ∧
        hexDigit (n % 16) ≠ quote ∧ hexDigit (n % 16) ≠ backslash := by decide
    obtain ⟨h1, h2, h3, h4⟩ := hdigits b.toNat (UInt8.lt_iff_toNat_lt.mp hlt)
    rw [h]
    have hzero : Closed [48] := closed_singleton (by decide) (by decide)
    exact (closed_pair 117).append (hzero.append (hzero.append
      ((closed_singleton h1 h2).append (closed_singleton h3 h4))))
  · rw [h]
    exact closed_singleton hq hb

theorem readString_escape (s : String) : readString (escape escapeByte (utf8 s)) = some s := by
  rw [readString, unescape_escape fun b _ => reads_escapeByte b, Option.bind_some, ofUtf8_utf8]

theorem closed_escape (s : Bytes) : Closed (escape escapeByte s) := Closed.escape closed_escapeByte s

end Json
