import AutoTargeting.Library.JsonText
import Mathlib.Data.List.TakeWhile

namespace Json

def isDigit (b : UInt8) : Bool := decide (48 ≤ b.toNat ∧ b.toNat ≤ 57)

def digitsThen (rest : Bytes → Bool) : Bytes → Bool
  | [] => false
  | b :: s => isDigit b && rest (s.dropWhile isDigit)

def unsigned : Bytes → Bytes
  | [] => []
  | b :: s => if b = 45 then s else b :: s

def isExponent : Bytes → Bool
  | [] => true
  | b :: s => (b == 69 || b == 101) &&
    digitsThen List.isEmpty (match s with
      | [] => []
      | sign :: s => if sign = 43 ∨ sign = 45 then s else sign :: s)

def isFraction : Bytes → Bool
  | [] => true
  | b :: s => if b = 46 then digitsThen isExponent s else isExponent (b :: s)

def isNumeral (s : Bytes) : Bool :=
  match unsigned s with
  | [] => false
  | b :: s => if b = 48 then isFraction s else isDigit b && isFraction (s.dropWhile isDigit)

structure Numeral where
  token : Bytes
  wf : isNumeral token = true
  deriving DecidableEq

def decimal (n : ℕ) : Bytes :=
  if n = 0 then [48] else ((Nat.digits 10 n).map fun d => UInt8.ofNat (48 + d)).reverse

def decimalInt : ℤ → Bytes
  | .ofNat n => decimal n
  | .negSucc n => 45 :: decimal (n + 1)

def ofDecimal (s : Bytes) : ℕ := s.foldl (fun acc b => acc * 10 + (b.toNat - 48)) 0

/-- The integer of a numeral without fraction and exponent; `-0` is no integer. -/
def Numeral.toInt? (n : Numeral) : Option ℤ :=
  match n.token with
  | [] => none
  | b :: s =>
    if b = 45 then if s.all isDigit ∧ s ≠ [48] then some (-ofDecimal s) else none
    else if (b :: s).all isDigit then some (ofDecimal (b :: s)) else none

theorem toNat_digit {d : ℕ} (h : d < 10) : (UInt8.ofNat (48 + d)).toNat = 48 + d := by
  rw [UInt8.toNat_ofNat']
  omega

theorem ofDecimal_decimal (n : ℕ) : ofDecimal (decimal n) = n := by
  unfold decimal
  split
  · simp_all [ofDecimal]
  · have hdigits : ∀ d ∈ Nat.digits 10 n, d < 10 := fun d hd => Nat.digits_lt_base (by decide) hd
    have hfold : ∀ l : List ℕ, (∀ d ∈ l, d < 10) →
        (l.map fun d => UInt8.ofNat (48 + d)).foldr (fun b acc => acc * 10 + (b.toNat - 48)) 0 =
          Nat.ofDigits 10 l := by
      intro l hl
      induction l with
      | nil => rfl
      | cons d l ih =>
        have hd := toNat_digit (hl d (by simp))
        have hrest := ih fun d hd => hl d (by simp [hd])
        rw [List.map_cons, List.foldr_cons, hrest, hd, Nat.ofDigits_cons]
        omega
    rw [ofDecimal, List.foldl_reverse, hfold _ hdigits, Nat.ofDigits_digits]

theorem isDigit_of_mem_decimal {n : ℕ} {b : UInt8} (h : b ∈ decimal n) : isDigit b = true := by
  unfold decimal at h
  split at h
  · simp_all [isDigit]
  · simp only [List.mem_reverse, List.mem_map] at h
    obtain ⟨d, hd, rfl⟩ := h
    have hlt : d < 10 := Nat.digits_lt_base (by decide) hd
    simp only [isDigit, toNat_digit hlt, decide_eq_true_eq]
    omega

theorem dropWhile_isDigit_eq_nil {s : Bytes} (h : ∀ b ∈ s, isDigit b = true) :
    s.dropWhile isDigit = [] := List.dropWhile_eq_nil_iff.mpr h

/-- The digits of a number start with a digit that is not zero, or are a zero. -/
theorem decimal_eq_cons (n : ℕ) :
    ∃ b s, decimal n = b :: s ∧ isDigit b = true ∧ (b = 48 → s = []) := by
  by_cases hn : n = 0
  · exact ⟨48, [], by simp [decimal, hn], by decide, fun _ => rfl⟩
  · have hne : Nat.digits 10 n ≠ [] := Nat.digits_ne_nil_iff_ne_zero.mpr hn
    have hlast := Nat.getLast_digit_ne_zero 10 hn
    have hlt : (Nat.digits 10 n).getLast hne < 10 :=
      Nat.digits_lt_base (by decide) (List.getLast_mem hne)
    have hdecimal : decimal n = UInt8.ofNat (48 + (Nat.digits 10 n).getLast hne) ::
        ((Nat.digits 10 n).dropLast.map fun d => UInt8.ofNat (48 + d)).reverse := by
      rw [decimal, if_neg hn]
      conv_lhs => rw [← List.dropLast_append_getLast hne]
      simp
    refine ⟨_, _, hdecimal, ?_, fun h => ?_⟩
    · apply isDigit_of_mem_decimal (n := n)
      rw [hdecimal]
      simp
    · have hzero := congrArg UInt8.toNat h
      rw [toNat_digit hlt] at hzero
      exact absurd hzero (by simpa using hlast)

theorem isNumeral_decimal (n : ℕ) : isNumeral (decimal n) = true := by
  obtain ⟨b, s, hdecimal, hb, hzero⟩ := decimal_eq_cons n
  have hs : ∀ c ∈ s, isDigit c = true := fun c hc => isDigit_of_mem_decimal (n := n) (by simp [hdecimal, hc])
  have hsign : b ≠ 45 := by
    rintro rfl
    exact absurd hb (by decide)
  rw [hdecimal, isNumeral, unsigned, if_neg hsign]
  simp only [dropWhile_isDigit_eq_nil hs, hb]
  split
  · rw [hzero ‹_›]
    rfl
  · rfl

theorem isNumeral_neg {s : Bytes} (h : isNumeral s = true) (hs : s.head? ≠ some 45) :
    isNumeral (45 :: s) = true := by
  have hsign : unsigned s = s := by
    cases s with
    | nil => rfl
    | cons b s =>
      have hb : b ≠ 45 := by simpa using hs
      rw [unsigned, if_neg hb]
  rw [isNumeral, hsign] at h
  rw [isNumeral, unsigned, if_pos rfl]
  exact h

theorem head?_decimal (n : ℕ) : (decimal n).head? ≠ some 45 := by
  obtain ⟨b, s, hdecimal, hb, -⟩ := decimal_eq_cons n
  rw [hdecimal, List.head?_cons]
  rintro ⟨⟩
  exact absurd hb (by decide)

theorem isNumeral_decimalInt (k : ℤ) : isNumeral (decimalInt k) = true := by
  cases k with
  | ofNat n => exact isNumeral_decimal n
  | negSucc n => exact isNumeral_neg (isNumeral_decimal _) (head?_decimal _)

def Numeral.ofInt (k : ℤ) : Numeral := ⟨decimalInt k, isNumeral_decimalInt k⟩

theorem decimal_ne_zero {n : ℕ} (h : n ≠ 0) : decimal n ≠ [48] := by
  intro hz
  have hval := ofDecimal_decimal n
  rw [hz] at hval
  exact h (by simpa [ofDecimal] using hval.symm)

@[simp]
theorem Numeral.toInt?_ofInt (k : ℤ) : (Numeral.ofInt k).toInt? = some k := by
  have hdigits : ∀ n, (decimal n).all isDigit = true := fun n =>
    List.all_eq_true.mpr fun b hb => isDigit_of_mem_decimal hb
  cases k with
  | ofNat n =>
    obtain ⟨b, s, hdecimal, hb, -⟩ := decimal_eq_cons n
    have hsign : b ≠ 45 := by
      rintro rfl
      exact absurd hb (by decide)
    have hall := hdigits n
    have hval := ofDecimal_decimal n
    rw [hdecimal] at hall hval
    simp only [toInt?, ofInt, decimalInt, hdecimal, if_neg hsign, hall, hval, if_true]
    rfl
  | negSucc n =>
    have hne := decimal_ne_zero (Nat.succ_ne_zero n)
    simp only [toInt?, ofInt, decimalInt, if_true]
    rw [if_pos ⟨hdigits _, hne⟩, ofDecimal_decimal]
    rfl

def isNumeralByte (b : UInt8) : Bool := isDigit b || [43, 45, 46, 69, 101].contains b

theorem isNumeralByte_of_isDigit {b : UInt8} (h : isDigit b = true) : isNumeralByte b = true := by
  simp [isNumeralByte, h]

theorem mem_dropWhile_or {b : UInt8} {s : Bytes} (h : b ∈ s) :
    isDigit b = true ∨ b ∈ s.dropWhile isDigit := by
  rw [← List.takeWhile_append_dropWhile (p := isDigit) (l := s), List.mem_append] at h
  exact h.imp_left fun h => List.mem_takeWhile_imp h

theorem digitsThen_bytes {rest : Bytes → Bool} (hrest : ∀ s, rest s = true → s.all isNumeralByte)
    {s : Bytes} (h : digitsThen rest s = true) : s.all isNumeralByte := by
  cases s with
  | nil => rfl
  | cons b s =>
    simp only [digitsThen, Bool.and_eq_true] at h
    have htail := List.all_eq_true.mp (hrest _ h.2)
    have hs : s.all isNumeralByte = true := List.all_eq_true.mpr fun c hc =>
      (mem_dropWhile_or hc).elim isNumeralByte_of_isDigit (htail c)
    simp [isNumeralByte_of_isDigit h.1, hs]

theorem isExponent_bytes : ∀ s, isExponent s = true → s.all isNumeralByte
  | [], _ => rfl
  | b :: s, h => by
    simp only [isExponent, Bool.and_eq_true] at h
    have hb : isNumeralByte b = true := by
      have hcases : b = 69 ∨ b = 101 := by simpa using h.1
      rcases hcases with rfl | rfl <;> decide
    have hdigits := digitsThen_bytes (fun s hs => by simp_all) h.2
    cases s with
    | nil => simp [hb]
    | cons sign s =>
      simp only at hdigits
      split at hdigits
      · have hsign : isNumeralByte sign = true := by
          rcases ‹sign = 43 ∨ sign = 45› with rfl | rfl <;> decide
        simp [hb, hsign, hdigits]
      · simp [hb, hdigits]

theorem isFraction_bytes : ∀ s, isFraction s = true → s.all isNumeralByte
  | [], _ => rfl
  | b :: s, h => by
    rw [isFraction] at h
    split at h
    · subst b
      have hdigits := digitsThen_bytes isExponent_bytes h
      exact List.all_cons ▸ Bool.and_eq_true_iff.mpr ⟨by decide, hdigits⟩
    · exact isExponent_bytes _ h

theorem isNumeral_bytes {s : Bytes} (h : isNumeral s = true) : s ≠ [] ∧ s.all isNumeralByte := by
  have hunsigned : (unsigned s).all isNumeralByte ∧ unsigned s ≠ [] := by
    rw [isNumeral] at h
    cases hu : unsigned s with
    | nil => simp [hu] at h
    | cons b t =>
      rw [hu] at h
      simp only at h
      refine ⟨?_, by simp⟩
      split at h
      · subst b
        have ht := isFraction_bytes _ h
        exact List.all_cons ▸ Bool.and_eq_true_iff.mpr ⟨by decide, ht⟩
      · simp only [Bool.and_eq_true] at h
        have htail := List.all_eq_true.mp (isFraction_bytes _ h.2)
        have ht : t.all isNumeralByte = true := List.all_eq_true.mpr fun c hc =>
          (mem_dropWhile_or hc).elim isNumeralByte_of_isDigit (htail c)
        simp [isNumeralByte_of_isDigit h.1, ht]
  cases s with
  | nil => simp [unsigned] at hunsigned
  | cons b s =>
    refine ⟨by simp, ?_⟩
    rw [unsigned] at hunsigned
    split at hunsigned
    · subst b
      exact List.all_cons ▸ Bool.and_eq_true_iff.mpr ⟨by decide, hunsigned.1⟩
    · exact hunsigned.1

end Json
