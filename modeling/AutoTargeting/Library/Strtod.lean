import AutoTargeting.Library.JsonNumber
import Mathlib.Algebra.Order.Field.Power
import Mathlib.Data.Int.Log
import Mathlib.Data.Rat.Floor
import Mathlib.Tactic.Linarith
import Mathlib.Tactic.NormNum
import Mathlib.Tactic.Positivity

-- A decimal number at the head of a text, as a `double`. Infinities, NaN and hexadecimal numbers,
-- which no JSON writer emits, are not read.

namespace Strtod

open Json

def isSpace (b : UInt8) : Bool := decide (b = 32 ∨ 9 ≤ b ∧ b ≤ 13)

/-- Whether there is a minus, and what follows the sign. -/
def splitSign : Bytes → Bool × Bytes
  | [] => (false, [])
  | b :: s => if b = 45 then (true, s) else if b = 43 then (false, s) else (false, b :: s)

/-- The exponent, which is 0 where no digits stand behind its letter. -/
def scanExponent : Bytes → ℤ
  | [] => 0
  | b :: s =>
    if b = 69 ∨ b = 101 then
      let magnitude : ℤ := ofDecimal ((splitSign s).2.takeWhile isDigit)
      if (splitSign s).1 then -magnitude else magnitude
    else 0

/-- The digits behind the point, and what follows them. -/
def splitFraction : Bytes → Bytes × Bytes
  | [] => ([], [])
  | b :: s => if b = 46 then (s.takeWhile isDigit, s.dropWhile isDigit) else ([], b :: s)

/-- The number that a text without sign starts with. -/
def scanUnsigned (s : Bytes) : Option ℚ :=
  let whole := s.takeWhile isDigit
  let (fraction, rest) := splitFraction (s.dropWhile isDigit)
  if whole = [] ∧ fraction = [] then none
  else some (ofDecimal (whole ++ fraction) * 10 ^ (scanExponent rest - fraction.length))

def scan (s : Bytes) : Option ℚ :=
  (scanUnsigned (splitSign s).2).map fun q => if (splitSign s).1 then -q else q

def roundEven (q : ℚ) : ℤ :=
  if q - ⌊q⌋ < 1 / 2 then ⌊q⌋
  else if 1 / 2 < q - ⌊q⌋ then ⌊q⌋ + 1
  else if ⌊q⌋ % 2 = 0 then ⌊q⌋
  else ⌊q⌋ + 1

/-- The exponent of the last binary place. -/
def lastPlace (q : ℚ) : ℤ := max (Int.log 2 |q| - 52) (-1074)

def nearest (q : ℚ) : ℚ := roundEven (q / 2 ^ lastPlace q) * 2 ^ lastPlace q

/-- Without a result where there is a range error: the number is too large, or it is too
small for a normal `double` and is not one exactly. -/
def toDouble (q : ℚ) : Option ℚ :=
  if 2 ^ 1024 ≤ |nearest q| then none
  else if |q| < 2 ^ (-1022 : ℤ) ∧ nearest q ≠ q then none
  else some (nearest q)

/-- `std::stod`; where it throws there is no result. -/
def stod (s : Bytes) : Option ℚ := (scan (s.dropWhile isSpace)).bind toDouble

/-- What follows a number. -/
def Stops (t : Bytes) : Prop := ∀ b, t.head? = some b → isNumeralByte b = false

variable {s t : Bytes}

theorem Stops.not_digit {b : UInt8} (h : Stops (b :: t)) : isDigit b = false := by
  have hb := h b rfl
  unfold isNumeralByte at hb
  rw [Bool.or_eq_false_iff] at hb
  exact hb.1

theorem Stops.ne {b c : UInt8} (h : Stops (b :: t)) (hc : isNumeralByte c = true) : b ≠ c := by
  rintro rfl
  have hb := h b rfl
  simp [hc] at hb

theorem takeWhile_stops (h : Stops t) : t.takeWhile isDigit = [] ∧ t.dropWhile isDigit = t := by
  cases t with
  | nil => simp
  | cons b t => simp [h.not_digit]

theorem digits_append (h : Stops t) :
    (s ++ t).takeWhile isDigit = s.takeWhile isDigit ∧
      (s ++ t).dropWhile isDigit = s.dropWhile isDigit ++ t := by
  induction s with
  | nil => simpa using takeWhile_stops h
  | cons b s ih =>
    by_cases hb : isDigit b = true
    · simp [hb, ih.1, ih.2]
    · simp [hb]

theorem splitSign_append (h : Stops t) :
    splitSign (s ++ t) = ((splitSign s).1, (splitSign s).2 ++ t) := by
  cases s with
  | nil =>
    cases t with
    | nil => simp [splitSign]
    | cons b t =>
      have hminus : b ≠ 45 := h.ne (by decide)
      have hplus : b ≠ 43 := h.ne (by decide)
      simp [splitSign, hminus, hplus]
  | cons b s =>
    simp only [List.cons_append, splitSign]
    split
    · simp
    · split <;> simp

theorem scanExponent_append (h : Stops t) : scanExponent (s ++ t) = scanExponent s := by
  cases s with
  | nil =>
    cases t with
    | nil => simp
    | cons b t =>
      have hE : b ≠ 69 := h.ne (by decide)
      have he : b ≠ 101 := h.ne (by decide)
      simp [scanExponent, hE, he]
  | cons b s =>
    simp only [List.cons_append, scanExponent, splitSign_append h, (digits_append h).1]

theorem splitFraction_append (h : Stops t) :
    splitFraction (s ++ t) = ((splitFraction s).1, (splitFraction s).2 ++ t) := by
  cases s with
  | nil =>
    cases t with
    | nil => simp [splitFraction]
    | cons b t =>
      have hpoint : b ≠ 46 := h.ne (by decide)
      simp [splitFraction, hpoint]
  | cons b s =>
    simp only [List.cons_append, splitFraction, digits_append h]
    split <;> simp

theorem scan_append (h : Stops t) : scan (s ++ t) = scan s := by
  simp only [scan, scanUnsigned, splitSign_append h, digits_append h, splitFraction_append h,
    scanExponent_append h]

/-- A text that starts with a digit starts with a number. -/
theorem scanUnsigned_isSome {b : UInt8} (hb : isDigit b = true) (s : Bytes) :
    (scanUnsigned (b :: s)).isSome := by
  simp [scanUnsigned, hb]

theorem scan_isSome {token : Bytes} (h : isNumeral token = true) : (scan token).isSome := by
  have hdigit : ∀ {b : UInt8} {s : Bytes}, unsigned token = b :: s → isDigit b = true := by
    intro b s hu
    rw [isNumeral, hu] at h
    simp only at h
    split at h
    · subst b
      decide
    · exact (Bool.and_eq_true_iff.mp h).1
  have hunsigned : (splitSign token).2 = unsigned token := by
    cases token with
    | nil => rfl
    | cons b s =>
      by_cases hminus : b = 45
      · simp [splitSign, unsigned, hminus]
      · have hplus : b ≠ 43 := by
          rintro rfl
          have hd : isDigit 43 = true := hdigit (s := s) (by simp [unsigned])
          exact absurd hd (by decide)
        simp [splitSign, unsigned, hminus, hplus]
  cases hu : unsigned token with
  | nil => simp [isNumeral, hu] at h
  | cons b s => simp [scan, hunsigned, hu, scanUnsigned_isSome (hdigit hu) s]

theorem scan_decimal (n : ℕ) : scan (decimal n) = some (n : ℚ) := by
  obtain ⟨b, s, hdecimal, hb, -⟩ := decimal_eq_cons n
  have hall : ∀ c ∈ decimal n, isDigit c = true := fun c hc => isDigit_of_mem_decimal hc
  have hminus : b ≠ 45 := by
    rintro rfl
    exact absurd hb (by decide)
  have hplus : b ≠ 43 := by
    rintro rfl
    exact absurd hb (by decide)
  have hsign : splitSign (decimal n) = (false, decimal n) := by
    rw [hdecimal]
    simp [splitSign, hminus, hplus]
  have htake : (decimal n).takeWhile isDigit = decimal n := List.takeWhile_eq_self_iff.mpr hall
  have hne : decimal n ≠ [] := by simp [hdecimal]
  simp [scan, hsign, scanUnsigned, htake, dropWhile_isDigit_eq_nil hall, splitFraction,
    scanExponent, hne, ofDecimal_decimal]

theorem stod_append {b : UInt8} (hb : isSpace b = false) (h : Stops t) :
    stod (b :: s ++ t) = (scan (b :: s)).bind toDouble := by
  have hskip : (b :: s ++ t).dropWhile isSpace = b :: s ++ t := by simp [hb]
  rw [stod, hskip, scan_append h]

theorem roundEven_intCast (k : ℤ) : roundEven k = k := by
  simp [roundEven]

theorem abs_roundEven_sub_le (q : ℚ) : |(roundEven q : ℚ) - q| ≤ 1 / 2 := by
  have hlow := Int.floor_le q
  have hhigh := Int.lt_floor_add_one q
  unfold roundEven
  rw [abs_le]
  split
  · constructor <;> linarith
  · split
    · push_cast
      constructor <;> linarith
    · split
      · constructor <;> linarith
      · push_cast
        constructor <;> linarith

/-- Half way between two numbers it is the even one. -/
theorem even_roundEven {q : ℚ} (h : |(roundEven q : ℚ) - q| = 1 / 2) : Even (roundEven q) := by
  have hlow := Int.floor_le q
  have hhigh := Int.lt_floor_add_one q
  rw [Int.even_iff]
  unfold roundEven at h ⊢
  split
  case isTrue hbelow =>
    rw [if_pos hbelow, abs_sub_comm, abs_of_nonneg (by linarith)] at h
    linarith
  case isFalse hbelow =>
    rw [if_neg hbelow] at h
    split
    case isTrue habove =>
      rw [if_pos habove, abs_of_nonneg (by push_cast; linarith)] at h
      push_cast at h
      linarith
    case isFalse =>
      split
      case isTrue heven => exact heven
      case isFalse hodd => omega

theorem roundEven_unique {q : ℚ} {k : ℤ} (hk : |(k : ℚ) - q| ≤ 1 / 2)
    (heven : |(k : ℚ) - q| = 1 / 2 → Even k) : roundEven q = k := by
  have hround := abs_roundEven_sub_le q
  -- two candidates are one apart at most, and then both would be even
  have hdist : |(roundEven q : ℚ) - k| ≤ |(roundEven q : ℚ) - q| + |(k : ℚ) - q| := by
    rw [abs_sub_comm (k : ℚ) q]
    exact abs_sub_le _ _ _
  have hone : |roundEven q - k| ≤ 1 := by
    have hcast : |(roundEven q : ℚ) - k| ≤ 1 := by linarith
    exact_mod_cast hcast
  by_contra hne
  have hone' : |roundEven q - k| = 1 :=
    le_antisymm hone (Int.one_le_abs (sub_ne_zero.mpr hne))
  have hcast : |(roundEven q : ℚ) - k| = 1 := by exact_mod_cast hone'
  obtain ⟨m, hm⟩ := even_roundEven (show |(roundEven q : ℚ) - q| = 1 / 2 by linarith)
  obtain ⟨n, hn⟩ := heven (by linarith)
  rw [abs_eq (by norm_num)] at hone'
  omega

theorem roundEven_neg (q : ℚ) : roundEven (-q) = -roundEven q := by
  have hflip : |((-roundEven q : ℤ) : ℚ) - -q| = |(roundEven q : ℚ) - q| := by
    rw [← abs_neg]
    congr 1
    push_cast
    ring
  apply roundEven_unique
  · rw [hflip]
    exact abs_roundEven_sub_le q
  · rw [hflip]
    exact fun h => (even_roundEven h).neg

theorem roundEven_le {q : ℚ} {n : ℤ} (h : q ≤ n) : roundEven q ≤ n := by
  have hround := (abs_le.mp (abs_roundEven_sub_le q)).2
  have hlt : (roundEven q : ℚ) < n + 1 := by linarith
  have hlt : roundEven q < n + 1 := by exact_mod_cast hlt
  omega

theorem le_roundEven {q : ℚ} {n : ℤ} (h : n ≤ q) : n ≤ roundEven q := by
  have hround := (abs_le.mp (abs_roundEven_sub_le q)).1
  have hlt : (n : ℚ) < roundEven q + 1 := by linarith
  have hlt : n < roundEven q + 1 := by exact_mod_cast hlt
  omega

/-- To get to an even number, half the way is enough. -/
theorem roundEven_lt_iff {q : ℚ} {n : ℤ} (hn : Even n) : roundEven q < n ↔ q < n - 1 / 2 := by
  have hround := abs_le.mp (abs_roundEven_sub_le q)
  constructor
  · intro hlt
    by_contra hge
    have hge := not_lt.mp hge
    have hcast : (roundEven q : ℚ) ≤ n - 1 := by
      have hle : roundEven q ≤ n - 1 := by omega
      exact_mod_cast hle
    have hhalf : |(roundEven q : ℚ) - q| = 1 / 2 := by
      rw [abs_of_nonpos (by linarith)]
      linarith [hround.1]
    have hsame : (roundEven q : ℚ) = n - 1 := by linarith [hround.1]
    have hsame : roundEven q = n - 1 := by exact_mod_cast hsame
    obtain ⟨k, hk⟩ := even_roundEven hhalf
    obtain ⟨m, hm⟩ := hn
    omega
  · intro hlt
    have hcast : (roundEven q : ℚ) < n := by linarith [hround.2]
    exact_mod_cast hcast

theorem roundEven_eq {q : ℚ} {k : ℤ} (h : |q - k| < 1 / 2) : roundEven q = k := by
  rw [abs_sub_comm] at h
  exact roundEven_unique h.le fun hhalf => absurd hhalf h.ne

/-- A number in the normal range is off by half of its last place at most. -/
theorem abs_nearest_sub_le_place {q : ℚ} (hq : 2 ^ (-1022 : ℤ) ≤ |q|) :
    |nearest q - q| ≤ |q| / 2 ^ 53 := by
  have hpos : 0 < |q| := lt_of_lt_of_le (by positivity) hq
  have hlog : (-1022 : ℤ) ≤ Int.log 2 |q| := (Int.zpow_le_iff_le_log (by norm_num) hpos).mp hq
  have hplace : (2 : ℚ) ^ lastPlace q ≤ |q| / 2 ^ 52 := by
    have hlast : lastPlace q = Int.log 2 |q| - 52 := by
      unfold lastPlace
      omega
    rw [hlast, zpow_sub₀ (by norm_num)]
    apply div_le_div_of_nonneg_right (Int.zpow_log_le_self (by norm_num : 1 < 2) hpos)
    positivity
  have hscale : 0 < (2 : ℚ) ^ lastPlace q := by positivity
  have hsub : nearest q - q =
      ((roundEven (q / 2 ^ lastPlace q) : ℚ) - q / 2 ^ lastPlace q) * 2 ^ lastPlace q := by
    rw [nearest, sub_mul, div_mul_cancel₀ _ hscale.ne']
  rw [hsub, abs_mul, abs_of_pos hscale]
  calc |(roundEven (q / 2 ^ lastPlace q) : ℚ) - q / 2 ^ lastPlace q| * 2 ^ lastPlace q
      ≤ 1 / 2 * 2 ^ lastPlace q :=
        mul_le_mul_of_nonneg_right (abs_roundEven_sub_le _) hscale.le
    _ ≤ 1 / 2 * (|q| / 2 ^ 52) := mul_le_mul_of_nonneg_left hplace (by norm_num)
    _ = |q| / 2 ^ 53 := by ring

/-- A number in the normal range is off by half of itself at most. -/
theorem abs_nearest_sub_le {q : ℚ} (hq : 2 ^ (-1022 : ℤ) ≤ |q|) : |nearest q - q| ≤ |q| / 2 := by
  refine (abs_nearest_sub_le_place hq).trans ?_
  exact div_le_div_of_nonneg_left (abs_nonneg q) (by norm_num) (by norm_num)

/-- A number in the normal range, and not at its very end, has a `double` near it. -/
theorem toDouble_eq_some {q : ℚ} (hlow : 2 ^ (-1022 : ℤ) ≤ |q|) (hhigh : |q| ≤ 2 ^ 1023) :
    toDouble q = some (nearest q) := by
  have hnear := abs_nearest_sub_le hlow
  have hsum : |nearest q| ≤ |nearest q - q| + |q| := by
    have h := abs_add_le (nearest q - q) q
    rwa [sub_add_cancel] at h
  have hlt : ¬ 2 ^ 1024 ≤ |nearest q| := by
    have hpos : (0 : ℚ) < 2 ^ 1023 := by positivity
    rw [not_le, pow_succ']
    generalize (2 : ℚ) ^ 1023 = top at hhigh hpos ⊢
    linarith
  rw [toDouble, if_neg hlt, if_neg fun h => absurd h.1 (not_lt.mpr hlow)]

theorem nearest_natCast {n : ℕ} (h : n < 2 ^ 53) : nearest n = n := by
  by_cases hn : n = 0
  · subst hn
    have hzero : roundEven 0 = 0 := by exact_mod_cast roundEven_intCast 0
    simp [nearest, hzero]
  have hpos : (0 : ℚ) < n := by exact_mod_cast Nat.pos_of_ne_zero hn
  have hlog : Int.log 2 (n : ℚ) < 53 := by
    apply (Int.lt_zpow_iff_log_lt (by norm_num) hpos).mp
    exact_mod_cast h
  have hplace : lastPlace n ≤ 0 := by
    unfold lastPlace
    rw [abs_of_pos hpos]
    omega
  obtain ⟨k, hk⟩ := Int.eq_ofNat_of_zero_le (show 0 ≤ -lastPlace n by omega)
  have hinv : lastPlace n = -(k : ℤ) := by omega
  have hdiv : (n : ℚ) / 2 ^ lastPlace n = ((n * 2 ^ k : ℤ) : ℚ) := by
    rw [hinv, zpow_neg, div_inv_eq_mul]
    push_cast
    rfl
  have hscale : (2 : ℚ) ^ lastPlace n ≠ 0 := by positivity
  rw [nearest, hdiv, roundEven_intCast, ← hdiv, div_mul_cancel₀ _ hscale]

theorem one_le_pow_abs {n : ℕ} (hn : n ≠ 0) : (2 : ℚ) ^ (-1022 : ℤ) ≤ |(n : ℚ)| := by
  have hone : (1 : ℚ) ≤ |(n : ℚ)| := by
    rw [abs_of_nonneg (Nat.cast_nonneg n)]
    exact_mod_cast Nat.one_le_iff_ne_zero.mpr hn
  refine le_trans ?_ hone
  exact zpow_le_one_of_nonpos₀ (by norm_num) (by norm_num)

/-- A number of 64 bits has a `double`, which is zero where the number is. -/
theorem toDouble_natCast {n : ℕ} (h : n < 2 ^ 64) :
    toDouble n = some (nearest n) ∧ (n ≠ 0 → 1 ≤ nearest n) := by
  by_cases hn : n = 0
  · subst hn
    have hzero : nearest ((0 : ℕ) : ℚ) = (0 : ℕ) := nearest_natCast (by norm_num)
    simp only [Nat.cast_zero] at hzero
    simp [toDouble, hzero]
  · have hcast : |(n : ℚ)| = n := abs_of_nonneg (Nat.cast_nonneg n)
    have hhigh : |(n : ℚ)| ≤ 2 ^ 1023 := by
      rw [hcast]
      have hle : (n : ℚ) ≤ 2 ^ 64 := by exact_mod_cast h.le
      exact hle.trans (pow_le_pow_right₀ (by norm_num) (by norm_num))
    apply And.intro (toDouble_eq_some (one_le_pow_abs hn) hhigh)
    intro _
    by_cases hsmall : n < 2 ^ 53
    · rw [nearest_natCast hsmall]
      exact_mod_cast Nat.one_le_iff_ne_zero.mpr hn
    · have hnear := abs_nearest_sub_le (one_le_pow_abs hn)
      rw [hcast, abs_le] at hnear
      have htwo : (2 : ℚ) ≤ n := by
        have : 2 ≤ n := by omega
        exact_mod_cast this
      linarith [hnear.1]

end Strtod
