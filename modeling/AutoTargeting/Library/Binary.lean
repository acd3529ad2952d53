import AutoTargeting.Library.Strtod
import Mathlib.Data.Nat.Factorization.Basic

namespace Binary

open Strtod (roundEven)

/-- How many bits the fraction and the exponent have. -/
structure Format where
  mantissa : ℕ
  exponent : ℕ
  exponent_two_le : 2 ≤ exponent

def binary32 : Format := ⟨23, 8, by decide⟩

def binary64 : Format := ⟨52, 11, by decide⟩

namespace Format

variable (f : Format)

/-- The place of the last bit of the smallest numbers. -/
def minPlace : ℤ := 2 - 2 ^ (f.exponent - 1) - f.mantissa

/-- Numbers from this power of two on are too large. -/
def top : ℤ := 2 ^ (f.exponent - 1)

/-- The bits of an infinity, without the sign; those of a NaN are above them. -/
def infinity : ℕ := (2 ^ f.exponent - 1) * 2 ^ f.mantissa

def signBit : ℕ := 2 ^ (f.exponent + f.mantissa)

def significand (c : ℕ) : ℕ :=
  if c / 2 ^ f.mantissa = 0 then c else 2 ^ f.mantissa + c % 2 ^ f.mantissa

def place (c : ℕ) : ℤ :=
  if c / 2 ^ f.mantissa = 0 then f.minPlace else f.minPlace + (c / 2 ^ f.mantissa - 1 : ℕ)

def magnitude (c : ℕ) : ℚ := f.significand c * 2 ^ f.place c

def lastPlace (q : ℚ) : ℤ := max (Int.log 2 |q| - f.mantissa) f.minPlace

/-- The nearest number, if there were no largest one. -/
def nearest (q : ℚ) : ℚ := roundEven (q / 2 ^ f.lastPlace q) * 2 ^ f.lastPlace q

/-- The bits of the nearest number to one that is not negative, if there were no largest one. -/
def code (q : ℚ) : ℕ :=
  if q = 0 then 0
  else (f.lastPlace q - f.minPlace).toNat * 2 ^ f.mantissa +
    (roundEven (q / 2 ^ f.lastPlace q)).toNat

def encode (q : ℚ) : ℕ := min (f.code q) f.infinity

def ofRat (q : ℚ) : ℕ := (if q < 0 then f.signBit else 0) + f.encode |q|

def isNaN (bits : ℕ) : Bool := decide (f.infinity < bits % f.signBit)

/-- The value of what is no NaN and no infinity. -/
def decode (bits : ℕ) : Option ℚ :=
  if bits % f.signBit < f.infinity then
    some (if bits / f.signBit = 0 then f.magnitude (bits % f.signBit)
      else -f.magnitude (bits % f.signBit))
  else none

/-- The conversion to another format. Which NaN comes of a NaN does not matter here. -/
def convert (g : Format) (bits : ℕ) : ℕ :=
  bits / f.signBit * g.signBit +
    if f.infinity < bits % f.signBit then g.infinity + 2 ^ (g.mantissa - 1)
    else if bits % f.signBit = f.infinity then g.infinity
    else g.encode (f.magnitude (bits % f.signBit))

end Format

example : binary32.ofRat (1 / 10) = 0x3DCCCCCD ∧ binary64.convert binary32 (binary64.ofRat (1 / 3)) =
    binary32.ofRat (1 / 3) := by decide +kernel

namespace Format

variable {f : Format} {q : ℚ} {c : ℕ}

theorem minPlace_le_place (f : Format) (c : ℕ) : f.minPlace ≤ f.place c := by
  unfold place
  split <;> omega

/-- The places from the smallest one, and the significand, make up the bits. -/
theorem place_significand (f : Format) (c : ℕ) :
    (f.place c - f.minPlace).toNat * 2 ^ f.mantissa + f.significand c = c := by
  unfold place significand
  split
  case isTrue h => simp
  case isFalse h =>
    have hdivmod := Nat.div_add_mod' c (2 ^ f.mantissa)
    generalize c / 2 ^ f.mantissa = e at h hdivmod ⊢
    have hsub : (f.minPlace + (e - 1 : ℕ) - f.minPlace).toNat + 1 = e := by omega
    rw [← add_assoc, ← Nat.succ_mul, Nat.succ_eq_add_one, hsub, hdivmod]

theorem significand_lt (f : Format) (c : ℕ) : f.significand c < 2 ^ (f.mantissa + 1) := by
  have hpos : 0 < 2 ^ f.mantissa := by positivity
  have hmod := Nat.mod_lt c hpos
  rw [pow_succ]
  unfold significand
  split
  case isTrue h =>
    have hlt := (Nat.div_eq_zero_iff_lt hpos).mp h
    omega
  case isFalse h => omega

theorem normal_significand (h : c / 2 ^ f.mantissa ≠ 0) : 2 ^ f.mantissa ≤ f.significand c := by
  rw [significand, if_neg h]
  exact Nat.le_add_right _ _

theorem magnitude_nonneg (f : Format) (c : ℕ) : 0 ≤ f.magnitude c := by
  unfold magnitude
  positivity

theorem significand_pos (hc : c ≠ 0) : 0 < f.significand c := by
  unfold significand
  split
  · exact Nat.pos_of_ne_zero hc
  · positivity

theorem magnitude_pos (hc : c ≠ 0) : 0 < f.magnitude c := by
  have hsig : (0 : ℚ) < f.significand c := by exact_mod_cast significand_pos hc
  unfold magnitude
  positivity

theorem top_eq (f : Format) : f.top = f.minPlace + f.mantissa + (2 ^ f.exponent - 2 : ℕ) := by
  obtain ⟨k, hk⟩ : ∃ k, f.exponent = k + 1 := ⟨f.exponent - 1, by have := f.exponent_two_le; omega⟩
  have hpow : 1 ≤ 2 ^ k := Nat.one_le_two_pow
  rw [top, minPlace, hk, Nat.add_sub_cancel, pow_succ]
  push_cast [Nat.cast_sub (show 2 ≤ 2 ^ k * 2 by omega)]
  ring

theorem magnitude_lt_top_iff : f.magnitude c < 2 ^ f.top ↔ c < f.infinity := by
  have hpos : 0 < 2 ^ f.mantissa := by positivity
  have hfour : 2 ^ 2 ≤ 2 ^ f.exponent := Nat.pow_le_pow_right Nat.two_pos f.exponent_two_le
  have hplace : (0 : ℚ) < 2 ^ f.place c := by positivity
  have hinf : c < f.infinity ↔ c / 2 ^ f.mantissa < 2 ^ f.exponent - 1 :=
    (Nat.div_lt_iff_lt_mul hpos).symm
  rw [hinf]
  constructor
  · intro hlt
    by_contra hlarge
    have hnormal : c / 2 ^ f.mantissa ≠ 0 := by omega
    have hle : f.top ≤ f.mantissa + f.place c := by
      rw [top_eq, place, if_neg hnormal]
      omega
    have hsig : (2 : ℚ) ^ f.mantissa ≤ f.significand c := by
      exact_mod_cast normal_significand hnormal
    have hge : (2 : ℚ) ^ f.top ≤ f.magnitude c := by
      calc (2 : ℚ) ^ f.top ≤ 2 ^ (f.mantissa + f.place c : ℤ) :=
            zpow_le_zpow_right₀ (by norm_num) hle
        _ = 2 ^ f.mantissa * 2 ^ f.place c := by rw [zpow_add₀ (by norm_num), zpow_natCast]
        _ ≤ f.magnitude c := mul_le_mul_of_nonneg_right hsig hplace.le
    exact absurd hlt (not_lt.mpr hge)
  · intro hsmall
    have hle : (f.mantissa + 1 : ℕ) + f.place c ≤ f.top := by
      rw [top_eq, place]
      split <;> omega
    have hsig : (f.significand c : ℚ) < 2 ^ (f.mantissa + 1) := by
      exact_mod_cast significand_lt f c
    calc f.magnitude c < 2 ^ (f.mantissa + 1) * 2 ^ f.place c :=
          mul_lt_mul_of_pos_right hsig hplace
      _ = 2 ^ ((f.mantissa + 1 : ℕ) + f.place c) := by
        rw [zpow_add₀ (by norm_num), zpow_natCast]
      _ ≤ 2 ^ f.top := zpow_le_zpow_right₀ (by norm_num) hle

/-- A number has its own last place. -/
theorem lastPlace_magnitude (hc : c ≠ 0) : f.lastPlace (f.magnitude c) = f.place c := by
  have hplace : (0 : ℚ) < 2 ^ f.place c := by positivity
  have hpos := magnitude_pos (f := f) hc
  have habs : |f.magnitude c| = f.magnitude c := abs_of_pos hpos
  have hupper : Int.log 2 (f.magnitude c) < f.mantissa + f.place c + 1 := by
    apply (Int.lt_zpow_iff_log_lt (by norm_num) hpos).mp
    have hsig : (f.significand c : ℚ) < 2 ^ (f.mantissa + 1) := by
      exact_mod_cast significand_lt f c
    calc f.magnitude c < 2 ^ (f.mantissa + 1) * 2 ^ f.place c :=
          mul_lt_mul_of_pos_right hsig hplace
      _ = 2 ^ (f.mantissa + f.place c + 1) := by
        rw [zpow_add₀ (by norm_num), zpow_add₀ (by norm_num), zpow_natCast, pow_succ]
        ring
  rw [lastPlace, habs]
  by_cases hnormal : c / 2 ^ f.mantissa = 0
  · have hmin : f.place c = f.minPlace := if_pos hnormal
    omega
  · have hlower : (f.mantissa + f.place c : ℤ) ≤ Int.log 2 (f.magnitude c) := by
      apply (Int.zpow_le_iff_le_log (by norm_num) hpos).mp
      have hsig : (2 : ℚ) ^ f.mantissa ≤ f.significand c := by
        exact_mod_cast normal_significand hnormal
      calc (2 : ℚ) ^ (f.mantissa + f.place c : ℤ) = 2 ^ f.mantissa * 2 ^ f.place c := by
            rw [zpow_add₀ (by norm_num), zpow_natCast]
        _ ≤ f.magnitude c := mul_le_mul_of_nonneg_right hsig hplace.le
    have hmin := minPlace_le_place f c
    omega

theorem code_magnitude (f : Format) (c : ℕ) : f.code (f.magnitude c) = c := by
  by_cases hc : c = 0
  · subst hc
    have hzero : f.magnitude 0 = 0 := by simp [magnitude, significand]
    rw [hzero, code, if_pos rfl]
  · have hplace : (2 : ℚ) ^ f.place c ≠ 0 := by positivity
    have hne : f.magnitude c ≠ 0 := (magnitude_pos hc).ne'
    have hdiv : f.magnitude c / 2 ^ f.place c = ((f.significand c : ℤ) : ℚ) := by
      rw [magnitude, mul_div_cancel_right₀ _ hplace, Int.cast_natCast]
    rw [code, if_neg hne, lastPlace_magnitude hc, hdiv, Strtod.roundEven_intCast, Int.toNat_natCast,
      place_significand]

theorem encode_magnitude (h : c < f.infinity) : f.encode (f.magnitude c) = c := by
  rw [encode, code_magnitude, min_eq_left h.le]

/-- A number is less than a power of two that many places above its last one. -/
theorem div_lastPlace_lt (f : Format) (hq : 0 < q) :
    q / 2 ^ f.lastPlace q < 2 ^ (f.mantissa + 1) := by
  have hscale : (0 : ℚ) < 2 ^ f.lastPlace q := by positivity
  rw [div_lt_iff₀ hscale]
  have hle : Int.log 2 q + 1 ≤ (f.mantissa + 1 : ℕ) + f.lastPlace q := by
    rw [lastPlace, abs_of_pos hq]
    push_cast
    omega
  calc q < 2 ^ (Int.log 2 q + 1) := Int.lt_zpow_succ_log_self (by norm_num) q
    _ ≤ 2 ^ ((f.mantissa + 1 : ℕ) + f.lastPlace q) := zpow_le_zpow_right₀ (by norm_num) hle
    _ = 2 ^ (f.mantissa + 1) * 2 ^ f.lastPlace q := by rw [zpow_add₀ (by norm_num), zpow_natCast]

/-- Above the smallest place all bits of the significand are used. -/
theorem le_div_lastPlace (hq : 0 < q) (h : f.lastPlace q ≠ f.minPlace) :
    2 ^ f.mantissa ≤ q / 2 ^ f.lastPlace q := by
  have hscale : (0 : ℚ) < 2 ^ f.lastPlace q := by positivity
  rw [le_div_iff₀ hscale]
  have hplace : (f.mantissa : ℤ) + f.lastPlace q = Int.log 2 q := by
    rw [lastPlace, abs_of_pos hq] at h ⊢
    omega
  calc (2 : ℚ) ^ f.mantissa * 2 ^ f.lastPlace q = 2 ^ ((f.mantissa : ℤ) + f.lastPlace q) := by
        rw [zpow_add₀ (by norm_num), zpow_natCast]
    _ = 2 ^ Int.log 2 q := by rw [hplace]
    _ ≤ q := Int.zpow_log_le_self (by norm_num) hq

/-- The rounded significand may be the next power of two. -/
theorem roundEven_div_le (f : Format) (hq : 0 < q) :
    roundEven (q / 2 ^ f.lastPlace q) ≤ 2 ^ (f.mantissa + 1) := by
  apply Strtod.roundEven_le
  push_cast
  exact (div_lastPlace_lt f hq).le

theorem le_roundEven_div (hq : 0 < q) (h : f.lastPlace q ≠ f.minPlace) :
    2 ^ f.mantissa ≤ roundEven (q / 2 ^ f.lastPlace q) := by
  apply Strtod.le_roundEven
  push_cast
  exact le_div_lastPlace hq h

/-- Bits made of a place and a rounded significand. -/
theorem magnitude_eq {k r : ℕ} (hr : r ≤ 2 ^ (f.mantissa + 1)) (hk : k ≠ 0 → 2 ^ f.mantissa ≤ r) :
    f.magnitude (k * 2 ^ f.mantissa + r) = r * 2 ^ (f.minPlace + k) := by
  have hpos : 0 < 2 ^ f.mantissa := by positivity
  rw [pow_succ] at hr
  rcases Nat.lt_or_ge r (2 ^ f.mantissa) with hsmall | hlarge
  · -- a subnormal number
    have hzero : k = 0 := by
      by_contra h
      exact absurd (hk h) (not_le.mpr hsmall)
    subst hzero
    have hdiv : (0 * 2 ^ f.mantissa + r) / 2 ^ f.mantissa = 0 :=
      (Nat.div_eq_zero_iff_lt hpos).mpr (by omega)
    rw [magnitude, significand, place, if_pos hdiv, if_pos hdiv, Nat.zero_mul, Nat.zero_add,
      Nat.cast_zero, add_zero]
  · rcases Nat.lt_or_ge r (2 ^ f.mantissa * 2) with hnormal | hcarry
    · obtain ⟨m, rfl⟩ := Nat.exists_eq_add_of_le hlarge
      have hdiv : (k * 2 ^ f.mantissa + (2 ^ f.mantissa + m)) / 2 ^ f.mantissa = k + 1 := by
        rw [← add_assoc, ← Nat.succ_mul, Nat.mul_comm, Nat.mul_add_div hpos,
          Nat.div_eq_of_lt (by omega), add_zero]
      have hmod : (k * 2 ^ f.mantissa + (2 ^ f.mantissa + m)) % 2 ^ f.mantissa = m := by
        rw [← add_assoc, ← Nat.succ_mul, Nat.mul_comm, Nat.mul_add_mod,
          Nat.mod_eq_of_lt (by omega)]
      rw [magnitude, significand, place, hdiv, if_neg (Nat.succ_ne_zero k),
        if_neg (Nat.succ_ne_zero k), hmod, Nat.add_sub_cancel]
    · -- the significand is rounded up to the next power of two
      obtain rfl : r = 2 ^ f.mantissa * 2 := le_antisymm hr hcarry
      have hcode : k * 2 ^ f.mantissa + 2 ^ f.mantissa * 2 = 2 ^ f.mantissa * (k + 2) := by ring
      rw [hcode, magnitude, significand, place, Nat.mul_div_cancel_left _ hpos,
        if_neg (Nat.succ_ne_zero _), if_neg (Nat.succ_ne_zero _), Nat.mul_mod_right]
      have hplace : f.minPlace + ((k + 2 - 1 : ℕ) : ℤ) = f.minPlace + k + 1 := by omega
      rw [hplace, zpow_add_one₀ (by norm_num)]
      push_cast
      ring

theorem magnitude_code (f : Format) (hq : 0 ≤ q) : f.magnitude (f.code q) = f.nearest q := by
  rcases hq.eq_or_lt with rfl | hpos
  · have hround : roundEven 0 = 0 := by exact_mod_cast Strtod.roundEven_intCast 0
    rw [code, if_pos rfl, nearest, zero_div, hround]
    simp [magnitude, significand]
  · have hscale : (0 : ℚ) < 2 ^ f.lastPlace q := by positivity
    have hmin : f.minPlace ≤ f.lastPlace q := le_max_right _ _
    have hnonneg : 0 ≤ roundEven (q / 2 ^ f.lastPlace q) := by
      apply Strtod.le_roundEven
      rw [Int.cast_zero]
      positivity
    obtain ⟨r, hr⟩ := Int.eq_ofNat_of_zero_le hnonneg
    have hle : r ≤ 2 ^ (f.mantissa + 1) := by
      have hround := roundEven_div_le f hpos
      rw [hr] at hround
      exact_mod_cast hround
    have hge : (f.lastPlace q - f.minPlace).toNat ≠ 0 → 2 ^ f.mantissa ≤ r := by
      intro hplace
      have hround := le_roundEven_div hpos (show f.lastPlace q ≠ f.minPlace by omega)
      rw [hr] at hround
      exact_mod_cast hround
    have hplace : f.minPlace + ((f.lastPlace q - f.minPlace).toNat : ℤ) = f.lastPlace q := by omega
    rw [code, if_neg hpos.ne', nearest, hr, Int.toNat_natCast,
      magnitude_eq hle hge, hplace, Int.cast_natCast]

theorem nearest_neg (f : Format) (q : ℚ) : f.nearest (-q) = -f.nearest q := by
  have hplace : f.lastPlace (-q) = f.lastPlace q := by rw [lastPlace, lastPlace, abs_neg]
  rw [nearest, nearest, hplace, neg_div, Strtod.roundEven_neg, Int.cast_neg, neg_mul]

/-- A number with no bits behind its last place is kept. -/
theorem nearest_eq_self {m : ℤ} {p : ℤ} (hq : q = m * 2 ^ p) (hp : f.lastPlace q ≤ p) :
    f.nearest q = q := by
  obtain ⟨k, hk⟩ := Int.eq_ofNat_of_zero_le (sub_nonneg.mpr hp)
  have hscale : (2 : ℚ) ^ f.lastPlace q ≠ 0 := by positivity
  have hdiv : q / 2 ^ f.lastPlace q = ((m * 2 ^ k : ℤ) : ℚ) := by
    rw [div_eq_iff hscale]
    push_cast
    rw [mul_assoc, ← zpow_natCast (2 : ℚ) k, ← zpow_add₀ (by norm_num), hq]
    congr 2
    rw [← hq]
    omega
  rw [nearest, hdiv, Strtod.roundEven_intCast, ← hdiv, div_mul_cancel₀ _ hscale]

theorem nearest_magnitude (f : Format) (c : ℕ) : f.nearest (f.magnitude c) = f.magnitude c := by
  rw [← magnitude_code f (magnitude_nonneg f c), code_magnitude]

theorem nearest_abs (f : Format) (q : ℚ) : f.nearest |q| = |f.nearest q| := by
  rcases le_total 0 q with hq | hq
  · have hnonneg : 0 ≤ f.nearest q := by
      rw [← magnitude_code f hq]
      exact magnitude_nonneg f _
    rw [abs_of_nonneg hq, abs_of_nonneg hnonneg]
  · have hnonneg : 0 ≤ f.nearest (-q) := by
      rw [← magnitude_code f (neg_nonneg.mpr hq)]
      exact magnitude_nonneg f _
    rw [nearest_neg] at hnonneg
    rw [abs_of_nonpos hq, nearest_neg, abs_of_nonpos (neg_nonneg.mp hnonneg)]

theorem code_lt_infinity_iff (hq : 0 ≤ q) : f.code q < f.infinity ↔ f.nearest q < 2 ^ f.top := by
  rw [← magnitude_lt_top_iff, magnitude_code f hq]

-- Which numbers are rounded to one that is too large. The last place tells, unless it is the one
-- of the numbers just below.

/-- The place of the last bit of the largest numbers. -/
def maxPlace (f : Format) : ℤ := f.top - f.mantissa - 1

theorem top_split (f : Format) : (2 : ℚ) ^ f.top = 2 ^ (f.mantissa + 1) * 2 ^ f.maxPlace := by
  rw [maxPlace, ← zpow_natCast, ← zpow_add₀ (by norm_num)]
  congr 1
  push_cast
  ring

theorem minPlace_le_maxPlace (f : Format) : f.minPlace ≤ f.maxPlace := by
  have hexponent : 2 ^ 2 ≤ 2 ^ f.exponent := Nat.pow_le_pow_right Nat.two_pos f.exponent_two_le
  have htop := top_eq f
  unfold maxPlace
  omega

/-- The limit is above half of the first power of two that is too large, and not above that power. -/
theorem limit_bounds (f : Format) :
    2 ^ f.mantissa * 2 ^ f.maxPlace < (2 ^ f.top : ℚ) ∧
      2 ^ f.mantissa * 2 ^ f.maxPlace < ((2 ^ (f.mantissa + 1) - 1 / 2) * 2 ^ f.maxPlace : ℚ) ∧
      ((2 ^ (f.mantissa + 1) - 1 / 2) * 2 ^ f.maxPlace : ℚ) ≤ 2 ^ f.top := by
  have hscale : (0 : ℚ) < 2 ^ f.maxPlace := by positivity
  have hwhole : (1 : ℚ) ≤ 2 ^ f.mantissa := one_le_pow₀ (by norm_num)
  rw [top_split, pow_succ]
  refine ⟨?_, ?_, ?_⟩
  · exact mul_lt_mul_of_pos_right (by linarith) hscale
  · exact mul_lt_mul_of_pos_right (by linarith) hscale
  · exact mul_le_mul_of_nonneg_right (by linarith) hscale.le

/-- Numbers with a lower last place, and what they are rounded to, are not above the half. -/
theorem le_of_lastPlace_lt (hq : 0 < q) (h : f.lastPlace q < f.maxPlace) :
    q ≤ 2 ^ f.mantissa * 2 ^ f.maxPlace ∧ f.nearest q ≤ 2 ^ f.mantissa * 2 ^ f.maxPlace := by
  have hplace : (0 : ℚ) < 2 ^ f.lastPlace q := by positivity
  have hhalf : (2 : ℚ) ^ (f.mantissa + 1) * 2 ^ f.lastPlace q ≤
      2 ^ f.mantissa * 2 ^ f.maxPlace := by
    have hstep : (2 : ℚ) ^ (f.lastPlace q + 1) ≤ 2 ^ f.maxPlace :=
      zpow_le_zpow_right₀ (by norm_num) (by omega)
    rw [zpow_add_one₀ (by norm_num)] at hstep
    rw [pow_succ, mul_assoc, mul_comm (2 : ℚ)]
    exact mul_le_mul_of_nonneg_left hstep (by positivity)
  have hfull : q < 2 ^ (f.mantissa + 1) * 2 ^ f.lastPlace q :=
    (div_lt_iff₀ hplace).mp (div_lastPlace_lt f hq)
  have hround : (roundEven (q / 2 ^ f.lastPlace q) : ℚ) ≤ 2 ^ (f.mantissa + 1) := by
    exact_mod_cast roundEven_div_le f hq
  have hnear : f.nearest q ≤ 2 ^ (f.mantissa + 1) * 2 ^ f.lastPlace q :=
    mul_le_mul_of_nonneg_right hround hplace.le
  exact ⟨hfull.le.trans hhalf, hnear.trans hhalf⟩

/-- Numbers with a higher last place are too large, and are rounded to such. -/
theorem top_le_of_lt_lastPlace (hq : 0 < q) (h : f.maxPlace < f.lastPlace q) :
    2 ^ f.top ≤ q ∧ 2 ^ f.top ≤ f.nearest q := by
  have hplace : (0 : ℚ) < 2 ^ f.lastPlace q := by positivity
  have hne : f.lastPlace q ≠ f.minPlace := by
    have hmin := minPlace_le_maxPlace f
    omega
  have hround : (2 : ℚ) ^ f.mantissa ≤ roundEven (q / 2 ^ f.lastPlace q) := by
    exact_mod_cast le_roundEven_div hq hne
  have htop : (2 : ℚ) ^ f.top ≤ 2 ^ f.mantissa * 2 ^ f.lastPlace q := by
    rw [← zpow_natCast, ← zpow_add₀ (by norm_num)]
    unfold maxPlace at h
    exact zpow_le_zpow_right₀ (by norm_num) (by omega)
  have hge : (2 : ℚ) ^ f.mantissa * 2 ^ f.lastPlace q ≤ q :=
    (le_div_iff₀ hplace).mp (le_div_lastPlace hq hne)
  exact ⟨htop.trans hge, htop.trans (mul_le_mul_of_nonneg_right hround hplace.le)⟩

/-- Just below the power of two, half of a last place decides. -/
theorem nearest_lt_of_lastPlace_eq (h : f.lastPlace q = f.maxPlace) :
    f.nearest q < 2 ^ f.top ↔ q < (2 ^ (f.mantissa + 1) - 1 / 2) * 2 ^ f.maxPlace := by
  have hplace : (0 : ℚ) < 2 ^ f.lastPlace q := by positivity
  -- the rounded significand must not reach the power of two, which is even
  have heven : Even ((2 ^ (f.mantissa + 1) : ℕ) : ℤ) := by
    rw [pow_succ]
    push_cast
    exact even_two.mul_left _
  have hround := Strtod.roundEven_lt_iff (q := q / 2 ^ f.lastPlace q) heven
  push_cast at hround
  have hcast : (roundEven (q / 2 ^ f.lastPlace q) : ℚ) < 2 ^ (f.mantissa + 1) ↔
      roundEven (q / 2 ^ f.lastPlace q) < 2 ^ (f.mantissa + 1) := by
    exact_mod_cast Iff.rfl
  rw [nearest, top_split, ← h, mul_lt_mul_iff_left₀ hplace, hcast, hround, div_lt_iff₀ hplace]

theorem nearest_lt_top_iff (f : Format) (q : ℚ) : |f.nearest q| < 2 ^ f.top ↔
    |q| < (2 ^ (f.mantissa + 1) - 1 / 2) * 2 ^ f.maxPlace := by
  rw [← nearest_abs]
  have hnonneg := abs_nonneg q
  generalize |q| = q at hnonneg ⊢
  obtain ⟨hhalf, hlimit, hlimit'⟩ := limit_bounds f
  rcases hnonneg.eq_or_lt with rfl | hpos
  · have hzero : f.nearest 0 = 0 := by
      rw [← magnitude_code f le_rfl, code, if_pos rfl]
      simp [magnitude, significand]
    rw [hzero]
    have hscale : (0 : ℚ) < 2 ^ f.mantissa * 2 ^ f.maxPlace := by positivity
    exact iff_of_true (by positivity) (hscale.trans hlimit)
  · rcases lt_trichotomy (f.lastPlace q) f.maxPlace with hlow | hsame | hhigh
    · obtain ⟨hq, hnear⟩ := le_of_lastPlace_lt hpos hlow
      apply iff_of_true
      · exact hnear.trans_lt hhalf
      · exact hq.trans_lt hlimit
    · exact nearest_lt_of_lastPlace_eq hsame
    · obtain ⟨hq, hnear⟩ := top_le_of_lt_lastPlace hpos hhigh
      apply iff_of_false
      · exact not_lt.mpr hnear
      · exact not_lt.mpr (hlimit'.trans hq)

theorem minPlace_nonpos (f : Format) : f.minPlace ≤ 0 := by
  have hpow : (1 : ℤ) < 2 ^ (f.exponent - 1) := by
    have htwo := f.exponent_two_le
    exact one_lt_pow₀ (by norm_num) (by omega)
  unfold minPlace
  omega

theorem one_le_nearest (hq : 1 ≤ q) : 1 ≤ f.nearest q := by
  have hpos : 0 < q := zero_lt_one.trans_le hq
  have hscale : (0 : ℚ) < 2 ^ f.lastPlace q := by positivity
  have hlog : 0 ≤ Int.log 2 q := by
    apply (Int.zpow_le_iff_le_log (by norm_num) hpos).mp
    rwa [zpow_zero]
  have hplace : f.lastPlace q ≤ Int.log 2 q := by
    have hmin := minPlace_nonpos f
    rw [lastPlace, abs_of_pos hpos]
    omega
  obtain ⟨k, hk⟩ := Int.eq_ofNat_of_zero_le (sub_nonneg.mpr hplace)
  have hround : (2 ^ k : ℕ) ≤ roundEven (q / 2 ^ f.lastPlace q) := by
    apply Strtod.le_roundEven
    rw [le_div_iff₀ hscale]
    push_cast
    calc (2 : ℚ) ^ k * 2 ^ f.lastPlace q = 2 ^ Int.log 2 q := by
          rw [← zpow_natCast, ← hk, ← zpow_add₀ (by norm_num), sub_add_cancel]
      _ ≤ q := Int.zpow_log_le_self (by norm_num) hpos
  calc (1 : ℚ) ≤ 2 ^ Int.log 2 q := one_le_zpow₀ (by norm_num) hlog
    _ = (2 ^ k : ℕ) * 2 ^ f.lastPlace q := by
      rw [Nat.cast_pow, Nat.cast_ofNat, ← zpow_natCast, ← hk, ← zpow_add₀ (by norm_num),
        sub_add_cancel]
    _ ≤ f.nearest q := mul_le_mul_of_nonneg_right (by exact_mod_cast hround) hscale.le

/-- The natural numbers that a format has, if there were no largest one. -/
def Short (f : Format) (n : ℕ) : Prop := ∃ m k, m < 2 ^ (f.mantissa + 1) ∧ n = m * 2 ^ k

theorem short_of_lt {n : ℕ} (h : n < 2 ^ (f.mantissa + 1)) : f.Short n :=
  ⟨n, 0, h, by rw [pow_zero, mul_one]⟩

theorem nearest_of_short {n : ℕ} (h : f.Short n) : f.nearest n = n := by
  obtain ⟨m, k, hm, rfl⟩ := h
  apply nearest_eq_self (m := m) (p := k)
  · push_cast
    rw [zpow_natCast]
  · have hmin := minPlace_nonpos f
    have hlog : Int.log 2 |((m * 2 ^ k : ℕ) : ℚ)| ≤ f.mantissa + k := by
      rw [abs_of_nonneg (Nat.cast_nonneg _), Int.log_natCast]
      have hlt : m * 2 ^ k < 2 ^ (f.mantissa + k + 1) := by
        rw [Nat.add_right_comm, pow_add]
        exact Nat.mul_lt_mul_of_pos_right hm (by positivity)
      have hlog := Nat.log_lt_of_lt_pow' (Nat.succ_ne_zero _) hlt
      omega
    unfold lastPlace
    omega

/-- As many bits as the significand has are enough for a small natural number. -/
theorem nearest_natCast {n : ℕ} (h : n < 2 ^ (f.mantissa + 1)) : f.nearest n = n :=
  nearest_of_short (short_of_lt h)

/-- A factor has no more significant bits than the product. -/
theorem Short.of_mul {m n : ℕ} (h : f.Short (m * n)) (hne : m * n ≠ 0) : f.Short m := by
  obtain ⟨s, k, hs, heq⟩ := h
  obtain ⟨j, o, hodd, rfl⟩ := Nat.exists_eq_two_pow_mul_odd (Nat.ne_zero_of_mul_ne_zero_left hne)
  have hdvd : o ∣ s := by
    have hcoprime : Nat.Coprime o (2 ^ k) := Nat.Coprime.pow_right k hodd.coprime_two_right
    apply hcoprime.dvd_of_dvd_mul_right
    rw [← heq]
    exact (Dvd.intro_left _ rfl).mul_right n
  have hspos : 0 < s := by
    rw [heq] at hne
    exact Nat.pos_of_ne_zero (Nat.ne_zero_of_mul_ne_zero_left hne)
  exact ⟨o, j, (Nat.le_of_dvd hspos hdvd).trans_lt hs, Nat.mul_comm _ _⟩

theorem infinity_lt_signBit (f : Format) : f.infinity < f.signBit := by
  have hpos : 0 < 2 ^ f.mantissa := by positivity
  have hexponent : 0 < 2 ^ f.exponent := by positivity
  rw [infinity, signBit, pow_add]
  exact Nat.mul_lt_mul_of_pos_right (by omega) hpos

theorem signBit_pos (f : Format) : 0 < f.signBit := by
  unfold signBit
  positivity

theorem encode_le_infinity (f : Format) (q : ℚ) : f.encode q ≤ f.infinity := min_le_right _ _

theorem encode_eq (hq : 0 ≤ q) :
    f.encode q < f.infinity ∧ f.magnitude (f.encode q) = f.nearest q ∨
      f.encode q = f.infinity ∧ 2 ^ f.top ≤ f.nearest q := by
  rcases Nat.lt_or_ge (f.code q) f.infinity with hlt | hge
  · left
    rw [encode, min_eq_left hlt.le]
    exact ⟨hlt, magnitude_code f hq⟩
  · right
    rw [encode, min_eq_right hge]
    refine ⟨rfl, not_lt.mp ?_⟩
    rw [← code_lt_infinity_iff hq]
    exact not_lt.mpr hge

theorem decode_sign_encode {s : ℕ} (f : Format) (hq : 0 ≤ q) :
    f.decode (s * f.signBit + f.encode q) =
      if f.nearest q < 2 ^ f.top then some (if s = 0 then f.nearest q else -f.nearest q)
      else none := by
  have hsmall : f.encode q < f.signBit := (encode_le_infinity f q).trans_lt (infinity_lt_signBit f)
  have hpos := signBit_pos f
  have hmod : (s * f.signBit + f.encode q) % f.signBit = f.encode q := by
    rw [Nat.mul_comm, Nat.mul_add_mod, Nat.mod_eq_of_lt hsmall]
  have hdiv : (s * f.signBit + f.encode q) / f.signBit = s := by
    rw [Nat.mul_comm, Nat.mul_add_div hpos, Nat.div_eq_of_lt hsmall, add_zero]
  rw [decode, hmod, hdiv]
  rcases encode_eq (f := f) hq with ⟨hlt, hmag⟩ | ⟨heq, htop⟩
  · have hnear : f.nearest q < 2 ^ f.top := by
      rw [← hmag]
      exact magnitude_lt_top_iff.mpr hlt
    rw [if_pos hlt, if_pos hnear, hmag]
  · rw [heq, if_neg (lt_irrefl _), if_neg (not_lt.mpr htop)]

theorem decode_ofRat (f : Format) (q : ℚ) :
    f.decode (f.ofRat q) = if |f.nearest q| < 2 ^ f.top then some (f.nearest q) else none := by
  have habs := nearest_abs f q
  rcases lt_or_ge q 0 with hneg | hpos
  · have hbits : f.ofRat q = 1 * f.signBit + f.encode |q| := by
      rw [ofRat, if_pos hneg, one_mul]
    have hnear : -f.nearest |q| = f.nearest q := by
      rw [abs_of_neg hneg, nearest_neg, neg_neg]
    rw [hbits, decode_sign_encode f (abs_nonneg q), if_neg one_ne_zero, hnear, habs]
  · have hbits : f.ofRat q = 0 * f.signBit + f.encode |q| := by
      rw [ofRat, if_neg (not_lt.mpr hpos), zero_mul]
    have hnear : f.nearest |q| = f.nearest q := by rw [abs_of_nonneg hpos]
    rw [hbits, decode_sign_encode f (abs_nonneg q), if_pos rfl, ← habs, hnear]

theorem ofRat_lt (f : Format) (q : ℚ) : f.ofRat q < 2 * f.signBit := by
  have hencode := (encode_le_infinity f |q|).trans_lt (infinity_lt_signBit f)
  unfold ofRat
  split <;> omega

theorem convert_lt {g : Format} {bits : ℕ} (hbits : bits < 2 * f.signBit)
    (h : f.isNaN bits = false) : f.convert g bits < 2 * g.signBit := by
  have hsign : bits / f.signBit ≤ 1 := by
    rw [← Nat.lt_succ_iff, Nat.div_lt_iff_lt_mul (signBit_pos f)]
    exact hbits
  have hmul := Nat.mul_le_mul_right g.signBit hsign
  have hinf := infinity_lt_signBit g
  have hencode := encode_le_infinity g (f.magnitude (bits % f.signBit))
  rw [convert, if_neg (of_decide_eq_false h)]
  split <;> omega

theorem decode_convert {f : Format} (g : Format) {bits : ℕ} {v : ℚ}
    (h : f.decode bits = some v) : g.decode (f.convert g bits) =
      if |g.nearest v| < 2 ^ g.top then some (g.nearest v) else none := by
  rw [decode] at h
  split at h
  case isFalse => cases h
  case isTrue hfinite =>
    have hval := Option.some.inj h
    have hnonneg := magnitude_nonneg f (bits % f.signBit)
    have habs : |v| = f.magnitude (bits % f.signBit) := by
      rw [← hval]
      split
      · exact abs_of_nonneg hnonneg
      · rw [abs_neg, abs_of_nonneg hnonneg]
    have hsign : (if bits / f.signBit = 0 then g.nearest |v| else -g.nearest |v|) = g.nearest v := by
      rw [habs, ← hval]
      split
      · rfl
      · rw [nearest_neg]
    rw [convert, if_neg (not_lt.mpr hfinite.le), if_neg hfinite.ne, ← habs,
      decode_sign_encode g (abs_nonneg v), hsign, nearest_abs]

theorem nearest_decode {bits : ℕ} {v : ℚ} (h : f.decode bits = some v) : f.nearest v = v := by
  rw [decode] at h
  split at h
  case isFalse => cases h
  case isTrue =>
    rw [← Option.some.inj h]
    split
    · exact nearest_magnitude f _
    · rw [nearest_neg, nearest_magnitude]

theorem not_nan_of_decode {bits : ℕ} {v : ℚ} (h : f.decode bits = some v) :
    f.isNaN bits = false := by
  rw [decode] at h
  split at h
  case isFalse => cases h
  case isTrue hfinite => exact decide_eq_false (not_lt.mpr hfinite.le)

/-- A number of a format has the same value in a wider one. -/
theorem nearest_wider {f g : Format} (hmantissa : f.mantissa ≤ g.mantissa)
    (hexponent : f.exponent ≤ g.exponent) (c : ℕ) :
    g.nearest (f.magnitude c) = f.magnitude c := by
  by_cases hc : c = 0
  · subst hc
    have hzero : f.magnitude 0 = g.magnitude 0 := by simp [magnitude, significand]
    rw [hzero, nearest_magnitude]
  · apply nearest_eq_self (m := f.significand c) (p := f.place c)
    · rw [magnitude, Int.cast_natCast]
    · have hown := lastPlace_magnitude (f := f) hc
      have hpow : 2 ^ (f.exponent - 1) ≤ 2 ^ (g.exponent - 1) :=
        Nat.pow_le_pow_right Nat.two_pos (by omega)
      have hpow : (2 : ℤ) ^ (f.exponent - 1) ≤ 2 ^ (g.exponent - 1) := by exact_mod_cast hpow
      rw [lastPlace, minPlace] at hown ⊢
      omega

theorem convert_convert {f g : Format} (hmantissa : f.mantissa ≤ g.mantissa)
    (hexponent : f.exponent ≤ g.exponent) {bits : ℕ} (h : f.isNaN bits = false) :
    g.convert f (f.convert g bits) = bits := by
  have hle : bits % f.signBit ≤ f.infinity := not_lt.mp (of_decide_eq_false h)
  have hpos := signBit_pos g
  have hbits : bits / f.signBit * f.signBit + bits % f.signBit = bits := Nat.div_add_mod' _ _
  generalize hc : bits % f.signBit = c at hle hbits
  -- what the conversion makes of the bits without the sign
  obtain ⟨d, hconvert, hd, hback⟩ : ∃ d, f.convert g bits = bits / f.signBit * g.signBit + d ∧
      d ≤ g.infinity ∧ (if d = g.infinity then f.infinity else f.encode (g.magnitude d)) = c := by
    rw [convert, hc, if_neg (not_lt.mpr hle)]
    rcases hle.eq_or_lt with hinf | hfinite
    · rw [if_pos hinf]
      exact ⟨_, rfl, le_rfl, by rw [if_pos rfl, hinf]⟩
    · rw [if_neg hfinite.ne]
      refine ⟨_, rfl, encode_le_infinity _ _, ?_⟩
      have hsame := nearest_wider hmantissa hexponent c
      have htop : f.magnitude c < 2 ^ g.top := by
        have hpow : f.top ≤ g.top := by
          have hpow : 2 ^ (f.exponent - 1) ≤ 2 ^ (g.exponent - 1) :=
            Nat.pow_le_pow_right Nat.two_pos (by omega)
          unfold top
          exact_mod_cast hpow
        exact (magnitude_lt_top_iff.mpr hfinite).trans_le (zpow_le_zpow_right₀ (by norm_num) hpow)
      rcases encode_eq (f := g) (magnitude_nonneg f c) with ⟨hlt, hmag⟩ | ⟨-, hlarge⟩
      · rw [if_neg hlt.ne, hmag, hsame, encode_magnitude hfinite]
      · rw [hsame] at hlarge
        exact absurd htop (not_lt.mpr hlarge)
  have hlt : d < g.signBit := hd.trans_lt (infinity_lt_signBit g)
  have hmod : (bits / f.signBit * g.signBit + d) % g.signBit = d := by
    rw [Nat.mul_comm, Nat.mul_add_mod, Nat.mod_eq_of_lt hlt]
  have hdiv : (bits / f.signBit * g.signBit + d) / g.signBit = bits / f.signBit := by
    rw [Nat.mul_comm, Nat.mul_add_div hpos, Nat.div_eq_of_lt hlt, add_zero]
  rw [hconvert, convert, hmod, hdiv, if_neg (not_lt.mpr hd), hback, hbits]

end Format

end Binary
