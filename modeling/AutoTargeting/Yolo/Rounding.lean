import Mathlib.Data.Rat.Floor
import Mathlib.Algebra.Order.Round
import Mathlib.Tactic.Linarith

namespace AutoTargeting.Yolo

-- `f32` values are exact rationals here.

/-- `f32::round` and `std::round`: halves go away from zero. -/
def roundAway (x : ℚ) : ℚ := if 0 ≤ x then ⌊x + 1 / 2⌋ else -⌊-x + 1 / 2⌋

def clamp (lo hi x : ℚ) : ℚ := if x < lo then lo else if hi < x then hi else x

/-- `x as u32`: the fraction goes, and what does not fit is cut to the nearest value. -/
def asU32 (x : ℚ) : ℕ := min ⌊x⌋.toNat (2 ^ 32 - 1)

example : roundAway (5 / 2) = 3 ∧ roundAway (-5 / 2) = -3 ∧ roundAway (7 / 5) = 1 := by
  decide +kernel

/-- The whole number nearest to a value that is not negative. -/
def nearest (x : ℚ) : ℕ := ⌊x + 1 / 2⌋.toNat

theorem roundAway_eq_nearest {x : ℚ} (h : 0 ≤ x) : roundAway x = nearest x := by
  have hfloor : 0 ≤ ⌊x + 1 / 2⌋ := Int.floor_nonneg.mpr (by linarith)
  rw [roundAway, if_pos h, nearest]
  exact_mod_cast (Int.toNat_of_nonneg hfloor).symm

theorem nearest_le_iff {n : ℕ} {x : ℚ} : nearest x ≤ n ↔ x < n + 1 / 2 := by
  have hfloor : ⌊x + 1 / 2⌋ < (n : ℤ) + 1 ↔ x < n + 1 / 2 := by
    rw [Int.floor_lt]
    push_cast
    constructor <;> intro h <;> linarith
  rw [← hfloor, nearest]
  omega

theorem le_nearest_of_le {n : ℕ} {x : ℚ} (h : n - 1 / 2 ≤ x) : n ≤ nearest x := by
  have hfloor : (n : ℤ) ≤ ⌊x + 1 / 2⌋ := by
    apply Int.le_floor.mpr
    push_cast
    linarith
  unfold nearest
  omega

theorem nearest_eq {n : ℕ} {x : ℚ} (h1 : n - 1 / 2 ≤ x) (h2 : x < n + 1 / 2) : nearest x = n :=
  le_antisymm (nearest_le_iff.mpr h2) (le_nearest_of_le h1)

theorem nearest_bounds {x : ℚ} (h : 0 ≤ x) : (nearest x : ℚ) - 1 / 2 ≤ x ∧ x < nearest x + 1 / 2 := by
  refine ⟨?_, nearest_le_iff.mp le_rfl⟩
  by_contra hlt
  have hpos : 1 ≤ nearest x := by
    by_contra h0
    have h0 : nearest x = 0 := by omega
    rw [h0, Nat.cast_zero] at hlt
    linarith
  have hle : nearest x ≤ nearest x - 1 := by
    apply nearest_le_iff.mpr
    rw [Nat.cast_sub hpos]
    push_cast
    linarith
  omega

theorem nearest_le {n : ℕ} {x : ℚ} (h : x ≤ n) : nearest x ≤ n :=
  nearest_le_iff.mpr (by linarith)

theorem le_nearest {n : ℕ} {x : ℚ} (h : n ≤ x) : n ≤ nearest x :=
  le_nearest_of_le (by linarith)

theorem nearest_mono {x y : ℚ} (h : x ≤ y) : nearest x ≤ nearest y := by
  unfold nearest
  have := Int.floor_le_floor (show x + 1 / 2 ≤ y + 1 / 2 by linarith)
  omega

theorem nearest_natCast (n : ℕ) : nearest n = n :=
  le_antisymm (nearest_le le_rfl) (le_nearest le_rfl)

theorem asU32_natCast {n : ℕ} (h : n < 2 ^ 32) : asU32 n = n := by
  rw [asU32, Int.floor_natCast, Int.toNat_natCast]
  omega

theorem asU32_roundAway {W : ℕ} {x : ℚ} (hW : W < 2 ^ 32) (h0 : 0 ≤ x) (hx : x ≤ W) :
    asU32 (roundAway x) = nearest x := by
  rw [roundAway_eq_nearest h0]
  exact asU32_natCast ((nearest_le hx).trans_lt hW)

theorem clamp_mono {lo hi x y : ℚ} (hlo : lo ≤ hi) (h : x ≤ y) : clamp lo hi x ≤ clamp lo hi y := by
  unfold clamp
  split_ifs <;> linarith

theorem clamp_mem {lo hi : ℚ} (hlo : lo ≤ hi) (x : ℚ) : lo ≤ clamp lo hi x ∧ clamp lo hi x ≤ hi := by
  unfold clamp
  split_ifs <;> constructor <;> linarith

theorem clamp_eq_max_min {lo hi : ℚ} (hlo : lo ≤ hi) (x : ℚ) : clamp lo hi x = max lo (min hi x) := by
  unfold clamp
  split_ifs with h1 h2
  · rw [min_eq_right (by linarith), max_eq_left h1.le]
  · rw [min_eq_left h2.le, max_eq_right hlo]
  · rw [min_eq_right (not_lt.mp h2), max_eq_right (not_lt.mp h1)]

theorem roundAway_nonpos {x : ℚ} (h : x ≤ 0) : roundAway x ≤ 0 := by
  rcases h.eq_or_lt with rfl | h
  · exact (roundAway_eq_nearest le_rfl).trans_le (by exact_mod_cast nearest_le (n := 0) (by simp))
  · have hfloor : (0 : ℤ) ≤ ⌊-x + 1 / 2⌋ := Int.floor_nonneg.mpr (by linarith)
    rw [roundAway, if_neg (not_le.mpr h)]
    have : (0 : ℚ) ≤ ⌊-x + 1 / 2⌋ := by exact_mod_cast hfloor
    linarith

/-- It makes no difference whether a corner is rounded or clamped first. -/
theorem clamp_roundAway (W : ℕ) (x : ℚ) : clamp 0 W (roundAway x) = nearest (clamp 0 W x) := by
  by_cases hneg : x < 0
  · have hround := roundAway_nonpos hneg.le
    have h0 : clamp 0 W x = 0 := if_pos hneg
    rw [h0]
    have hzero : nearest 0 = 0 := nearest_natCast 0
    rw [hzero, clamp_eq_max_min (Nat.cast_nonneg W), Nat.cast_zero]
    exact max_eq_left ((min_le_right _ _).trans hround)
  · have hx : 0 ≤ x := not_lt.mp hneg
    rw [roundAway_eq_nearest hx]
    by_cases hW : W < x
    · have hclamp : clamp 0 W x = W := by rw [clamp, if_neg hneg, if_pos hW]
      have hle : W ≤ nearest x := le_nearest hW.le
      rw [hclamp, nearest_natCast, clamp_eq_max_min (Nat.cast_nonneg W),
        min_eq_left (by exact_mod_cast hle), max_eq_right (Nat.cast_nonneg W)]
    · have hclamp : clamp 0 W x = x := by rw [clamp, if_neg hneg, if_neg hW]
      have hle : nearest x ≤ W := nearest_le (not_lt.mp hW)
      rw [hclamp, clamp_eq_max_min (Nat.cast_nonneg W), min_eq_right (by exact_mod_cast hle),
        max_eq_right (Nat.cast_nonneg _)]

def offset (x : ℚ) : ℚ := x - nearest x

/-- The corners `a ≤ b` of a side lie alike in their pixels, or the side is too short to
matter. -/
def SizesAgree (a b : ℚ) : Prop :=
  (-1 / 2 ≤ offset b - offset a ∧ offset b - offset a < 1 / 2) ∨
    (nearest b ≤ nearest a + 1 ∧ b - a < 3 / 2)

/-- The distance of the rounded corners is the rounded distance of the corners, up to the
smallest size of 1, exactly if the corners lie alike. -/
theorem sizes_agree_iff {a b : ℚ} (hab : a ≤ b) :
    max (nearest b - nearest a) 1 = max 1 (nearest (b - a)) ↔ SizesAgree a b := by
  have hmono := nearest_mono hab
  have hcast : ((nearest b - nearest a : ℕ) : ℚ) = nearest b - nearest a := Nat.cast_sub hmono
  have hsmall : nearest (b - a) ≤ 1 ↔ b - a < 3 / 2 := by
    rw [nearest_le_iff]
    norm_num
  have hbounds := nearest_bounds (sub_nonneg.mpr hab)
  unfold SizesAgree offset
  rw [← hsmall]
  constructor
  · intro h
    by_cases hone : nearest b - nearest a ≤ 1 ∧ nearest (b - a) ≤ 1
    · exact .inr ⟨by omega, hone.2⟩
    · -- equal sizes beyond 1 are equal before the maximum, so the offsets differ by less
      have heq : nearest (b - a) = nearest b - nearest a := by omega
      rw [heq, hcast] at hbounds
      exact .inl ⟨by linarith, by linarith⟩
  · rintro (⟨h1, h2⟩ | ⟨h1, h2⟩)
    · have heq : nearest (b - a) = nearest b - nearest a :=
        nearest_eq (by rw [hcast]; linarith) (by rw [hcast]; linarith)
      rw [heq, max_comm]
    · omega

end AutoTargeting.Yolo
