import AutoTargeting.Yolo.Rounding

namespace AutoTargeting.Yolo

def inputSize : ℕ := 640

def minPositive : ℚ := 1 / 2 ^ 126

structure LetterboxParams where
  origW : ℕ
  origH : ℕ
  scale : ℚ
  padX : ℚ
  padY : ℚ
  deriving DecidableEq

def computeLetterbox (origW origH target : ℕ) : ℚ × ℚ × ℚ :=
  let scale := max (min (target / origW : ℚ) (target / origH)) minPositive
  let newW := origW * scale
  let newH := origH * scale
  (scale, (target - newW) * (1 / 2), (target - newH) * (1 / 2))

namespace LetterboxParams

def forSize (origW origH : ℕ) : LetterboxParams :=
  let t := computeLetterbox origW origH inputSize
  ⟨origW, origH, t.1, t.2.1, t.2.2⟩

def unprojectXy (p : LetterboxParams) (cx cy : ℚ) : ℚ × ℚ :=
  ((cx - p.padX) / p.scale, (cy - p.padY) / p.scale)

end LetterboxParams

/-- A frame size: two positive `u32`. -/
structure FrameSize where
  width : ℕ
  height : ℕ
  width_pos : 0 < width
  height_pos : 0 < height
  width_lt : width < 2 ^ 32
  height_lt : height < 2 ^ 32

namespace FrameSize

variable (f : FrameSize)

def params : LetterboxParams := .forSize f.width f.height

theorem minPositive_lt {n : ℕ} (h0 : 0 < n) (h : n < 2 ^ 32) :
    minPositive < (inputSize : ℚ) / n := by
  have hn : (0 : ℚ) < n := by exact_mod_cast h0
  have hlt : (n : ℚ) < 2 ^ 32 := by exact_mod_cast h
  have hsize : (inputSize : ℚ) = 640 := by norm_num [inputSize]
  rw [lt_div_iff₀ hn, hsize, minPositive]
  calc (1 / 2 ^ 126 : ℚ) * n ≤ 1 / 2 ^ 126 * 2 ^ 32 := by
        apply mul_le_mul_of_nonneg_left hlt.le
        positivity
    _ < 640 := by norm_num

/-- The guard against a scale of zero never acts. -/
theorem scale_eq : f.params.scale = min (inputSize / f.width : ℚ) (inputSize / f.height) :=
  max_eq_left (lt_min (minPositive_lt f.width_pos f.width_lt)
    (minPositive_lt f.height_pos f.height_lt)).le

theorem scale_pos : 0 < f.params.scale := by
  apply lt_max_of_lt_right
  unfold minPositive
  positivity

end FrameSize

end AutoTargeting.Yolo
