import Mathlib.Analysis.SpecificLimits.Basic
import Mathlib.Analysis.Real.Sqrt
import Mathlib.Tactic.Linarith
import Mathlib.Tactic.Ring

/-- A matrix with rows `a b` and `c d`. -/
structure PlanarMap (R : Type*) where
  a : R
  b : R
  c : R
  d : R

namespace PlanarMap

variable {R : Type*}

def apply [Add R] [Mul R] (M : PlanarMap R) (p : R × R) : R × R :=
  (M.a * p.1 + M.b * p.2, M.c * p.1 + M.d * p.2)

/-- A sequence of points, each of which is the image of the one before. -/
theorem eq_iterate [Add R] [Mul R] {M : PlanarMap R} {p : ℕ → R × R}
    (h : ∀ n, p (n + 1) = M.apply (p n)) (n : ℕ) : p n = M.apply^[n] (p 0) := by
  induction n with
  | zero => rfl
  | succ n ih => rw [h, ih, Function.iterate_succ_apply']

section
variable [CommRing R] (M : PlanarMap R)

def det : R := M.a * M.d - M.b * M.c

/-- The area that a point spans with its image. -/
def form (p : R × R) : R := M.c * p.1 ^ 2 + (M.d - M.a) * (p.1 * p.2) - M.b * p.2 ^ 2

/-- The map changes all areas by its determinant. -/
theorem form_apply (p : R × R) : M.form (M.apply p) = M.det * M.form p := by
  simp only [form, apply, det]
  ring

theorem form_iterate (n : ℕ) (p : R × R) : M.form (M.apply^[n] p) = M.det ^ n * M.form p := by
  induction n with
  | zero => rw [Function.iterate_zero, id, pow_zero, one_mul]
  | succ n ih => rw [Function.iterate_succ_apply', form_apply, ih, pow_succ', mul_assoc]

/-- Where the form is definite, it bounds a coordinate of all iterates. -/
theorem sq_iterate_le [LinearOrder R] {k : R} (hk : ∀ p, k * p.2 ^ 2 ≤ M.form p) (n : ℕ)
    (p : R × R) : k * (M.apply^[n] p).2 ^ 2 ≤ M.det ^ n * M.form p := by
  rw [← form_iterate]
  exact hk _

end

/-- A map with a definite form and a determinant below 1 contracts. -/
theorem tendsto_iterate {M : PlanarMap ℝ} {k : ℝ} (hpos : 0 < k)
    (hk : ∀ p, k * p.2 ^ 2 ≤ M.form p) (hdet : |M.det| < 1) (p : ℝ × ℝ) :
    Filter.Tendsto (fun n => (M.apply^[n] p).2) Filter.atTop (nhds 0) := by
  have hbound : Filter.Tendsto (fun n => M.det ^ n * M.form p / k) Filter.atTop (nhds 0) := by
    have hpow := tendsto_pow_atTop_nhds_zero_iff.mpr hdet
    simpa using (hpow.mul_const (M.form p)).div_const k
  have hsq : Filter.Tendsto (fun n => (M.apply^[n] p).2 ^ 2) Filter.atTop (nhds 0) := by
    refine squeeze_zero (fun n => sq_nonneg _) (fun n => ?_) hbound
    rw [le_div_iff₀' hpos]
    exact M.sq_iterate_le hk n p
  have habs := hsq.sqrt
  simp only [Real.sqrt_sq_eq_abs, Real.sqrt_zero] at habs
  exact (tendsto_zero_iff_abs_tendsto_zero _).mpr habs

end PlanarMap
