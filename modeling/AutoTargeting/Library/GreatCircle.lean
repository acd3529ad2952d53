import Mathlib.Analysis.InnerProductSpace.PiL2
import Mathlib.Analysis.SpecialFunctions.Trigonometric.Inverse
import Mathlib.Geometry.Euclidean.Angle.Unoriented.TriangleInequality

namespace GreatCircle

open Real

/-- The unit vector to a place. -/
noncomputable def onSphere (lat lon : ℝ) : EuclideanSpace ℝ (Fin 3) :=
  (EuclideanSpace.equiv (Fin 3) ℝ).symm ![cos lat * cos lon, cos lat * sin lon, sin lat]

theorem onSphere_apply (lat lon : ℝ) (i : Fin 3) :
    onSphere lat lon i = ![cos lat * cos lon, cos lat * sin lon, sin lat] i := rfl

theorem inner_onSphere (lat lon lat' lon' : ℝ) :
    inner ℝ (onSphere lat lon) (onSphere lat' lon') =
      cos lat * cos lat' * cos (lon' - lon) + sin lat * sin lat' := by
  simp only [PiLp.inner_apply, onSphere_apply, Fin.sum_univ_three, cos_sub, RCLike.inner_apply,
    conj_trivial, Matrix.cons_val]
  ring

theorem norm_onSphere (lat lon : ℝ) : ‖onSphere lat lon‖ = 1 := by
  rw [← sq_eq_sq₀ (norm_nonneg _) zero_le_one, ← real_inner_self_eq_norm_sq, inner_onSphere,
    sub_self, cos_zero]
  linear_combination cos_sq_add_sin_sq lat

noncomputable def angle (lat lon lat' lon' : ℝ) : ℝ :=
  InnerProductGeometry.angle (onSphere lat lon) (onSphere lat' lon')

theorem cos_angle (lat lon lat' lon' : ℝ) :
    cos (angle lat lon lat' lon') = inner ℝ (onSphere lat lon) (onSphere lat' lon') := by
  rw [angle, InnerProductGeometry.cos_angle, norm_onSphere, norm_onSphere]
  simp

theorem angle_nonneg (lat lon lat' lon' : ℝ) : 0 ≤ angle lat lon lat' lon' :=
  InnerProductGeometry.angle_nonneg _ _

theorem angle_le_pi (lat lon lat' lon' : ℝ) : angle lat lon lat' lon' ≤ π :=
  InnerProductGeometry.angle_le_pi _ _

theorem angle_comm (lat lon lat' lon' : ℝ) : angle lat lon lat' lon' = angle lat' lon' lat lon :=
  InnerProductGeometry.angle_comm _ _

theorem angle_triangle (lat lon lat' lon' lat'' lon'' : ℝ) :
    angle lat lon lat'' lon'' ≤ angle lat lon lat' lon' + angle lat' lon' lat'' lon'' :=
  InnerProductGeometry.angle_le_angle_add_angle _ _ _

theorem sin_half_sq (x : ℝ) : sin (x / 2) ^ 2 = (1 - cos x) / 2 := by
  rw [sin_sq_eq_half_sub, mul_div_cancel₀ x two_ne_zero]
  ring

/-- The haversine of the central angle, from the differences of the coordinates. -/
theorem haversine_eq (lat lon lat' lon' : ℝ) :
    sin ((lat' - lat) / 2) ^ 2 + cos lat * cos lat' * sin ((lon' - lon) / 2) ^ 2 =
      sin (angle lat lon lat' lon' / 2) ^ 2 := by
  rw [sin_half_sq, sin_half_sq, sin_half_sq, cos_angle, inner_onSphere, cos_sub lat' lat]
  ring

theorem two_arcsin_sqrt_haversine (lat lon lat' lon' : ℝ) :
    2 * arcsin √(sin ((lat' - lat) / 2) ^ 2 + cos lat * cos lat' * sin ((lon' - lon) / 2) ^ 2) =
      angle lat lon lat' lon' := by
  have h0 := angle_nonneg lat lon lat' lon'
  have hpi := angle_le_pi lat lon lat' lon'
  have hsin : 0 ≤ sin (angle lat lon lat' lon' / 2) :=
    sin_nonneg_of_nonneg_of_le_pi (by linarith) (by linarith)
  rw [haversine_eq, sqrt_sq hsin, arcsin_sin (by linarith) (by linarith)]
  ring

end GreatCircle
