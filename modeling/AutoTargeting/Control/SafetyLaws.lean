import AutoTargeting.Control.Safety
import AutoTargeting.Library.GreatCircle

namespace AutoTargeting.Control.Safety

open Real

noncomputable scoped instance realSafetyFloat : SafetyFloat ℝ where
  decLt := Classical.decRel _
  decLe := Classical.decRel _
  ofRat q := q
  ofNat n := n
  abs x := |x|
  signum x := if x < 0 then -1 else 1
  toRadians x := x * (π / 180)

noncomputable scoped instance realF64Math : F64Math ℝ where
  ofRat q := q
  toRadians x := x * (π / 180)
  sin := sin
  cos := cos
  sqrt := sqrt
  asin := arcsin
  powi := (· ^ ·)

scoped instance realAsF32 : AsF32 ℝ ℝ where
  asF32 x := x

noncomputable def radians (x : ℝ) : ℝ := x * (π / 180)

/-- The distance is the radius of the earth times the angle between the two places. -/
theorem haversineDistance_eq (lat1 lon1 lat2 lon2 : ℝ) :
    (haversineDistance lat1 lon1 lat2 lon2 : ℝ) =
      6371000 * GreatCircle.angle (radians lat1) (radians lon1) (radians lat2) (radians lon2) := by
  have hlat : (lat2 - lat1) * (π / 180) = radians lat2 - radians lat1 := sub_mul _ _ _
  have hlon : (lon2 - lon1) * (π / 180) = radians lon2 - radians lon1 := sub_mul _ _ _
  rw [← GreatCircle.two_arcsin_sqrt_haversine]
  change ((6371000 : ℚ) : ℝ) * (((2 : ℚ) : ℝ) *
    arcsin √(sin ((lat2 - lat1) * (π / 180) / ((2 : ℚ) : ℝ)) ^ 2 + cos (radians lat1) *
      cos (radians lat2) * sin ((lon2 - lon1) * (π / 180) / ((2 : ℚ) : ℝ)) ^ 2)) = _
  rw [hlat, hlon]
  norm_num

theorem haversineDistance_self (lat lon : ℝ) : (haversineDistance lat lon lat lon : ℝ) = 0 := by
  have hne : GreatCircle.onSphere (radians lat) (radians lon) ≠ 0 := by
    intro h
    simpa [h] using GreatCircle.norm_onSphere (radians lat) (radians lon)
  rw [haversineDistance_eq, GreatCircle.angle, InnerProductGeometry.angle_self hne, mul_zero]

theorem haversineDistance_meridian (lat1 lat2 : ℝ) (hle : 0 ≤ lat2 - lat1)
    (hhalf : lat2 - lat1 ≤ 180) (lon : ℝ) :
    (haversineDistance lat1 lon lat2 lon : ℝ) = 6371000 * radians (lat2 - lat1) := by
  have hsub : radians lat2 - radians lat1 = radians (lat2 - lat1) := (sub_mul _ _ _).symm
  have hpos : 0 ≤ radians (lat2 - lat1) := mul_nonneg hle (by positivity)
  have hpi : radians (lat2 - lat1) ≤ π := by
    unfold radians
    nlinarith [pi_pos]
  have hsin : 0 ≤ sin (radians (lat2 - lat1) / 2) :=
    sin_nonneg_of_nonneg_of_le_pi (by linarith) (by linarith)
  rw [haversineDistance_eq, ← GreatCircle.two_arcsin_sqrt_haversine, hsub, sub_self, zero_div,
    sin_zero]
  rw [zero_pow two_ne_zero, mul_zero, add_zero, sqrt_sq hsin,
    arcsin_sin (by linarith) (by linarith)]
  ring

/-- No way round is shorter. -/
theorem haversineDistance_triangle (lat1 lon1 lat2 lon2 lat3 lon3 : ℝ) :
    (haversineDistance lat1 lon1 lat3 lon3 : ℝ) ≤
      haversineDistance lat1 lon1 lat2 lon2 + haversineDistance lat2 lon2 lat3 lon3 := by
  have htriangle := GreatCircle.angle_triangle (radians lat1) (radians lon1) (radians lat2)
    (radians lon2) (radians lat3) (radians lon3)
  rw [haversineDistance_eq, haversineDistance_eq, haversineDistance_eq]
  linarith

/-- The distance is measured along the surface: it is the radius times the angle of the places as
seen from the centre, so that it is symmetric, at most half way round, and no way is shorter. -/
theorem distance_along_surface (lat1 lon1 lat2 lon2 lat3 lon3 : ℝ) :
    (haversineDistance lat1 lon1 lat2 lon2 : ℝ) =
        6371000 * InnerProductGeometry.angle (GreatCircle.onSphere (radians lat1) (radians lon1))
          (GreatCircle.onSphere (radians lat2) (radians lon2)) ∧
      (haversineDistance lat1 lon1 lat2 lon2 : ℝ) = haversineDistance lat2 lon2 lat1 lon1 ∧
      (haversineDistance lat1 lon1 lat2 lon2 : ℝ) ≤ 6371000 * π ∧
      (haversineDistance lat1 lon1 lat3 lon3 : ℝ) ≤
        haversineDistance lat1 lon1 lat2 lon2 + haversineDistance lat2 lon2 lat3 lon3 := by
  refine ⟨haversineDistance_eq _ _ _ _, ?_, ?_, haversineDistance_triangle _ _ _ _ _ _⟩
  · rw [haversineDistance_eq, haversineDistance_eq, GreatCircle.angle_comm]
  · have hle := GreatCircle.angle_le_pi (radians lat1) (radians lon1) (radians lat2) (radians lon2)
    rw [haversineDistance_eq]
    linarith

abbrev Position := GlobalPosition ℝ ℝ

/-- How far a position is from home. -/
noncomputable def fromHome (home : ℝ × ℝ × ℝ) (pos : Position) : ℝ :=
  haversineDistance home.1 home.2.1 pos.lat pos.lon

/-- Home stays where it is, and each position is at most `d` metres from the one before. -/
def Drifts (d : ℝ) (pos : Position) : List (SafetyEvent ℝ ℝ) → Prop
  | [] => True
  | .setHome _ _ _ :: _ => False
  | .updateBattery _ _ :: es => Drifts d pos es
  | .updatePosition next :: es =>
    (haversineDistance pos.lat pos.lon next.lat next.lon : ℝ) ≤ d ∧ Drifts d next es

/-- The number of positions that the monitor is told. -/
def moves : List (SafetyEvent ℝ ℝ) → ℕ
  | [] => 0
  | .updatePosition _ :: es => moves es + 1
  | _ :: es => moves es

section
variable {F G : Type}

/-- One thing that the monitor is told changes no configuration. -/
theorem run_config (m : SafetyMonitor F G) (es : List (SafetyEvent F G)) :
    (m.run es).config = m.config ∧ (m.run es).geofence.config = m.geofence.config := by
  induction es generalizing m with
  | nil => exact ⟨rfl, rfl⟩
  | cons e es ih =>
    have hone : (m.run [e]).config = m.config ∧
        (m.run [e]).geofence.config = m.geofence.config := by
      cases e with
      | setHome lat lon altMsl => exact ⟨rfl, rfl⟩
      | updatePosition pos =>
        show (m.updatePosition pos).config = _ ∧ (m.updatePosition pos).geofence.config = _
        unfold SafetyMonitor.updatePosition
        split <;> exact ⟨rfl, rfl⟩
      | updateBattery voltage remainingPct =>
        show (m.updateBattery voltage remainingPct).config = _ ∧
          (m.updateBattery voltage remainingPct).geofence.config = _
        unfold SafetyMonitor.updateBattery
        split <;> exact ⟨rfl, rfl⟩
    exact ⟨(ih (m.run [e])).1.trans hone.1, (ih (m.run [e])).2.trans hone.2⟩

theorem updateBattery_geofence (m : SafetyMonitor F G) (voltage remainingPct : F) :
    (m.updateBattery voltage remainingPct).geofence = m.geofence ∧
      (m.updateBattery voltage remainingPct).config = m.config := by
  unfold SafetyMonitor.updateBattery
  split <;> exact ⟨rfl, rfl⟩

end

theorem run_home {m : SafetyMonitor ℝ ℝ} (h : m.geofence.home = none) {d : ℝ} {pos : Position}
    {es : List (SafetyEvent ℝ ℝ)} (hdrift : Drifts d pos es) : (m.run es).geofence.home = none := by
  induction es generalizing m pos with
  | nil => exact h
  | cons e es ih =>
    cases e with
    | setHome lat lon altMsl => exact hdrift.elim
    | updateBattery voltage remainingPct =>
      obtain ⟨hsame, -⟩ := updateBattery_geofence m voltage remainingPct
      exact ih (m := m.updateBattery voltage remainingPct) (hsame ▸ h) hdrift
    | updatePosition next =>
      refine ih (m := m.updatePosition next) ?_ hdrift.2
      unfold SafetyMonitor.updatePosition
      split <;> exact h

/-- A check without a finding says that the drone is within the fence. -/
theorem within_of_check {m : SafetyMonitor ℝ ℝ} (h : m.check = none)
    (henabled : m.config.enableGeofence = true) {home : ℝ × ℝ × ℝ} {pos : Position}
    (hhome : m.geofence.home = some home) (hpos : m.geofence.lastPosition = some pos) :
    fromHome home pos ≤ m.geofence.config.maxDistanceM := by
  unfold SafetyMonitor.check at h
  split at h
  · cases h
  · rw [if_pos ⟨henabled, by rw [hhome]; rfl⟩] at h
    have hcheck := Option.map_eq_none_iff.mp h
    unfold Geofence.check at hcheck
    rw [hhome, hpos, Option.bind_some, Option.bind_some] at hcheck
    unfold Geofence.violation at hcheck
    split at hcheck
    · cases hcheck
    · rename_i hnot
      exact not_lt.mp hnot

/-- Each position adds at most `d` to the distance. -/
theorem drift_from_home {m : SafetyMonitor ℝ ℝ} (henabled : m.config.enableGeofence = true)
    {home : ℝ × ℝ × ℝ} {pos : Position} (hhome : m.geofence.home = some home)
    (hpos : m.geofence.lastPosition = some pos) {d : ℝ} {es : List (SafetyEvent ℝ ℝ)}
    (hdrift : Drifts d pos es) :
    ∃ last, (m.run es).geofence.home = some home ∧
      (m.run es).geofence.lastPosition = some last ∧
      fromHome home last ≤ fromHome home pos + d * moves es := by
  induction es generalizing m pos with
  | nil => exact ⟨pos, hhome, hpos, by simp [moves]⟩
  | cons e es ih =>
    cases e with
    | setHome lat lon altMsl => exact hdrift.elim
    | updateBattery voltage remainingPct =>
      obtain ⟨hsame, hconfig⟩ := updateBattery_geofence m voltage remainingPct
      exact ih (m := m.updateBattery voltage remainingPct) (hconfig ▸ henabled) (hsame ▸ hhome)
        (hsame ▸ hpos) hdrift
    | updatePosition next =>
      have hnext : m.updatePosition next =
          { m with geofence := { m.geofence with lastPosition := some next } } := if_pos henabled
      obtain ⟨last, hlasthome, hlast, hle⟩ := ih (m := m.updatePosition next)
        (by rw [hnext]; exact henabled) (by rw [hnext]; exact hhome) (by rw [hnext]) hdrift.2
      refine ⟨last, hlasthome, hlast, hle.trans ?_⟩
      have htriangle : fromHome home next ≤
          fromHome home pos + haversineDistance pos.lat pos.lon next.lat next.lon :=
        haversineDistance_triangle _ _ _ _ _ _
      have hstep := hdrift.1
      simp only [moves, Nat.cast_add, Nat.cast_one]
      linarith

/-- After a check without a finding, a drone that makes at most `d` metres between two positions is
beyond the fence by at most `d` metres for each position since. -/
theorem geofence_overshoot {cfg : SafetyConfig ℝ} (henabled : cfg.enableGeofence = true) {d : ℝ}
    {es0 es : List (SafetyEvent ℝ ℝ)} {pos : Position}
    (hclean : ((SafetyMonitor.new cfg).run es0).check = none)
    (hpos : ((SafetyMonitor.new cfg).run es0).geofence.lastPosition = some pos)
    (hdrift : Drifts d pos es) (dist : ℝ)
    (hdist : ((SafetyMonitor.new cfg).run (es0 ++ es)).distanceFromHome = some dist) :
    dist ≤ cfg.geofence.maxDistanceM + d * moves es := by
  obtain ⟨hconfig, hgeofence⟩ := run_config (SafetyMonitor.new cfg : SafetyMonitor ℝ ℝ) es0
  have henabled' : ((SafetyMonitor.new cfg).run es0 : SafetyMonitor ℝ ℝ).config.enableGeofence =
      true := by rw [hconfig]; exact henabled
  have happend : (SafetyMonitor.new cfg : SafetyMonitor ℝ ℝ).run (es0 ++ es) =
      ((SafetyMonitor.new cfg).run es0).run es := List.foldl_append
  rw [happend] at hdist
  cases hhome : ((SafetyMonitor.new cfg).run es0 : SafetyMonitor ℝ ℝ).geofence.home with
  | none =>
    have hstill := run_home hhome hdrift
    simp only [SafetyMonitor.distanceFromHome, Geofence.distanceFromHome, hstill] at hdist
    cases hdist
  | some home =>
    have hwithin := within_of_check hclean henabled' hhome hpos
    rw [hgeofence] at hwithin
    obtain ⟨last, hlasthome, hlast, hle⟩ := drift_from_home henabled' hhome hpos hdrift
    simp only [SafetyMonitor.distanceFromHome, Geofence.distanceFromHome, hlasthome, hlast] at hdist
    obtain rfl := Option.some.inj hdist
    have hmax : (SafetyMonitor.new cfg : SafetyMonitor ℝ ℝ).geofence.config.maxDistanceM =
        cfg.geofence.maxDistanceM := rfl
    rw [hmax] at hwithin
    exact hle.trans (by linarith)

noncomputable def fenceOnly : SafetyConfig ℝ := ⟨.default, .default, true, false⟩

/-- Above the meridian of home. -/
def northOfHome (lat : ℝ) : Position := ⟨lat, 0, 1⟩

/-- A step of a ten-thousandth of a degree is one of eleven metres. -/
theorem northOfHome_step {lat lat' : ℝ} (h : lat' - lat = 1 / 10000) :
    (haversineDistance (northOfHome lat).lat (northOfHome lat).lon (northOfHome lat').lat
      (northOfHome lat').lon : ℝ) ≤ 15 := by
  have hlen := haversineDistance_meridian lat lat' (by rw [h]; norm_num)
    (by rw [h]; norm_num) 0
  simp only [northOfHome, hlen, h, radians]
  linarith [pi_le_four]

/-- From home to the north, twice. -/
theorem geofence_overshoot_home :
    ∃ dist, ((SafetyMonitor.new fenceOnly).run ([.setHome 0 0 0, .updatePosition (northOfHome 0)] ++
        [.updatePosition (northOfHome (1 / 10000)),
          .updatePosition (northOfHome (2 / 10000))])).distanceFromHome = some dist ∧
      0 < dist ∧ dist ≤ fenceOnly.geofence.maxDistanceM + 15 * (2 : ℕ) := by
  have hclean : ((SafetyMonitor.new fenceOnly).run
      [.setHome 0 0 0, .updatePosition (northOfHome 0)] : SafetyMonitor ℝ ℝ).check = none := by
    have hself : (haversineDistance (0 : ℝ) 0 0 0 : ℝ) = 0 := haversineDistance_self 0 0
    have hviolation : Geofence.violation fenceOnly.geofence ((0 : ℝ), (0 : ℝ), (0 : ℝ))
        (northOfHome 0) = none := by
      have hfence : (GeofenceConfig.default : GeofenceConfig ℝ) =
          ⟨((500 : ℚ) : ℝ), ((120 : ℚ) : ℝ), ((-10 : ℚ) : ℝ)⟩ := rfl
      simp only [Geofence.violation, northOfHome, hself, fenceOnly, hfence]
      norm_num
    exact congrArg (Option.map fun v => (SafetyViolation.geofence v, SafetyAction.rth)) hviolation
  have hdrift : Drifts 15 (northOfHome 0) [.updatePosition (northOfHome (1 / 10000)),
      .updatePosition (northOfHome (2 / 10000))] :=
    ⟨northOfHome_step (by norm_num), northOfHome_step (by norm_num), trivial⟩
  refine ⟨_, rfl, ?_, geofence_overshoot rfl hclean rfl hdrift _ rfl⟩
  have hlen := haversineDistance_meridian 0 (2 / 10000) (by norm_num)
    (by norm_num) 0
  have hpos : (0 : ℝ) < 6371000 * radians (2 / 10000 - 0) := by
    unfold radians
    positivity
  exact hpos.trans_eq hlen.symm

end AutoTargeting.Control.Safety
