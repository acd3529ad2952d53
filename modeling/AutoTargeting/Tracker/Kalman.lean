import AutoTargeting.Control.Types
import AutoTargeting.Library.PlanarMap
import Mathlib.Algebra.Order.Field.Basic
import Mathlib.Data.Rat.Cast.Defs

namespace AutoTargeting.Tracker

open Control (BoundingBox)

/-- `State`: position and velocity, in pixels and pixels per second. -/
structure KalmanState (F : Type*) where
  x : F
  y : F
  vx : F
  vy : F
  deriving DecidableEq

structure KalmanFilter2D (F : Type*) where
  state : KalmanState F
  processNoise : F
  measurementNoise : F
  deriving DecidableEq

section
variable {F : Type*} [Field F] [LinearOrder F]

def KalmanState.atPosition (x y : F) : KalmanState F := ⟨x, y, 0, 0⟩

namespace KalmanFilter2D

def withNoise (x y process measurement : F) : KalmanFilter2D F :=
  ⟨.atPosition x y, process, measurement⟩

def new (x y : F) : KalmanFilter2D F := withNoise x y 1 4

-- In the steps, `fl` is what `f32` makes of a result.

def predict (fl : F → F) (dt : F) (k : KalmanFilter2D F) : KalmanFilter2D F :=
  { k with
    state := { k.state with
      x := fl (k.state.x + fl (k.state.vx * dt))
      y := fl (k.state.y + fl (k.state.vy * dt)) } }

/-- The velocity that `update` blends from the old one and a residual. -/
def smoothed (fl : F → F) (v residual : F) : F :=
  let alpha := fl (3 / 10)
  fl (fl (fl (1 - alpha) * v) + fl (alpha * residual))

def update (fl : F → F) (obsX obsY dt : F) (k : KalmanFilter2D F) : KalmanFilter2D F :=
  let gain := fl (k.measurementNoise / fl (k.measurementNoise + k.processNoise))
  let invGain := fl (1 - gain)
  let predX := k.state.x
  let predY := k.state.y
  let x := fl (fl (invGain * predX) + fl (gain * obsX))
  let y := fl (fl (invGain * predY) + fl (gain * obsY))
  if fl (1 / 10 ^ 6) < dt then
    let residualVx := fl (fl (obsX - predX) / dt)
    let residualVy := fl (fl (obsY - predY) / dt)
    { k with state := ⟨x, y, smoothed fl k.state.vx residualVx, smoothed fl k.state.vy residualVy⟩ }
  else { k with state := { k.state with x, y } }

def position (k : KalmanFilter2D F) : F × F := (k.state.x, k.state.y)

def velocity (k : KalmanFilter2D F) : F × F := (k.state.vx, k.state.vy)

end KalmanFilter2D

def center (fl : F → F) (b : BoundingBox) : F × F :=
  (fl (fl b.x + fl (fl b.width / 2)), fl (fl b.y + fl (fl b.height / 2)))

def KalmanFilter2D.updateFromBbox (fl : F → F) (bbox : BoundingBox) (dt : F)
    (k : KalmanFilter2D F) : KalmanFilter2D F :=
  k.update fl (center fl bbox).1 (center fl bbox).2 dt

end

open Filter Topology

structure Axis (F : Type*) where
  pos : F
  vel : F

namespace Axis

variable {F : Type*} [Field F]

def advance (dt : F) (a : Axis F) : Axis F := ⟨a.pos + a.vel * dt, a.vel⟩

def observe (obs dt : F) (a : Axis F) : Axis F :=
  ⟨1 / 5 * a.pos + 4 / 5 * obs, 7 / 10 * a.vel + 3 / 10 * ((obs - a.pos) / dt)⟩

end Axis

namespace KalmanFilter2D

section
variable {F : Type*} [Field F]

def xAxis (k : KalmanFilter2D F) : Axis F := ⟨k.state.x, k.state.vx⟩

def yAxis (k : KalmanFilter2D F) : Axis F := ⟨k.state.y, k.state.vy⟩

/-- The noise of `new`. -/
def Standard (k : KalmanFilter2D F) : Prop := k.processNoise = 1 ∧ k.measurementNoise = 4

theorem standard_new (x y : F) : (new x y).Standard := ⟨rfl, rfl⟩

theorem Standard.predict {k : KalmanFilter2D F} (h : k.Standard) (dt : F) :
    (k.predict id dt).Standard := h

end

section
variable {F : Type*} [Field F] [LinearOrder F] {k : KalmanFilter2D F} {dt : F}

theorem Standard.update (h : k.Standard) (obsX obsY dt : F) :
    (k.update id obsX obsY dt).Standard := by
  unfold KalmanFilter2D.update
  dsimp only
  split <;> exact h

def rounds (obs : ℕ → F × F) (dt : F) (k : KalmanFilter2D F) : ℕ → KalmanFilter2D F
  | 0 => k
  | n + 1 => ((rounds obs dt k n).predict id dt).update id (obs n).1 (obs n).2 dt

/-- Updates alone, as a track calls them while it is matched. -/
def updates (obs : ℕ → F × F) (dt : F) (k : KalmanFilter2D F) : ℕ → KalmanFilter2D F
  | 0 => k
  | n + 1 => (updates obs dt k n).update id (obs n).1 (obs n).2 dt

theorem Standard.rounds (h : k.Standard) (obs : ℕ → F × F) (dt : F) (n : ℕ) :
    (k.rounds obs dt n).Standard := by
  induction n with
  | zero => exact h
  | succ n ih => exact (ih.predict dt).update _ _ _

theorem Standard.updates (h : k.Standard) (obs : ℕ → F × F) (dt : F) (n : ℕ) :
    (k.updates obs dt n).Standard := by
  induction n with
  | zero => exact h
  | succ n ih => exact ih.update _ _ _

variable [IsStrictOrderedRing F]

theorem Standard.update_axes (h : k.Standard) (hdt : 1 / 10 ^ 6 < dt) (obsX obsY : F) :
    (k.update id obsX obsY dt).xAxis = k.xAxis.observe obsX dt ∧
      (k.update id obsX obsY dt).yAxis = k.yAxis.observe obsY dt := by
  have hgain : (4 / (4 + 1) : F) = 4 / 5 := by norm_num
  have hinv : (1 - 4 / 5 : F) = 1 / 5 := by norm_num
  have halpha : (1 - 3 / 10 : F) = 7 / 10 := by norm_num
  obtain ⟨hprocess, hmeasurement⟩ := h
  simp only [KalmanFilter2D.update, smoothed, id, hprocess, hmeasurement, hgain, hinv, halpha,
    if_pos hdt, xAxis, yAxis, Axis.observe, and_self]

theorem Standard.rounds_axes (h : k.Standard) (hdt : 1 / 10 ^ 6 < dt) (obs : ℕ → F × F) (n : ℕ) :
    (k.rounds obs dt (n + 1)).xAxis = ((k.rounds obs dt n).xAxis.advance dt).observe (obs n).1 dt ∧
      (k.rounds obs dt (n + 1)).yAxis =
        ((k.rounds obs dt n).yAxis.advance dt).observe (obs n).2 dt :=
  ((h.rounds obs dt n).predict dt).update_axes hdt _ _

theorem Standard.updates_axes (h : k.Standard) (hdt : 1 / 10 ^ 6 < dt) (obs : ℕ → F × F) (n : ℕ) :
    (k.updates obs dt (n + 1)).xAxis = (k.updates obs dt n).xAxis.observe (obs n).1 dt ∧
      (k.updates obs dt (n + 1)).yAxis = (k.updates obs dt n).yAxis.observe (obs n).2 dt :=
  (h.updates obs dt n).update_axes hdt _ _

end

end KalmanFilter2D

section
variable {F : Type*} [Field F] [LinearOrder F] [IsStrictOrderedRing F] {dt : F}

/-- What a round makes of the velocity, in pixels per round, and of the distance to the target. -/
def restMap : PlanarMap F := ⟨2 / 5, -3 / 10, 1 / 5, 1 / 5⟩

theorem restMap_form (p : F × F) : 1 / 4 * p.2 ^ 2 ≤ restMap.form p := by
  have hsq := sq_nonneg (p.1 - 1 / 2 * p.2)
  simp only [PlanarMap.form, restMap]
  linarith

/-- The determinant of the map is below the square of 3/5, by more than the first factor. -/
theorem restMap_pow (n : ℕ) :
    (6 / 5 : F) * restMap.det ^ (n + 1) ≤ ((3 / 5) ^ (n + 1)) ^ 2 := by
  have hdet : (restMap : PlanarMap F).det = 7 / 50 := by norm_num [PlanarMap.det, restMap]
  have hpos : (0 : F) ≤ (9 / 25) ^ n := by positivity
  have hle : (7 / 50 : F) ^ n ≤ (9 / 25) ^ n := by
    apply pow_le_pow_left₀ <;> norm_num
  have hsq : ((3 / 5 : F) ^ (n + 1)) ^ 2 = (9 / 25) ^ n * (9 / 25) := by
    rw [← pow_mul, mul_comm (n + 1) 2, pow_mul, ← pow_succ]
    norm_num
  rw [hdet, hsq, pow_succ]
  linarith

theorem rest_axis {target : F} {a : ℕ → Axis F} (hdt : dt ≠ 0) (h0 : (a 0).vel = 0)
    (hstep : ∀ n, a (n + 1) = ((a n).advance dt).observe target dt) (n : ℕ) :
    |(a n).pos - target| ≤ (3 / 5) ^ n * |(a 0).pos - target| := by
  cases n with
  | zero => simp
  | succ n =>
    -- the velocity per round, and the distance
    let p : ℕ → F × F := fun n => ((a n).vel * dt, (a n).pos - target)
    have hp : ∀ n, p (n + 1) = restMap.apply (p n) := by
      intro n
      simp only [p, hstep, Axis.observe, Axis.advance, PlanarMap.apply, restMap, Prod.mk.injEq]
      constructor
      · field_simp
        ring
      · ring
    have hform : restMap.form (p 0) = 3 / 10 * ((a 0).pos - target) ^ 2 := by
      simp only [PlanarMap.form, restMap, p, h0]
      ring
    have hsq := restMap.sq_iterate_le restMap_form (n + 1) (p 0)
    rw [← PlanarMap.eq_iterate hp, hform] at hsq
    -- the form bounds the distance; its determinant decays faster than the square of 3/5
    have hpow := mul_le_mul_of_nonneg_right (restMap_pow (F := F) n) (sq_nonneg ((a 0).pos - target))
    have hle : ((a (n + 1)).pos - target) ^ 2 ≤
        ((3 / 5) ^ (n + 1) * |(a 0).pos - target|) ^ 2 := by
      rw [mul_pow, sq_abs]
      simp only [p] at hsq
      linarith
    exact abs_le_of_sq_le_sq hle (by positivity)

open KalmanFilter2D in
/-- Rounds at a target at rest: each leaves at most 3/5 of the distance. -/
theorem position_converges (x y targetX targetY : F) (hdt : 1 / 10 ^ 6 < dt) (n : ℕ) :
    |((KalmanFilter2D.new x y).rounds (fun _ => (targetX, targetY)) dt n).position.1 - targetX|
        ≤ (3 / 5) ^ n * |x - targetX| ∧
      |((KalmanFilter2D.new x y).rounds (fun _ => (targetX, targetY)) dt n).position.2 - targetY|
        ≤ (3 / 5) ^ n * |y - targetY| := by
  have hne : dt ≠ 0 := ((by positivity : (0 : F) < 1 / 10 ^ 6).trans hdt).ne'
  have haxes := (standard_new x y).rounds_axes hdt fun _ => (targetX, targetY)
  exact ⟨rest_axis (a := fun n => ((new x y).rounds (fun _ => (targetX, targetY)) dt n).xAxis) hne rfl
      (fun n => (haxes n).1) n,
    rest_axis (a := fun n => ((new x y).rounds (fun _ => (targetX, targetY)) dt n).yAxis) hne rfl
      (fun n => (haxes n).2) n⟩

theorem position_converges_from_origin :
    |((KalmanFilter2D.new (0 : ℚ) 0).rounds (fun _ => (100, 50)) (1 / 30) 2).position.1 - 100|
        ≤ (3 / 5) ^ 2 * |(0 : ℚ) - 100| ∧
      |((KalmanFilter2D.new (0 : ℚ) 0).rounds (fun _ => (100, 50)) (1 / 30) 2).position.2 - 50|
        ≤ (3 / 5) ^ 2 * |(0 : ℚ) - 50| :=
  position_converges 0 0 100 50 (by norm_num) 2

end

section
variable {dt : ℝ}

/-- Where the target is at each observation. -/
def moving (start velocity : ℝ × ℝ) (dt : ℝ) (n : ℕ) : ℝ × ℝ :=
  start + ((n + 1) * dt) • velocity

theorem eq_geometric {r : ℝ} {s : ℕ → ℝ} (h : ∀ n, s (n + 1) = r * s n) (n : ℕ) :
    s n = r ^ n * s 0 := by
  induction n with
  | zero => simp
  | succ n ih => rw [h, ih, pow_succ', mul_assoc]

/-- Without predictions, the residual has what the target moves while the filter is behind, too. -/
theorem updates_axis {start v : ℝ} {a : ℕ → Axis ℝ} (hdt : dt ≠ 0)
    (hstep : ∀ n, a (n + 1) = (a n).observe (start + (n + 1) * dt * v) dt) :
    Tendsto (fun n => (a n).vel) atTop (𝓝 (5 / 4 * v)) := by
  -- the residual, from its limit
  let w : ℕ → ℝ := fun n => (start + (n + 1) * dt * v - (a n).pos) / dt - 5 / 4 * v
  have hw : ∀ n, w (n + 1) = 1 / 5 * w n := by
    intro n
    simp only [w, hstep, Axis.observe]
    push_cast
    field_simp
    ring
  -- with this multiple of the residual the velocity decays on its own
  have hu : ∀ n, (a (n + 1)).vel - 5 / 4 * v + 3 / 5 * w (n + 1) =
      7 / 10 * ((a n).vel - 5 / 4 * v + 3 / 5 * w n) := by
    intro n
    rw [hw]
    simp only [w, hstep, Axis.observe]
    ring
  have hvel : ∀ n, (a n).vel = 5 / 4 * v + (7 / 10) ^ n * ((a 0).vel - 5 / 4 * v + 3 / 5 * w 0) -
      3 / 5 * ((1 / 5) ^ n * w 0) := by
    intro n
    have hn := eq_geometric (s := fun n => (a n).vel - 5 / 4 * v + 3 / 5 * w n) hu n
    have hwn := eq_geometric hw n
    rw [← hwn]
    linarith
  have h7 : Tendsto (fun n : ℕ => (7 / 10 : ℝ) ^ n) atTop (𝓝 0) :=
    tendsto_pow_atTop_nhds_zero_of_lt_one (by norm_num) (by norm_num)
  have h1 : Tendsto (fun n : ℕ => (1 / 5 : ℝ) ^ n) atTop (𝓝 0) :=
    tendsto_pow_atTop_nhds_zero_of_lt_one (by norm_num) (by norm_num)
  have hlimit := ((h7.mul_const ((a 0).vel - 5 / 4 * v + 3 / 5 * w 0)).const_add (5 / 4 * v)).sub
    ((h1.mul_const (w 0)).const_mul (3 / 5))
  simp only [zero_mul, mul_zero, add_zero, sub_zero] at hlimit
  exact hlimit.congr fun n => (hvel n).symm

/-- What a round makes of the residual and the velocity, both taken from their limit. -/
def movingMap {F : Type*} [Field F] : PlanarMap F := ⟨-1 / 10, -7 / 10, 3 / 10, 7 / 10⟩

theorem movingMap_form (p : ℝ × ℝ) : 1 / 6 * p.2 ^ 2 ≤ movingMap.form p := by
  have hsq := sq_nonneg (p.1 + 4 / 3 * p.2)
  simp only [PlanarMap.form, movingMap]
  linarith

/-- With predictions, the velocity is drawn to a residual that it has made smaller. -/
theorem rounds_axis {start v : ℝ} {a : ℕ → Axis ℝ} (hdt : dt ≠ 0)
    (hstep : ∀ n, a (n + 1) = ((a n).advance dt).observe (start + (n + 1) * dt * v) dt) :
    Tendsto (fun n => (a n).vel) atTop (𝓝 (5 / 9 * v)) := by
  -- the residual after the prediction and the velocity, from their common limit
  let p : ℕ → ℝ × ℝ := fun n =>
    ((start + (n + 1) * dt * v - ((a n).pos + (a n).vel * dt)) / dt - 5 / 9 * v,
      (a n).vel - 5 / 9 * v)
  have hp : ∀ n, p (n + 1) = movingMap.apply (p n) := by
    intro n
    simp only [p, hstep, Axis.observe, Axis.advance, PlanarMap.apply, movingMap, Prod.mk.injEq]
    push_cast
    constructor
    · field_simp
      ring
    · ring
  have hdet : |(movingMap : PlanarMap ℝ).det| < 1 := by
    norm_num [PlanarMap.det, movingMap, abs_of_pos]
  have hzero := PlanarMap.tendsto_iterate (by norm_num) movingMap_form hdet (p 0)
  have hlimit := hzero.const_add (5 / 9 * v)
  rw [add_zero] at hlimit
  refine hlimit.congr fun n => ?_
  rw [← PlanarMap.eq_iterate hp]
  simp only [p]
  ring

namespace KalmanFilter2D

variable {x y : ℝ} {start velocity : ℝ × ℝ}

theorem updates_velocity (hdt : 1 / 10 ^ 6 < dt) :
    Tendsto (fun n => ((new x y).updates (moving start velocity dt) dt n).velocity) atTop
      (𝓝 ((5 / 4 : ℝ) • velocity)) := by
  have hne : dt ≠ 0 := ((by positivity : (0 : ℝ) < 1 / 10 ^ 6).trans hdt).ne'
  have haxes := (standard_new x y).updates_axes hdt (moving start velocity dt)
  have hx := updates_axis (a := fun n => ((new x y).updates (moving start velocity dt) dt n).xAxis)
    (v := velocity.1) hne fun n => (haxes n).1
  have hy := updates_axis (a := fun n => ((new x y).updates (moving start velocity dt) dt n).yAxis)
    (v := velocity.2) hne fun n => (haxes n).2
  exact hx.prodMk_nhds hy

theorem rounds_velocity (hdt : 1 / 10 ^ 6 < dt) :
    Tendsto (fun n => ((new x y).rounds (moving start velocity dt) dt n).velocity) atTop
      (𝓝 ((5 / 9 : ℝ) • velocity)) := by
  have hne : dt ≠ 0 := ((by positivity : (0 : ℝ) < 1 / 10 ^ 6).trans hdt).ne'
  have haxes := (standard_new x y).rounds_axes hdt (moving start velocity dt)
  have hx := rounds_axis (a := fun n => ((new x y).rounds (moving start velocity dt) dt n).xAxis)
    (v := velocity.1) hne fun n => (haxes n).1
  have hy := rounds_axis (a := fun n => ((new x y).rounds (moving start velocity dt) dt n).yAxis)
    (v := velocity.2) hne fun n => (haxes n).2
  exact hx.prodMk_nhds hy

/-- The velocity estimate tends to the velocity of the target, both ways. -/
def Unbiased (x y : ℝ) (start velocity : ℝ × ℝ) (dt : ℝ) : Prop :=
  Tendsto (fun n => ((new x y).updates (moving start velocity dt) dt n).velocity) atTop
      (𝓝 velocity) ∧
    Tendsto (fun n => ((new x y).rounds (moving start velocity dt) dt n).velocity) atTop
      (𝓝 velocity)

theorem smul_eq_self_iff {r : ℝ} (hr : r ≠ 1) (v : ℝ × ℝ) : r • v = v ↔ v = 0 := by
  constructor
  · intro h
    have hzero : (r - 1) • v = 0 := by rw [sub_smul, one_smul, h, sub_self]
    exact (smul_eq_zero.mp hzero).resolve_left (sub_ne_zero.mpr hr)
  · rintro rfl
    exact smul_zero r

/-- The estimate is right for targets at rest alone. -/
theorem unbiased_iff (x y : ℝ) (start velocity : ℝ × ℝ) (hdt : 1 / 10 ^ 6 < dt) :
    Unbiased x y start velocity dt ↔ velocity = 0 := by
  constructor
  · rintro ⟨h, -⟩
    exact (smul_eq_self_iff (by norm_num) velocity).mp (tendsto_nhds_unique (updates_velocity hdt) h)
  · intro h
    constructor
    · have hlimit : Tendsto (fun n => ((new x y).updates (moving start velocity dt) dt n).velocity)
          atTop (𝓝 ((5 / 4 : ℝ) • velocity)) := updates_velocity hdt
      rwa [(smul_eq_self_iff (by norm_num) velocity).mpr h] at hlimit
    · have hlimit : Tendsto (fun n => ((new x y).rounds (moving start velocity dt) dt n).velocity)
          atTop (𝓝 ((5 / 9 : ℝ) • velocity)) := rounds_velocity hdt
      rwa [(smul_eq_self_iff (by norm_num) velocity).mpr h] at hlimit

/-- The filter starts beside the target. -/
theorem unbiased_at_rest : Unbiased 300 200 (320, 240) 0 (1 / 30) :=
  (unbiased_iff 300 200 (320, 240) 0 (by norm_num)).mpr rfl

/-- A target at 100 pixels per second: the estimate of a track tends to 125. -/
theorem biased_in_motion : ¬ Unbiased 100 100 (100, 100) (100, 0) (1 / 10) := by
  rintro ⟨h, -⟩
  have hlimit := tendsto_nhds_unique (updates_velocity (by norm_num)) h
  norm_num at hlimit

end KalmanFilter2D

end

end AutoTargeting.Tracker
