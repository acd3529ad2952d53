import Mathlib.Algebra.Order.Field.Basic
import Mathlib.Data.Rat.Defs
import Mathlib.Tactic.Linarith
import Mathlib.Tactic.NormNum

-- The PID controller. Its `f32` arithmetic is exact here, in an ordered field.

namespace AutoTargeting.Control

variable {K : Type*} [Field K] [LinearOrder K]

structure PidConfig (K : Type*) where
  kp : K
  ki : K
  kd : K
  maxOutput : K
  minOutput : K
  deadband : K
  integralLimit : K
  derivativeFilter : K
  deriving DecidableEq, Repr

def PidConfig.default : PidConfig ℚ where
  kp := 2
  ki := 1 / 2
  kd := 1 / 10
  maxOutput := 30
  minOutput := -30
  deadband := 1 / 50
  integralLimit := 15
  derivativeFilter := 3 / 10

structure PidController (K : Type*) where
  config : PidConfig K
  integral : K
  prevError : K
  filteredDerivative : K
  initialized : Bool
  deriving DecidableEq, Repr

namespace PidController

def withConfig (config : PidConfig K) : PidController K := ⟨config, 0, 0, 0, false⟩

/-- `f32::clamp`, which panics where there is nothing between the limits. -/
def clamp (lo hi x : K) : Option K :=
  if lo ≤ hi then some (if x < lo then lo else if hi < x then hi else x) else none

/-- The control signal, and the controller after it. -/
def update (pid : PidController K) (error dt : K) : Option (K × PidController K) :=
  if dt ≤ 0 then some (0, pid)
  else if |error| < pid.config.deadband then
    some (0, { pid with integral := pid.integral * 0.9 })
  else do
    let p := pid.config.kp * error
    let integral ←
      clamp (-pid.config.integralLimit) pid.config.integralLimit (pid.integral + error * dt)
    let i := pid.config.ki * integral
    let derivative := if pid.initialized then (error - pid.prevError) / dt else 0
    let alpha := 1 - pid.config.derivativeFilter
    let filteredDerivative := alpha * derivative + (1 - alpha) * pid.filteredDerivative
    let d := pid.config.kd * filteredDerivative
    let output := p + i + d
    let clamped ← clamp pid.config.minOutput pid.config.maxOutput output
    let pid := { pid with integral, prevError := error, filteredDerivative, initialized := true }
    if clamped ≠ output then
      -- the part that was cut off is taken from the integral, whatever is left of it
      let saturation := output - clamped
      some (clamped, { pid with
        integral := integral - saturation / max pid.config.ki (1 / 1000000) })
    else some (output, pid)

end PidController

/-- What a configuration must be for `clamp` not to panic, and for the gain to have a sign. -/
structure Admissible (config : PidConfig K) : Prop where
  integralLimit : 0 ≤ config.integralLimit
  ki : 0 ≤ config.ki
  outputs : config.minOutput ≤ config.maxOutput

/-- What is said of every update that a controller makes for these errors and times. -/
def EveryUpdate (P : PidController K → K → K → Prop) : PidController K → List (K × K) → Prop
  | _, [] => True
  | pid, (error, dt) :: calls => P pid error dt ∧
      ∀ output pid', pid.update error dt = some (output, pid') → EveryUpdate P pid' calls

theorem everyUpdate_cons {P : PidController K → K → K → Prop} {pid pid' : PidController K}
    {error dt output : K} (h : pid.update error dt = some (output, pid')) (calls : List (K × K)) :
    EveryUpdate P pid ((error, dt) :: calls) ↔ P pid error dt ∧ EveryUpdate P pid' calls := by
  apply and_congr_right
  intro _
  constructor
  · intro hall
    exact hall output pid' h
  · intro hnext output' pid'' h'
    cases h.symm.trans h'
    exact hnext

def decidableEveryUpdate {P : PidController K → K → K → Prop}
    [∀ pid error dt, Decidable (P pid error dt)] :
    ∀ (pid : PidController K) (calls : List (K × K)), Decidable (EveryUpdate P pid calls)
  | _, [] => inferInstanceAs (Decidable True)
  | pid, (error, dt) :: calls =>
    match h : pid.update error dt with
    | none => decidable_of_iff (P pid error dt) ⟨fun hP => ⟨hP, fun _ _ h' => by
        cases h.symm.trans h'⟩, And.left⟩
    | some (_, pid') =>
      have := decidableEveryUpdate (P := P) pid' calls
      decidable_of_iff _ (everyUpdate_cons h calls).symm

instance {P : PidController K → K → K → Prop} [∀ pid error dt, Decidable (P pid error dt)]
    (pid : PidController K) (calls : List (K × K)) : Decidable (EveryUpdate P pid calls) :=
  decidableEveryUpdate pid calls

def IntegralLimited (pid : PidController K) : Prop :=
  |pid.integral| ≤ pid.config.integralLimit

/-- The update keeps the integral and its signal within their limits. -/
def StaysLimited (pid : PidController K) (error dt : K) : Prop :=
  ∃ output pid', pid.update error dt = some (output, pid') ∧ IntegralLimited pid' ∧
    (pid.config.minOutput ≤ output ∧ output ≤ pid.config.maxOutput ∨ output = 0)

section
variable (pid : PidController K) (error dt : K)

/-- The integral with this error in it. -/
def gathered : K :=
  max (-pid.config.integralLimit) (min pid.config.integralLimit (pid.integral + error * dt))

def slope : K := if pid.initialized then (error - pid.prevError) / dt else 0

def smoothed : K :=
  (1 - pid.config.derivativeFilter) * slope pid error dt +
    pid.config.derivativeFilter * pid.filteredDerivative

def unlimited : K :=
  pid.config.kp * error + pid.config.ki * gathered pid error dt +
    pid.config.kd * smoothed pid error dt

/-- The gain by which an excess is divided. -/
def backGain (config : PidConfig K) : K := max config.ki (1 / 1000000)

/-- An update that works with the error finds room for the excess in the integral. -/
def HasRoom : Prop :=
  0 < dt → pid.config.deadband ≤ |error| →
    unlimited pid error dt - pid.config.maxOutput ≤
        backGain pid.config * (gathered pid error dt + pid.config.integralLimit) ∧
      pid.config.minOutput - unlimited pid error dt ≤
        backGain pid.config * (pid.config.integralLimit - gathered pid error dt)

instance : Decidable (HasRoom pid error dt) := inferInstanceAs (Decidable (_ → _ → _))

end

/-- How much of a signal is cut off. -/
def excess (config : PidConfig K) (signal : K) : K :=
  signal - max config.minOutput (min config.maxOutput signal)

theorem limited_output {config : PidConfig K} (hc : Admissible config) (signal : K) :
    config.minOutput ≤ signal - excess config signal ∧
      signal - excess config signal ≤ config.maxOutput := by
  rw [excess, sub_sub_cancel]
  exact ⟨le_max_left _ _, max_le hc.outputs (min_le_left _ _)⟩

variable [IsStrictOrderedRing K] {pid : PidController K} {config : PidConfig K} {error dt : K}

theorem clamp_eq {α : Type*} [LinearOrder α] {lo hi x : α} (h : lo ≤ hi) :
    PidController.clamp lo hi x = some (max lo (min hi x)) := by
  rw [PidController.clamp, if_pos h]
  split
  case isTrue hlo => rw [max_eq_left ((min_le_right _ _).trans hlo.le)]
  case isFalse hlo =>
    have hlo : lo ≤ x := not_lt.mp hlo
    split
    case isTrue hhi => rw [min_eq_left hhi.le, max_eq_right h]
    case isFalse hhi => rw [min_eq_right (not_lt.mp hhi), max_eq_right hlo]

theorem backGain_pos (config : PidConfig K) : 0 < backGain config := by
  have hsmall : (0 : K) < 1 / 1000000 := by positivity
  exact lt_of_lt_of_le hsmall (le_max_right _ _)

/-- An update without the error: the time does not advance, or the error is too small. -/
theorem update_idle (h : ¬ (0 < dt ∧ pid.config.deadband ≤ |error|)) :
    ∃ pid', pid.update error dt = some (0, pid') ∧ pid'.config = pid.config ∧
      |pid'.integral| ≤ |pid.integral| := by
  unfold PidController.update
  by_cases hdt : dt ≤ 0
  · exact ⟨pid, if_pos hdt, rfl, le_rfl⟩
  · have hsmall : |error| < pid.config.deadband := by
      by_contra hlarge
      exact h ⟨not_le.mp hdt, not_lt.mp hlarge⟩
    refine ⟨_, (if_neg hdt).trans (if_pos hsmall), rfl, ?_⟩
    have hfactor : |(0.9 : K)| ≤ 1 := by
      rw [abs_of_nonneg (by positivity)]
      norm_num
    calc |pid.integral * 0.9| = |pid.integral| * |0.9| := abs_mul _ _
      _ ≤ |pid.integral| * 1 := mul_le_mul_of_nonneg_left hfactor (abs_nonneg _)
      _ = |pid.integral| := mul_one _

theorem update_working (hc : Admissible pid.config) (hdt : 0 < dt)
    (hlarge : pid.config.deadband ≤ |error|) :
    pid.update error dt = some (unlimited pid error dt - excess pid.config (unlimited pid error dt),
      { pid with
        integral := gathered pid error dt -
          excess pid.config (unlimited pid error dt) / backGain pid.config
        prevError := error
        filteredDerivative := smoothed pid error dt
        initialized := true }) := by
  have hlimits : -pid.config.integralLimit ≤ pid.config.integralLimit := by
    linarith [hc.integralLimit]
  have hsmoothed : (1 - pid.config.derivativeFilter) *
      (if pid.initialized then (error - pid.prevError) / dt else 0) +
        (1 - (1 - pid.config.derivativeFilter)) * pid.filteredDerivative = smoothed pid error dt := by
    rw [sub_sub_cancel]
    rfl
  unfold PidController.update
  rw [if_neg (not_le.mpr hdt), if_neg (not_lt.mpr hlarge)]
  simp only [clamp_eq hlimits, clamp_eq hc.outputs, Option.bind_eq_bind, Option.bind_some, hsmoothed]
  change (if max pid.config.minOutput (min pid.config.maxOutput (unlimited pid error dt)) ≠
    unlimited pid error dt then _ else _) = _
  split
  case isTrue hcut =>
    rw [excess, sub_sub_cancel, backGain]
    rfl
  case isFalse hcut =>
    have hnone : excess pid.config (unlimited pid error dt) = 0 := by
      rw [excess, not_not.mp hcut, sub_self]
    rw [hnone, sub_zero, zero_div, sub_zero]
    rfl

theorem abs_sub_excess_le (hc : Admissible config) (signal : K) {integral : K}
    (hI : |integral| ≤ config.integralLimit) :
    |integral - excess config signal / backGain config| ≤ config.integralLimit ↔
      signal - config.maxOutput ≤ backGain config * (integral + config.integralLimit) ∧
        config.minOutput - signal ≤ backGain config * (config.integralLimit - integral) := by
  have hm := backGain_pos config
  have hout := hc.outputs
  obtain ⟨hlow, hhigh⟩ := abs_le.mp hI
  -- there is room on the side on which nothing is cut off
  have hroom : 0 ≤ backGain config * (integral + config.integralLimit) :=
    mul_nonneg hm.le (by linarith)
  have hroom' : 0 ≤ backGain config * (config.integralLimit - integral) :=
    mul_nonneg hm.le (by linarith)
  have hlower : -config.integralLimit ≤ integral - excess config signal / backGain config ↔
      excess config signal ≤ backGain config * (integral + config.integralLimit) := by
    rw [← div_le_iff₀' hm]
    constructor <;> intro h <;> linarith
  have hupper : integral - excess config signal / backGain config ≤ config.integralLimit ↔
      -excess config signal ≤ backGain config * (config.integralLimit - integral) := by
    rw [← div_le_iff₀' hm, neg_div]
    constructor <;> intro h <;> linarith
  rw [abs_le, hlower, hupper]
  rcases lt_or_ge signal config.minOutput with hbelow | habove
  · have hexcess : excess config signal = signal - config.minOutput := by
      rw [excess, max_eq_left ((min_le_right _ _).trans hbelow.le)]
    rw [hexcess]
    constructor <;> rintro ⟨h1, h2⟩ <;> constructor <;> linarith
  · rcases lt_or_ge config.maxOutput signal with hover | hunder
    · have hexcess : excess config signal = signal - config.maxOutput := by
        rw [excess, min_eq_left hover.le, max_eq_right hout]
      rw [hexcess]
      constructor <;> rintro ⟨h1, h2⟩ <;> constructor <;> linarith
    · have hexcess : excess config signal = 0 := by
        rw [excess, min_eq_right hunder, max_eq_right habove, sub_self]
      rw [hexcess]
      constructor <;> rintro ⟨h1, h2⟩ <;> constructor <;> linarith

theorem abs_gathered_le (pid : PidController K) (error dt : K)
    (hlimit : 0 ≤ pid.config.integralLimit) :
    |gathered pid error dt| ≤ pid.config.integralLimit := by
  rw [gathered, abs_le]
  exact ⟨le_max_left _ _, max_le (by linarith) (min_le_left _ _)⟩

theorem update_config {output : K} {pid' : PidController K} (hc : Admissible pid.config)
    (h : pid.update error dt = some (output, pid')) : pid'.config = pid.config := by
  by_cases hwork : 0 < dt ∧ pid.config.deadband ≤ |error|
  · rw [update_working hc hwork.1 hwork.2] at h
    cases h
    rfl
  · obtain ⟨idle, hidle, hconfig, -⟩ := update_idle hwork
    rw [hidle] at h
    cases h
    exact hconfig

/-- From a limited integral an update stays within the limits exactly where it has room. -/
theorem staysLimited_iff (hc : Admissible pid.config) (hI : IntegralLimited pid) :
    StaysLimited pid error dt ↔ HasRoom pid error dt := by
  by_cases hwork : 0 < dt ∧ pid.config.deadband ≤ |error|
  · obtain ⟨hdt, hlarge⟩ := hwork
    have hupdate := update_working hc hdt hlarge
    have habs := abs_sub_excess_le hc (unlimited pid error dt)
      (abs_gathered_le pid error dt hc.integralLimit)
    constructor
    · rintro ⟨output, pid', h, hlimited, -⟩ - -
      rw [hupdate] at h
      cases h
      exact habs.mp hlimited
    · intro hroom
      exact ⟨_, _, hupdate, habs.mpr (hroom hdt hlarge), .inl (limited_output hc _)⟩
  · obtain ⟨pid', hidle, hconfig, hle⟩ := update_idle hwork
    constructor
    · exact fun _ hdt hlarge => absurd ⟨hdt, hlarge⟩ hwork
    · intro _
      refine ⟨0, pid', hidle, ?_, .inr rfl⟩
      rw [IntegralLimited, hconfig]
      exact hle.trans hI

theorem everyUpdate_limited_iff {calls : List (K × K)} (hc : Admissible pid.config)
    (hI : IntegralLimited pid) :
    EveryUpdate StaysLimited pid calls ↔ EveryUpdate HasRoom pid calls := by
  induction calls generalizing pid with
  | nil => exact Iff.rfl
  | cons call calls ih =>
    obtain ⟨error, dt⟩ := call
    rw [EveryUpdate, EveryUpdate, staysLimited_iff hc hI]
    apply and_congr_right
    intro hroom
    -- the next update starts from a limited integral again
    obtain ⟨output, pid', hupdate, hlimited, -⟩ := (staysLimited_iff hc hI).mpr hroom
    have hnext : EveryUpdate StaysLimited pid' calls ↔ EveryUpdate HasRoom pid' calls :=
      ih (by rwa [update_config hc hupdate]) hlimited
    constructor <;> intro h output' pid'' hupdate'
    · rw [hupdate] at hupdate'
      cases hupdate'
      exact hnext.mp (h _ _ hupdate)
    · rw [hupdate] at hupdate'
      cases hupdate'
      exact hnext.mpr (h _ _ hupdate)

/-- The integral and the signal stay within their limits exactly as long as no update cuts off more
than the integral has room for. -/
theorem pid_limited_iff (config : PidConfig K) (hc : Admissible config) (calls : List (K × K)) :
    EveryUpdate StaysLimited (.withConfig config) calls ↔
      EveryUpdate HasRoom (.withConfig config) calls := by
  apply everyUpdate_limited_iff hc
  rw [IntegralLimited, PidController.withConfig, abs_zero]
  exact hc.integralLimit

theorem admissible_default : Admissible (PidConfig.default : PidConfig ℚ) :=
  ⟨by decide +kernel, by decide +kernel, by decide +kernel⟩

/-- A target that comes in from afar: the first signal is cut off. -/
def approach : List (ℚ × ℚ) := [(15, 1 / 10), (14, 1 / 10), (1 / 100, 1 / 10), (-1, 0), (3, 1 / 10)]

theorem pid_limited_iff_default :
    ((PidController.withConfig .default).update (15 : ℚ) (1 / 10)).map Prod.fst = some 30 ∧
      EveryUpdate StaysLimited (.withConfig .default) approach := by
  have hroom : EveryUpdate HasRoom (.withConfig (.default : PidConfig ℚ)) approach := by
    decide +kernel
  exact ⟨by decide +kernel, (pid_limited_iff .default admissible_default approach).mpr hroom⟩

/-- The target jumps over the picture within a millisecond. -/
def jump : List (ℚ × ℚ) := [(-1, 1 / 1000), (1, 1 / 1000)]

/-- The controller after the first update of the jump. -/
def beforeJump : PidController ℚ := ⟨.default, -1 / 1000, -1, 0, true⟩

def afterJump : PidController ℚ := ⟨.default, -224, 1, 1400, true⟩

theorem jump_winds_up : ¬ ∀ config : PidConfig ℚ, Admissible config → ∀ calls,
    EveryUpdate StaysLimited (.withConfig config) calls := by
  intro h
  obtain ⟨-, hsecond⟩ := h .default admissible_default jump
  have hfirst : (PidController.withConfig .default).update (-1 : ℚ) (1 / 1000) =
      some (-4001 / 2000, beforeJump) := by decide +kernel
  have hupdate : beforeJump.update 1 (1 / 1000) = some (30, afterJump) := by decide +kernel
  obtain ⟨⟨output, pid', h2, hlimited, -⟩, -⟩ := hsecond _ _ hfirst
  rw [hupdate] at h2
  cases h2
  exact absurd hlimited (by rw [IntegralLimited]; decide +kernel)

end AutoTargeting.Control
