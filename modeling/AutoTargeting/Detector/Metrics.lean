import AutoTargeting.Library.OrderStatistics
import AutoTargeting.Library.Strtod
import AutoTargeting.Yolo.Rounding

-- The detector's window of measurements. Times are nanoseconds of the monotonic clock.

namespace AutoTargeting.Detector

open OrderStatistics
open Strtod (nearest)
open Yolo (roundAway)

structure Metrics where
  inferUs : List ℕ
  e2eUs : List ℕ
  windowStart : ℕ
  windowFrames : ℕ
  deriving DecidableEq, Repr

structure DetectorStats where
  framesProcessed : ℕ
  framesPublished : ℕ
  jumps : ℕ
  inferErrors : ℕ
  detectionsTotal : ℕ
  deriving DecidableEq, Repr

structure DetectorStatus where
  fps : ℚ
  inferP50Us : ℕ
  inferP95Us : ℕ
  e2eP50Us : ℕ
  framesProcessed : ℕ
  framesPublished : ℕ
  jumps : ℕ
  inferErrors : ℕ
  detectionsTotal : ℕ
  frameW : ℕ
  frameH : ℕ
  deriving DecidableEq, Repr

namespace Metrics

def new (now : ℕ) : Metrics := ⟨[], [], now, 0⟩

/-- The frame rate; the `f32` arithmetic of it is exact here. -/
def fps (m : Metrics) (now : ℕ) : ℚ :=
  let secs : ℚ := ((now - m.windowStart : ℕ) : ℚ) / 10 ^ 9
  if secs ≤ 0 then 0 else m.windowFrames / secs

/-- The source reads the frame rate, too, and drops it. -/
def rotate (m : Metrics) (now : ℕ) : Metrics := { m with windowStart := now, windowFrames := 0 }

def push (m : Metrics) (inferUs e2eUs now : ℕ) : Metrics :=
  let m := if 512 ≤ m.inferUs.length then m.rotate now else m
  { m with
    inferUs := m.inferUs ++ [inferUs]
    e2eUs := m.e2eUs ++ [e2eUs]
    windowFrames := m.windowFrames + 1 }

@[simp] theorem push_inferUs (m : Metrics) (inferUs e2eUs now : ℕ) :
    (m.push inferUs e2eUs now).inferUs = m.inferUs ++ [inferUs] := by
  unfold push
  split <;> rfl

@[simp] theorem push_e2eUs (m : Metrics) (inferUs e2eUs now : ℕ) :
    (m.push inferUs e2eUs now).e2eUs = m.e2eUs ++ [e2eUs] := by
  unfold push
  split <;> rfl

/-- `((q / 100.0) * (len as f64 - 1.0)).round() as usize`. -/
def rankIndex (q : ℚ) (len : ℕ) : ℕ :=
  ⌊roundAway (nearest (nearest (q / 100) * nearest (nearest len - 1)))⌋.toNat

def p (stats : List ℕ) (q : ℚ) : ℕ :=
  if stats = [] then 0
  else
    let v := stats.mergeSort (· ≤ ·)
    v.getD (min (rankIndex q v.length) (v.length - 1)) 0

def snapshot (m : Metrics) (s : DetectorStats) (w h now : ℕ) : Metrics × DetectorStatus :=
  ({ m with windowStart := now, windowFrames := 0 },
    { fps := m.fps now
      inferP50Us := p m.inferUs 50
      inferP95Us := p m.inferUs 95
      e2eP50Us := p m.e2eUs 50
      framesProcessed := s.framesProcessed
      framesPublished := s.framesPublished
      jumps := s.jumps
      inferErrors := s.inferErrors
      detectionsTotal := s.detectionsTotal
      frameW := w
      frameH := h })

end Metrics

inductive MetricsCall
  | push (inferUs e2eUs now : ℕ)
  | snapshot (s : DetectorStats) (w h now : ℕ)
  deriving DecidableEq, Repr

/-- The samples that belong to the current window. -/
structure Window where
  inferUs : List ℕ
  e2eUs : List ℕ
  deriving DecidableEq, Repr

structure Measured where
  metrics : Metrics
  window : Window
  deriving DecidableEq, Repr

namespace Measured

def new (now : ℕ) : Measured := ⟨.new now, ⟨[], []⟩⟩

/-- A push that rotates starts the next window with its sample. -/
def call (t : Measured) : MetricsCall → Measured
  | .push inferUs e2eUs now =>
    let window := if 512 ≤ t.metrics.inferUs.length then ⟨[], []⟩ else t.window
    ⟨t.metrics.push inferUs e2eUs now, ⟨window.inferUs ++ [inferUs], window.e2eUs ++ [e2eUs]⟩⟩
  | .snapshot s w h now => { t with metrics := (t.metrics.snapshot s w h now).1 }

def after (start : ℕ) (calls : List MetricsCall) : Measured := calls.foldl call (new start)

end Measured

def MetricsCall.isPush : MetricsCall → Bool
  | .push .. => true
  | .snapshot .. => false

def pushes (calls : List MetricsCall) : ℕ := calls.countP MetricsCall.isPush

/-- The rank of a percentile among `n` samples, halves upwards. -/
def percentileRank (q : ℚ) (n : ℕ) : ℕ := Yolo.nearest (q / 100 * (n - 1))

/-- `v` is the percentile of the window; an empty window has 0. -/
def IsPercentile (q : ℚ) (window : List ℕ) (v : ℕ) : Prop :=
  (window = [] ∧ v = 0) ∨ (v ∈ window ∧ AtRank window (percentileRank q window.length) v)

structure IsSnapshot (window : Window) (status : DetectorStatus) : Prop where
  inferP50 : IsPercentile 50 window.inferUs status.inferP50Us
  inferP95 : IsPercentile 95 window.inferUs status.inferP95Us
  e2eP50 : IsPercentile 50 window.e2eUs status.e2eP50Us

/-- The vectors stay short, and every snapshot is one of its window. -/
structure KeepsWindow (start : ℕ) (calls : List MetricsCall) : Prop where
  short : ∀ before rest, calls = before ++ rest →
    (Measured.after start before).metrics.inferUs.length ≤ 512 ∧
      (Measured.after start before).metrics.e2eUs.length ≤ 512
  snapshots : ∀ before s w h now rest, calls = before ++ .snapshot s w h now :: rest →
    IsSnapshot (Measured.after start before).window
      ((Measured.after start before).metrics.snapshot s w h now).2

section
variable {start : ℕ} {calls : List MetricsCall}

theorem after_append_singleton (call : MetricsCall) :
    Measured.after start (calls ++ [call]) = (Measured.after start calls).call call := by
  rw [Measured.after, List.foldl_append]
  rfl

theorem pushes_append (calls' : List MetricsCall) :
    pushes (calls ++ calls') = pushes calls + pushes calls' := List.countP_append

theorem length_after (start : ℕ) (calls : List MetricsCall) :
    (Measured.after start calls).metrics.inferUs.length = pushes calls ∧
      (Measured.after start calls).metrics.e2eUs.length = pushes calls := by
  induction calls using List.reverseRecOn with
  | nil => exact ⟨rfl, rfl⟩
  | append_singleton calls call ih =>
    rw [after_append_singleton, pushes_append]
    cases call with
    | push inferUs e2eUs now =>
      have hone : pushes [.push inferUs e2eUs now] = 1 := rfl
      simp [hone, Measured.call, ih]
    | snapshot s w h now => exact ih

/-- The vectors hold what the window does as long as there is room for it. -/
theorem window_after (start : ℕ) (hfew : pushes calls ≤ 512) :
    (Measured.after start calls).window.inferUs = (Measured.after start calls).metrics.inferUs ∧
      (Measured.after start calls).window.e2eUs = (Measured.after start calls).metrics.e2eUs := by
  induction calls using List.reverseRecOn with
  | nil => exact ⟨rfl, rfl⟩
  | append_singleton calls call ih =>
    rw [pushes_append] at hfew
    have ih := ih (by omega)
    rw [after_append_singleton]
    cases call with
    | push inferUs e2eUs now =>
      have hone : pushes [.push inferUs e2eUs now] = 1 := rfl
      have hroom : ¬ 512 ≤ (Measured.after start calls).metrics.inferUs.length := by
        rw [(length_after start calls).1]
        omega
      simp [Measured.call, hroom, ih]
    | snapshot s w h now => exact ih

theorem rankIndex_succ {n : ℕ} (hn : n < 512) (q : ℚ) :
    Metrics.rankIndex q (n + 1) = ⌊roundAway (nearest (nearest (q / 100) * n))⌋.toNat := by
  have hpred : ((n + 1 : ℕ) : ℚ) - 1 = n := by
    push_cast
    ring
  rw [Metrics.rankIndex, Strtod.nearest_natCast (by omega), hpred,
    Strtod.nearest_natCast (by omega)]

/-- The arithmetic of `f64` finds the rank of the median. -/
theorem rankIndex_fifty : ∀ n < 512, Metrics.rankIndex 50 (n + 1) = percentileRank 50 (n + 1) := by
  have hrank : ∀ n : ℕ, n < 512 → ⌊roundAway (nearest (nearest (50 / 100) * n))⌋.toNat =
      percentileRank 50 (n + 1) := by decide +kernel
  intro n hn
  rw [rankIndex_succ hn, hrank n hn]

/-- 0.95 is not an `f64`, and the product is rounded to the half that it should be. -/
theorem rankIndex_ninetyFive :
    ∀ n < 512, Metrics.rankIndex 95 (n + 1) = percentileRank 95 (n + 1) := by
  have hrank : ∀ n : ℕ, n < 512 → ⌊roundAway (nearest (nearest (95 / 100) * n))⌋.toNat =
      percentileRank 95 (n + 1) := by decide +kernel
  intro n hn
  rw [rankIndex_succ hn, hrank n hn]

theorem percentileRank_lt {q : ℚ} {n : ℕ} (hq : q ≤ 100) : percentileRank q (n + 1) ≤ n := by
  apply Yolo.nearest_le
  have hn : (0 : ℚ) ≤ n := Nat.cast_nonneg n
  push_cast
  nlinarith

theorem isPercentile_p {q : ℚ} {stats : List ℕ} (hq : q ≤ 100)
    (hrank : ∀ n < 512, Metrics.rankIndex q (n + 1) = percentileRank q (n + 1))
    (hshort : stats.length ≤ 512) : IsPercentile q stats (Metrics.p stats q) := by
  by_cases hempty : stats = []
  · exact .inl ⟨hempty, if_pos hempty⟩
  · right
    obtain ⟨n, hn⟩ : ∃ n, stats.length = n + 1 :=
      Nat.exists_eq_succ_of_ne_zero (List.length_eq_zero_iff.not.mpr hempty)
    have hle := percentileRank_lt (n := n) hq
    have hmin : min (percentileRank q (n + 1)) (n + 1 - 1) = percentileRank q (n + 1) := by omega
    have hat : AtRank stats (percentileRank q stats.length) (Metrics.p stats q) := by
      rw [Metrics.p, if_neg hempty]
      simp only [List.length_mergeSort]
      rw [hn, hrank n (by omega), hmin]
      exact atRank_mergeSort (by omega) 0
    exact ⟨hat.mem, hat⟩

end

/-- The window is kept up to 512 samples, and no longer: nothing is ever taken out. -/
theorem keeps_window_iff (start : ℕ) (calls : List MetricsCall) :
    KeepsWindow start calls ↔ pushes calls ≤ 512 := by
  constructor
  · intro h
    have hshort := (h.short calls [] (List.append_nil calls).symm).1
    rwa [(length_after start calls).1] at hshort
  · intro hfew
    have hbefore : ∀ before rest, calls = before ++ rest → pushes before ≤ 512 := by
      rintro before rest rfl
      rw [pushes_append] at hfew
      omega
    refine ⟨fun before rest heq => ?_, fun before s w h now rest heq => ?_⟩
    · have hle := hbefore before rest heq
      rw [(length_after start before).1, (length_after start before).2]
      exact ⟨hle, hle⟩
    · have hle := hbefore before _ heq
      obtain ⟨hinfer, he2e⟩ := length_after start before
      obtain ⟨hwindow, hwindow'⟩ := window_after start hle
      constructor
      · rw [hwindow]
        exact isPercentile_p (by norm_num) rankIndex_fifty (by omega)
      · rw [hwindow]
        exact isPercentile_p (by norm_num) rankIndex_ninetyFive (by omega)
      · rw [hwindow']
        exact isPercentile_p (by norm_num) rankIndex_fifty (by omega)

/-- One sample more than the window has. -/
def overfull : List MetricsCall := List.replicate 513 (.push 1 1 0)

theorem overfull_grows : ¬ ∀ start calls, KeepsWindow start calls := by
  intro h
  have hshort := ((h 0 overfull).short overfull [] (List.append_nil _).symm).1
  have hpushes : pushes overfull = 513 := by
    rw [pushes, overfull, List.countP_replicate]
    rfl
  rw [(length_after 0 overfull).1, hpushes] at hshort
  omega

end AutoTargeting.Detector
