import AutoTargeting.Detector.BufferFits
import AutoTargeting.EventBus.Publishers
import AutoTargeting.Ring.HandedOut

namespace AutoTargeting.Detector

open AutoTargeting.Ring (CheckedConfig FrameView Publication StorageFormat)
open EventBus (DetectionsFrame detectionsFrame)

/-- The errors with which `run` returns before its loop, and that of `preprocess_frame`. -/
inductive DetectorError
  | invalidConfig (message : String)
  | bus (message : String)
  | infer (message : String)
  | preprocess
  deriving DecidableEq, Repr

structure DetectorConfig where
  backend : BackendKind
  throttleEveryN : ℕ
  deriving DecidableEq, Repr

/-- What `run` finds outside: whether the backend and the publishers can be set up, and for each
turn with a frame whether the NPU is too hot then, what is inferred and whether the bus takes it. -/
structure Surroundings (F : Type) where
  ready : Except DetectorError Unit
  hot : ℕ → Bool
  infer : ℕ → Frame → Option (List (EventBus.Detection F))
  taken : ℕ → Bool

/-- The variables of the loop; `stats.jumps` is with the cursor. The `turns` are those with a
frame. -/
structure Looping (F : Type) where
  width : ℕ
  height : ℕ
  format : StorageFormat
  turns : ℕ
  throttleSkip : ℕ
  framesProcessed : ℕ
  framesPublished : ℕ
  inferErrors : ℕ
  detectionsTotal : ℕ
  events : List (DetectionsFrame F)
  deriving DecidableEq

section
variable {F : Type} (cfg : DetectorConfig) (env : Surroundings F)

def Looping.start (width height : ℕ) (format : StorageFormat) : Looping F :=
  ⟨width, height, format, 0, 0, 0, 0, 0, 0, []⟩

def Looping.probed (s : Looping F) : ℕ :=
  if env.hot s.turns then min (s.throttleSkip + 1) (2 ^ 32 - 1) else s.throttleSkip

/-- A turn with a frame; `none` is the error of `preprocess_frame`. -/
def Looping.frame (s : Looping F) (view : FrameView) (data : List UInt8) : Option (Looping F) :=
  let n := s.turns
  let throttleSkip := s.probed env
  let s := { s with turns := n + 1, throttleSkip }
  if env.hot n ∧ throttleSkip % max cfg.throttleEveryN 1 ≠ 0 then some s
  else
    (preprocessFrame ⟨data, view.width, view.height⟩ s.format cfg.backend).map fun prepared =>
      let s := { s with framesProcessed := s.framesProcessed + 1 }
      match env.infer n prepared with
      | none => { s with inferErrors := s.inferErrors + 1 }
      | some detections =>
        let s := { s with detectionsTotal := s.detectionsTotal + detections.length }
        if env.taken n then
          { s with
            framesPublished := s.framesPublished + 1
            events := s.events ++ [detectionsFrame (.ofNat view.frameId) (.ofNat view.tsNs)
              detections (.ofNat s.width) (.ofNat s.height)] }
        else s

/-- The hot turns among the first `n`. -/
def Surroundings.heat (n : ℕ) : ℕ := (List.range n).countP env.hot

/-- In the heat one frame of `everyN` is processed. -/
def Surroundings.skips (everyN n : ℕ) : Bool :=
  env.hot n && min (env.heat (n + 1)) (2 ^ 32 - 1) % max everyN 1 != 0

variable (c : CheckedConfig)

/-- What is inferred of the frame `q.1` in the turn `q.2`. -/
def inferred (q : Publication × ℕ) : Option (List (EventBus.Detection F)) :=
  (preprocessFrame ⟨q.1.data, c.width, c.height⟩ c.format cfg.backend).bind (env.infer q.2)

def eventOf (q : Publication × ℕ) : Option (DetectionsFrame F) :=
  if env.skips cfg.throttleEveryN q.2 = true ∨ env.taken q.2 = false then none
  else (inferred cfg env c q).map fun detections =>
    detectionsFrame (.ofNat q.1.frameId) (.ofNat q.1.tsNs) detections (.ofNat c.width)
      (.ofNat c.height)

/-- The frames that are processed, with their turns. -/
def processed (frames : List Publication) : List (Publication × ℕ) :=
  frames.zipIdx.filter fun q => !env.skips cfg.throttleEveryN q.2

/-- The loop after turns with these frames. -/
structure Looping.Tells (frames : List Publication) (s : Looping F) : Prop where
  geometry : s.width = c.width ∧ s.height = c.height ∧ s.format = c.format
  turns : s.turns = frames.length
  throttleSkip : s.throttleSkip = min (env.heat frames.length) (2 ^ 32 - 1)
  framesProcessed : s.framesProcessed = (processed cfg env frames).length
  framesPublished : s.framesPublished = s.events.length
  inferErrors : s.inferErrors =
    (processed cfg env frames).countP fun q => (inferred cfg env c q).isNone
  detectionsTotal : s.detectionsTotal =
    ((processed cfg env frames).map fun q => ((inferred cfg env c q).getD []).length).sum
  events : s.events = frames.zipIdx.filterMap (eventOf cfg env c)

end

section
variable {F : Type} {cfg : DetectorConfig} {env : Surroundings F} {c : CheckedConfig}
  {frames : List Publication} {p : Publication} {s : Looping F}

theorem Surroundings.heat_succ (n : ℕ) :
    env.heat (n + 1) = env.heat n + if env.hot n then 1 else 0 := by
  rw [heat, List.range_succ, List.countP_append, List.countP_singleton]
  rfl

theorem zipIdx_snoc (frames : List Publication) (p : Publication) :
    (frames ++ [p]).zipIdx = frames.zipIdx ++ [(p, frames.length)] := by
  rw [List.zipIdx_append, Nat.zero_add]
  rfl

theorem processed_snoc (frames : List Publication) (p : Publication) :
    processed cfg env (frames ++ [p]) = processed cfg env frames ++
      if env.skips cfg.throttleEveryN frames.length then [] else [(p, frames.length)] := by
  rw [processed, zipIdx_snoc, List.filter_append, List.filter_singleton]
  cases env.skips cfg.throttleEveryN frames.length <;> rfl

theorem Looping.tells_start :
    (Looping.start c.width c.height c.format).Tells cfg env c [] :=
  ⟨⟨rfl, rfl, rfl⟩, rfl, rfl, rfl, rfl, rfl, rfl, rfl⟩

/-- Every frame of the ring is ready for every backend. -/
theorem prepared_isSome (hlen : p.data.length = c.frameSize) (backend : BackendKind) :
    ∃ prepared, preprocessFrame ⟨p.data, c.width, c.height⟩ c.format backend = some prepared := by
  cases backend with
  | bridge => exact preprocessFrame_isSome ⟨rfl, rfl, hlen⟩
  | cpuOnnx | mock => cases c.format <;> exact ⟨_, rfl⟩

/-- The count of the hot turns is exact up to where it stays. -/
theorem Looping.Tells.probed (h : s.Tells cfg env c frames) :
    s.probed env = min (env.heat (frames.length + 1)) (2 ^ 32 - 1) := by
  rw [Looping.probed, h.turns, h.throttleSkip, env.heat_succ]
  split <;> omega

theorem Looping.Tells.frame (h : s.Tells cfg env c frames) (hlen : p.data.length = c.frameSize) :
    ∃ s', s.frame cfg env (p.view c) p.data = some s' ∧ s'.Tells cfg env c (frames ++ [p]) := by
  obtain ⟨prepared, hprepared⟩ := prepared_isSome hlen cfg.backend
  obtain ⟨hw, hh, hformat⟩ := h.geometry
  have hinferred : inferred cfg env c (p, frames.length) = env.infer frames.length prepared := by
    rw [inferred, hprepared, Option.bind_some]
  have hskips : (env.hot frames.length = true ∧
      min (env.heat (frames.length + 1)) (2 ^ 32 - 1) % max cfg.throttleEveryN 1 ≠ 0) ↔
      env.skips cfg.throttleEveryN frames.length = true := by
    simp [Surroundings.skips]
  have hview : (p.view c).width = c.width ∧ (p.view c).height = c.height ∧
      (p.view c).frameId = p.frameId ∧ (p.view c).tsNs = p.tsNs := ⟨rfl, rfl, rfl, rfl⟩
  simp only [Looping.frame, h.turns, h.probed, hskips, hw, hh, hformat, hview, hprepared,
    Option.map_some]
  by_cases hskip : env.skips cfg.throttleEveryN frames.length = true
  · rw [if_pos hskip]
    refine ⟨_, rfl, ⟨⟨rfl, rfl, rfl⟩, by simp, by simp, ?_, h.framesPublished, ?_, ?_, ?_⟩⟩
    · simp [processed_snoc, hskip, h.framesProcessed]
    · simp [processed_snoc, hskip, h.inferErrors]
    · simp [processed_snoc, hskip, h.detectionsTotal]
    · simp [zipIdx_snoc, eventOf, hskip, h.events]
  · rw [if_neg hskip]
    refine ⟨_, rfl, ?_⟩
    cases hinfer : env.infer frames.length prepared with
    | none =>
      rw [hinfer] at hinferred
      refine ⟨⟨rfl, rfl, rfl⟩, by simp, by simp, ?_, h.framesPublished, ?_, ?_, ?_⟩
      · simp [processed_snoc, hskip, h.framesProcessed]
      · simp [processed_snoc, hskip, h.inferErrors, hinferred]
      · simp [processed_snoc, hskip, h.detectionsTotal, hinferred]
      · simp [zipIdx_snoc, eventOf, hinferred, h.events]
    | some detections =>
      rw [hinfer] at hinferred
      dsimp only
      by_cases htaken : env.taken frames.length = true
      · rw [if_pos htaken]
        refine ⟨⟨rfl, rfl, rfl⟩, by simp, by simp, ?_, ?_, ?_, ?_, ?_⟩
        · simp [processed_snoc, hskip, h.framesProcessed]
        · simp [h.framesPublished]
        · simp [processed_snoc, hskip, h.inferErrors, hinferred]
        · simp [processed_snoc, hskip, h.detectionsTotal, hinferred]
        · simp [zipIdx_snoc, eventOf, hskip, htaken, hinferred, h.events]
      · rw [if_neg htaken]
        refine ⟨⟨rfl, rfl, rfl⟩, by simp, by simp, ?_, h.framesPublished, ?_, ?_, ?_⟩
        · simp [processed_snoc, hskip, h.framesProcessed]
        · simp [processed_snoc, hskip, h.inferErrors, hinferred]
        · simp [processed_snoc, hskip, h.detectionsTotal, hinferred]
        · simp [zipIdx_snoc, eventOf, htaken, h.events]

end

end AutoTargeting.Detector
