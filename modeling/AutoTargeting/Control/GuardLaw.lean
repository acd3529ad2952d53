import AutoTargeting.Control.GuardRuns
import AutoTargeting.Library.Spacing
import Mathlib.Algebra.Order.Ring.Abs
import Mathlib.Algebra.Order.Ring.Rat
import Mathlib.Tactic.Linarith

namespace AutoTargeting.Control

open Runs

theorem mem_triggers {F : Type} {handled : List (Handled F)} {t : Instant}
    (h : t ∈ triggers handled) :
    ∃ x ∈ handled, x.decision.isTrigger = true ∧ x.call.triggeredAt = t := by
  simp only [triggers, List.mem_map, List.mem_filter] at h
  obtain ⟨x, ⟨hx, htrigger⟩, hat⟩ := h
  exact ⟨x, hx, htrigger, hat⟩

/-- How many of these times lie less than five seconds back. -/
def recentCount (times : List Instant) (now : Instant) : ℕ :=
  (times.filter (now - · < secs 5)).length

theorem handleOscillation_state {F : Type} (c : CommanderConfig F) (state : AntiLoopState) (now : Instant) :
    (handleOscillation c state now : GuardDecision F × _).2 =
      { state with
        oscillationTriggerCount := state.oscillationTriggerCount + 1
        recentTriggers := state.recentTriggers.filter (now - · < secs 5) ++ [now]
        frozen := true
        freezeUntil := some (now + secs 1)
        yawSignHistory := [] } := by
  unfold handleOscillation
  dsimp only
  split <;> rfl

section
variable {F : Type} {c : CommanderConfig F} {s : GuardRun F} {call : GuardCall F}

/-- The state of a guard explained by the calls that led to it. -/
structure GuardInvariant (c : CommanderConfig F) (s : GuardRun F) : Prop where
  counted : s.state.allowedCount + s.state.suppressedCount + s.state.oscillationTriggerCount =
    s.handled.length
  windowed : s.state.yawSignHistory.length ≤ c.oscillationWindow
  frozen_eq : s.state.frozen = s.state.freezeUntil.isSome
  ordered : ∀ h ∈ s.handled, h.call.now ≤ h.call.triggeredAt
  /-- Either the freeze lasts for the second after a trigger, or that second was over once. -/
  cooling : ∀ t ∈ triggers s.handled, (∃ until_, s.state.freezeUntil = some until_ ∧
    t + secs 1 ≤ until_) ∨ ∃ h ∈ s.handled, t + secs 1 ≤ h.call.now
  /-- What is pruned stays too old. -/
  recent : ∀ now, (∀ h ∈ s.handled, h.call.triggeredAt ≤ now) →
    s.state.recentTriggers.filter (now - · < secs 5) =
      (triggers s.handled).filter (now - · < secs 5)
  spaced : Spaced (secs 1) (triggers s.handled)

/-- A call that finds no freeze comes a second after each trigger. -/
theorem GuardInvariant.cooled (h : GuardInvariant c s) (htime : InTime s call)
    (hthawed : ∀ until_, s.state.freezeUntil = some until_ → until_ ≤ call.now) :
    ∀ t ∈ triggers s.handled, t + secs 1 ≤ call.now := by
  intro t ht
  rcases h.cooling t ht with ⟨until_, hfreeze, hle⟩ | ⟨x, hx, hle⟩
  · exact hle.trans (hthawed until_ hfreeze)
  · exact hle.trans ((h.ordered x hx).trans (htime.1 x hx))

/-- The triggers that are kept are the recent ones, this one included. -/
theorem GuardInvariant.kept (h : GuardInvariant c s) (htime : InTime s call) :
    s.state.recentTriggers.filter (call.triggeredAt - · < secs 5) ++ [call.triggeredAt] =
      (triggers s.handled ++ [call.triggeredAt]).filter (call.triggeredAt - · < secs 5) := by
  have hnow : ∀ x ∈ s.handled, x.call.triggeredAt ≤ call.triggeredAt := by
    intro x hx
    exact (htime.1 x hx).trans htime.2
  rw [h.recent _ hnow, List.filter_append]
  simp [secs]

/-- At most five triggers a second apart are recent, so that their number fits into 32 bits. -/
theorem recentCount_le {times : List Instant} {now : Instant} (h : Spaced (secs 1) times)
    (hnow : ∀ t ∈ times, t ≤ now) : recentCount times now ≤ 5 := by
  have hold : ∀ t ∈ times.filter (now - · < secs 5), t ≤ now := by
    intro t ht
    exact hnow t (List.mem_of_mem_filter ht)
  have hrecent : ∀ t ∈ times.filter (now - · < secs 5), now - t < 5 * secs 1 := by
    intro t ht
    exact of_decide_eq_true (List.mem_filter.mp ht).2
  exact (h.sublist List.filter_sublist).length_le hold hrecent

/-- The triggers after one more, which comes a second after each. -/
theorem GuardInvariant.spaced_concat (h : GuardInvariant c s) (htime : InTime s call)
    (hthawed : ∀ until_, s.state.freezeUntil = some until_ → until_ ≤ call.now) :
    Spaced (secs 1) (triggers s.handled ++ [call.triggeredAt]) := by
  rw [Runs.spaced_concat]
  refine ⟨h.spaced, fun t ht => ?_⟩
  exact (h.cooled htime hthawed t ht).trans htime.2

/-- A trigger goes by the number of the recent ones. -/
theorem GuardInvariant.escalation (h : GuardInvariant c s) (htime : InTime s call)
    (hthawed : ∀ until_, s.state.freezeUntil = some until_ → until_ ≤ call.now) :
    (handleOscillation c s.state.thawed call.triggeredAt : GuardDecision F × _).1 =
      if c.oscillationAbortCount ≤
        recentCount (triggers s.handled ++ [call.triggeredAt]) call.triggeredAt then .abort
      else .degrade := by
  have hnow : ∀ t ∈ triggers s.handled ++ [call.triggeredAt], t ≤ call.triggeredAt := by
    intro t ht
    rcases List.mem_append.mp ht with hold | hnew
    · obtain ⟨x, hx, -, rfl⟩ := mem_triggers hold
      exact (htime.1 x hx).trans htime.2
    · exact (List.mem_singleton.mp hnew).le
  have hcount := recentCount_le (h.spaced_concat htime hthawed) hnow
  simp only [handleOscillation, AntiLoopState.thawed_recent]
  rw [h.kept htime]
  change recentCount _ _ ≤ 5 at hcount
  unfold recentCount at hcount ⊢
  rw [Nat.mod_eq_of_lt (by omega)]
  split <;> rfl

end

section
variable {F : Type} [F32 F] {c : CommanderConfig F} {s s' : GuardRun F} {call : GuardCall F}

/-- The five exits leave the sum of the counts one greater. -/
theorem Exit.counts {state : AntiLoopState} {decision : GuardDecision F} {after : AntiLoopState}
    (h : Exit c state call decision after) :
    after.allowedCount + after.suppressedCount + after.oscillationTriggerCount =
      state.allowedCount + state.suppressedCount + state.oscillationTriggerCount + 1 := by
  have hcounts := state.thawed_counts
  cases h with
  | frozen =>
    simp only [AntiLoopState.suppressed]
    omega
  | deadband =>
    simp only [AntiLoopState.suppressed]
    omega
  | allow =>
    simp only [AntiLoopState.allowed]
    omega
  | trigger =>
    simp only [handleOscillation]
    split <;> (dsimp only; omega)

theorem Exit.windowed {state : AntiLoopState} {decision : GuardDecision F} {after : AntiLoopState}
    (h : Exit c state call decision after)
    (hlen : state.yawSignHistory.length ≤ c.oscillationWindow) :
    after.yawSignHistory.length ≤ c.oscillationWindow := by
  cases h with
  | frozen => exact hlen
  | deadband => simpa [AntiLoopState.suppressed] using hlen
  | allow =>
    simp only [AntiLoopState.allowed, AntiLoopState.thawed_history]
    split
    · simpa using hlen
    · omega
  | trigger =>
    simp only [handleOscillation]
    split <;> simp

theorem Exit.frozen_eq {state : AntiLoopState} {decision : GuardDecision F} {after : AntiLoopState}
    (h : Exit c state call decision after) (hfrozen : state.frozen = state.freezeUntil.isSome) :
    after.frozen = after.freezeUntil.isSome := by
  have hthawed : state.thawed.frozen = state.thawed.freezeUntil.isSome := by
    unfold AntiLoopState.thawed
    split
    · rfl
    · exact hfrozen
  cases h with
  | frozen => exact hfrozen
  | deadband => exact hthawed
  | allow => exact hthawed
  | trigger =>
    simp only [handleOscillation]
    split <;> rfl

/-- A call that does not trigger leaves what the triggers left, up to a freeze that is over. -/
theorem GuardInvariant.untriggered {decision : GuardDecision F} {after : AntiLoopState}
    (h : GuardInvariant c s) (htime : InTime s call) (hexit : Exit c s.state call decision after)
    (hno : decision.isTrigger = false) (hrecent : after.recentTriggers = s.state.recentTriggers)
    (hfreeze : after.freezeUntil = s.state.freezeUntil ∨
      ∀ until_, s.state.freezeUntil = some until_ → until_ ≤ call.now) :
    GuardInvariant c ⟨after, s.handled ++ [⟨call, decision⟩]⟩ := by
  have htriggers : triggers (s.handled ++ [⟨call, decision⟩]) = triggers s.handled := by
    rw [triggers_concat]
    simp [hno]
  refine ⟨?_, hexit.windowed h.windowed, hexit.frozen_eq h.frozen_eq, ?_, ?_, ?_, ?_⟩
  · rw [hexit.counts, h.counted]
    simp
  · intro x hx
    rcases List.mem_append.mp hx with hold | hnew
    · exact h.ordered x hold
    · rw [List.mem_singleton.mp hnew]
      exact htime.2
  · intro t ht
    rw [htriggers] at ht
    rcases hfreeze with hsame | hthawed
    · rcases h.cooling t ht with hstill | ⟨x, hx, hle⟩
      · left
        rw [hsame]
        exact hstill
      · exact .inr ⟨x, by simp [hx], hle⟩
    · exact .inr ⟨⟨call, decision⟩, by simp, h.cooled htime hthawed t ht⟩
  · intro now hnow
    rw [htriggers, hrecent]
    apply h.recent
    intro x hx
    exact hnow x (by simp [hx])
  · rw [htriggers]
    exact h.spaced

theorem GuardInvariant.triggered (h : GuardInvariant c s) (htime : InTime s call)
    (hthawed : ∀ until_, s.state.freezeUntil = some until_ → until_ ≤ call.now)
    (hexit : Exit c s.state call (handleOscillation c s.state.thawed call.triggeredAt).1
      (handleOscillation c s.state.thawed call.triggeredAt : GuardDecision F × _).2) :
    GuardInvariant c ⟨(handleOscillation c s.state.thawed call.triggeredAt : GuardDecision F × _).2,
      s.handled ++ [⟨call, (handleOscillation c s.state.thawed call.triggeredAt).1⟩]⟩ := by
  have htriggers : triggers (s.handled ++ [⟨call,
      (handleOscillation c s.state.thawed call.triggeredAt : GuardDecision F × _).1⟩]) =
      triggers s.handled ++ [call.triggeredAt] := by
    rw [triggers_concat, if_pos (handleOscillation_isTrigger c _ _)]
  refine ⟨?_, hexit.windowed h.windowed, hexit.frozen_eq h.frozen_eq, ?_, ?_, ?_, ?_⟩
  · rw [hexit.counts, h.counted]
    simp
  · intro x hx
    rcases List.mem_append.mp hx with hold | hnew
    · exact h.ordered x hold
    · rw [List.mem_singleton.mp hnew]
      exact htime.2
  · intro t ht
    left
    rw [htriggers] at ht
    refine ⟨call.triggeredAt + secs 1, by rw [handleOscillation_state], ?_⟩
    rcases List.mem_append.mp ht with hold | hnew
    · exact (h.cooled htime hthawed t hold).trans (htime.2.trans (Nat.le_add_right _ _))
    · rw [List.mem_singleton.mp hnew]
  · intro now hnow
    rw [htriggers, handleOscillation_state]
    simp only [AntiLoopState.thawed_recent]
    have hlast : call.triggeredAt ≤ now :=
      hnow ⟨call, (handleOscillation c s.state.thawed call.triggeredAt).1⟩ (by simp)
    -- what is recent later was recent at this trigger
    have hkept : ∀ t, now - t < secs 5 → call.triggeredAt - t < secs 5 := by
      intro t
      exact Nat.lt_of_le_of_lt (Nat.sub_le_sub_right hlast t)
    have hrecent := h.recent now fun x hx => hnow x (by simp [hx])
    rw [List.filter_append, List.filter_append, ← hrecent, List.filter_filter]
    congr 1
    apply List.filter_congr
    intro t _
    simp
    exact hkept t
  · rw [htriggers]
    exact h.spaced_concat htime hthawed

theorem GuardInvariant.step (h : GuardInvariant c s) (htime : InTime s call)
    (hstep : (guardRun c).step s call = some s') : GuardInvariant c s' := by
  obtain ⟨decision, state, hexit, rfl⟩ := guardRun_step hstep
  have hexit' := hexit
  cases hexit with
  | frozen until_ hfreeze hnow => exact h.untriggered htime hexit' rfl rfl (.inl rfl)
  | deadband hthawed =>
    exact h.untriggered htime hexit' rfl s.state.thawed_recent (.inr hthawed)
  | allow hthawed => exact h.untriggered htime hexit' rfl s.state.thawed_recent (.inr hthawed)
  | trigger hthawed => exact h.triggered htime hthawed hexit'

theorem guardRun_invariant (h : (guardRun c).ReachableBy InTime s) : GuardInvariant c s := by
  apply h.invariant
  · rintro _ rfl
    refine ⟨rfl, Nat.zero_le _, rfl, nofun, nofun, fun _ _ => rfl, spaced_nil⟩
  · intro s call s' _ hs htime hstep
    exact hs.step htime hstep

/-- Only a command outside the deadband is allowed, and then clipped. -/
theorem Exit.allowed {state : AntiLoopState} {decision : GuardDecision F} {after : AntiLoopState}
    (h : Exit c state call decision after) {cmd : CorrectionCommand F}
    (hallow : decision = .allow cmd) : ¬ InDeadband c call.cmd ∧ cmd = call.cmd.clipped c := by
  cases h with
  | frozen => cases hallow
  | deadband => cases hallow
  | allow _ hdead =>
    cases hallow
    exact ⟨hdead, rfl⟩
  | trigger =>
    have htrigger := handleOscillation_isTrigger c state.thawed call.triggeredAt
    rw [hallow] at htrigger
    cases htrigger

/-- Where the guard does not suppress, the call came a second after each trigger. -/
theorem cooled_step {decision : GuardDecision F} {after : AntiLoopState}
    (h : GuardInvariant c s) (htime : InTime s call) (hexit : Exit c s.state call decision after)
    {t : Instant} (ht : t ∈ triggers s.handled) (hsoon : call.now < t + secs 1) :
    decision = .suppress := by
  cases hexit with
  | frozen => rfl
  | deadband => rfl
  | allow hthawed => exact absurd (h.cooled htime hthawed t ht) (Nat.not_le_of_lt hsoon)
  | trigger hthawed => exact absurd (h.cooled htime hthawed t ht) (Nat.not_le_of_lt hsoon)

theorem escalated_step {decision : GuardDecision F} {after : AntiLoopState}
    (h : GuardInvariant c s) (htime : InTime s call) (hexit : Exit c s.state call decision after)
    (htrigger : decision.isTrigger = true) :
    decision = if c.oscillationAbortCount ≤
      recentCount (triggers (s.handled ++ [⟨call, decision⟩])) call.triggeredAt then .abort
      else .degrade := by
  cases hexit with
  | frozen => cases htrigger
  | deadband => cases htrigger
  | allow => cases htrigger
  | trigger hthawed =>
    rw [triggers_concat, if_pos htrigger]
    exact h.escalation htime hthawed

end

/-- What the guard may make of a command that it allows. -/
structure Bounded (c : CommanderConfig ℚ) (given allowed : CorrectionCommand ℚ) : Prop where
  yaw_le : |allowed.yawRateDps| ≤ c.maxYawRateDps
  pitch_le : |allowed.pitchRateDps| ≤ c.maxPitchRateDps
  offsetX_le : |allowed.offsetX| ≤ c.maxOffsetFraction
  offsetY_le : |allowed.offsetY| ≤ c.maxOffsetFraction
  yaw_side : 0 ≤ given.yawRateDps * allowed.yawRateDps
  pitch_side : 0 ≤ given.pitchRateDps * allowed.pitchRateDps
  offsetX_side : 0 ≤ given.offsetX * allowed.offsetX
  offsetY_side : 0 ≤ given.offsetY * allowed.offsetY
  outside : c.deadbandFraction ≤ |given.offsetX| ∨ c.deadbandFraction ≤ |given.offsetY|

theorem f32_abs_eq (x : ℚ) : F32.abs x = |x| := by
  change (if x < 0 then -x else x) = |x|
  split
  case isTrue h => exact (abs_of_neg h).symm
  case isFalse h => exact (abs_of_nonneg (not_lt.mp h)).symm

theorem clip_cases (x limit : ℚ) :
    (limit < |x| ∧ clip x limit = (if x < 0 then -1 else 1) * limit) ∨
    (|x| ≤ limit ∧ clip x limit = x) := by
  unfold clip
  rw [f32_abs_eq]
  split
  case isTrue h => exact .inl ⟨h, rfl⟩
  case isFalse h => exact .inr ⟨not_lt.mp h, rfl⟩

theorem abs_clip_le (x : ℚ) {limit : ℚ} (h : 0 ≤ limit) : |clip x limit| ≤ limit := by
  rcases clip_cases x limit with ⟨-, hclip⟩ | ⟨hle, hclip⟩
  · rw [hclip, abs_mul, abs_of_nonneg h]
    split <;> simp
  · rw [hclip]
    exact hle

theorem mul_clip_nonneg (x : ℚ) {limit : ℚ} (h : 0 ≤ limit) : 0 ≤ x * clip x limit := by
  rcases clip_cases x limit with ⟨-, hclip⟩ | ⟨-, hclip⟩
  · rw [hclip]
    split
    case isTrue hneg =>
      have : 0 ≤ -x * limit := mul_nonneg (by linarith) h
      linarith
    case isFalse hpos =>
      rw [one_mul]
      exact mul_nonneg (not_lt.mp hpos) h
  · rw [hclip]
    exact mul_self_nonneg x

theorem clipped_bounded {c : CommanderConfig ℚ} {cmd : CorrectionCommand ℚ}
    (hyaw : 0 ≤ c.maxYawRateDps) (hpitch : 0 ≤ c.maxPitchRateDps)
    (hoffset : 0 ≤ c.maxOffsetFraction) (hdead : ¬ InDeadband c cmd) :
    Bounded c cmd (cmd.clipped c) where
  yaw_le := abs_clip_le _ hyaw
  pitch_le := abs_clip_le _ hpitch
  offsetX_le := abs_clip_le _ hoffset
  offsetY_le := abs_clip_le _ hoffset
  yaw_side := mul_clip_nonneg _ hyaw
  pitch_side := mul_clip_nonneg _ hpitch
  offsetX_side := mul_clip_nonneg _ hoffset
  offsetY_side := mul_clip_nonneg _ hoffset
  outside := by
    unfold InDeadband at hdead
    rw [f32_abs_eq, f32_abs_eq, not_and_or, not_lt, not_lt] at hdead
    exact hdead

/-- What holds of a guard after any sequence of calls. -/
structure GuardLaw (c : CommanderConfig ℚ) (s : GuardRun ℚ) : Prop where
  counted : s.state.allowedCount + s.state.suppressedCount + s.state.oscillationTriggerCount =
    s.handled.length
  windowed : s.state.yawSignHistory.length ≤ c.oscillationWindow
  frozen_iff : s.state.frozen = true ↔ s.state.freezeUntil.isSome = true
  cooled : ∀ before h, before ++ [h] <+: s.handled → ∀ t ∈ triggers before,
    h.call.now < t + secs 1 → h.decision = .suppress
  escalated : ∀ before h, before ++ [h] <+: s.handled → h.decision.isTrigger = true →
    h.decision = if c.oscillationAbortCount ≤
      recentCount (triggers (before ++ [h])) h.call.triggeredAt then .abort else .degrade
  bounded : ∀ h ∈ s.handled, ∀ cmd, h.decision = .allow cmd → Bounded c h.call.cmd cmd

/-- What is true of each call, given those before it, is true along the whole run. -/
theorem each_call_step {F : Type} {P : List (Handled F) → Handled F → Prop}
    {handled : List (Handled F)} {last : Handled F}
    (h : ∀ before x, before ++ [x] <+: handled → P before x) (hlast : P handled last) :
    ∀ before x, before ++ [x] <+: handled ++ [last] → P before x := by
  intro before x hprefix
  rcases List.prefix_concat_iff.mp hprefix with heq | hold
  · obtain ⟨hbefore, hx⟩ := List.append_inj' heq rfl
    simp at hx
    rw [hbefore, hx]
    exact hlast
  · exact h before x hold

/-- Every sequence of calls in time obeys the law, where no limit is negative. -/
theorem guard_law {c : CommanderConfig ℚ} {s : GuardRun ℚ} (hyaw : 0 ≤ c.maxYawRateDps)
    (hpitch : 0 ≤ c.maxPitchRateDps) (hoffset : 0 ≤ c.maxOffsetFraction)
    (h : (guardRun c).ReachableBy InTime s) : GuardLaw c s := by
  have hinv := guardRun_invariant h
  suffices hcalls : (∀ before x, before ++ [x] <+: s.handled → ∀ t ∈ triggers before,
        x.call.now < t + secs 1 → x.decision = .suppress) ∧
      (∀ before x, before ++ [x] <+: s.handled → x.decision.isTrigger = true →
        x.decision = if c.oscillationAbortCount ≤
          recentCount (triggers (before ++ [x])) x.call.triggeredAt then .abort else .degrade) ∧
      ∀ x ∈ s.handled, ∀ cmd, x.decision = .allow cmd → Bounded c x.call.cmd cmd by
    obtain ⟨hcooled, hescalated, hbounded⟩ := hcalls
    refine ⟨hinv.counted, hinv.windowed, ?_, hcooled, hescalated, hbounded⟩
    rw [hinv.frozen_eq]
  clear hinv
  induction h with
  | init hinit =>
    rw [show _ = _ from hinit]
    simp
  | @step s s' call hreach htime hstep ih =>
    obtain ⟨hcooled, hescalated, hbounded⟩ := ih
    have hinv := guardRun_invariant hreach
    obtain ⟨decision, state, hexit, rfl⟩ := guardRun_step hstep
    refine ⟨each_call_step hcooled ?_, each_call_step hescalated ?_, ?_⟩
    · intro t ht hsoon
      exact cooled_step hinv htime hexit ht hsoon
    · exact escalated_step hinv htime hexit
    · intro x hx cmd hallow
      rcases List.mem_append.mp hx with hold | hnew
      · exact hbounded x hold cmd hallow
      · rw [List.mem_singleton.mp hnew] at hallow ⊢
        obtain ⟨hdead, rfl⟩ := hexit.allowed hallow
        exact clipped_bounded hyaw hpitch hoffset hdead

/-- A command with these offsets and rates, `ms` milliseconds after the start. -/
def callAt (yaw offset : ℚ) (ms : ℕ) : GuardCall ℚ :=
  ⟨⟨yaw, 0, offset, offset, ms * 1000000⟩, ms * 1000000, ms * 1000000⟩

/-- A reversal triggers, the freeze suppresses, and a command that comes later is clipped. -/
theorem guard_law_after_reversal : ∃ s, GuardLaw CommanderConfig.default s ∧
    s.handled.map (·.decision) =
      [.allow ⟨20, 0, 3 / 10, 3 / 10, 0⟩, .degrade, .suppress,
        .allow ⟨30, 0, 3 / 10, 3 / 10, 1200000000⟩] := by
  have hrun : ((guardRun CommanderConfig.default).exec InTime ⟨.new, []⟩
      [callAt 20 1 0, callAt (-20) (-1) 100, callAt 20 1 200, callAt 40 1 1200]).map
        (fun s => s.handled.map (·.decision)) =
      some [.allow ⟨20, 0, 3 / 10, 3 / 10, 0⟩, .degrade, .suppress,
        .allow ⟨30, 0, 3 / 10, 3 / 10, 1200000000⟩] := by decide +kernel
  obtain ⟨s, hs, hdecisions⟩ := Option.map_eq_some_iff.mp hrun
  refine ⟨s, ?_, hdecisions⟩
  exact guard_law (by decide +kernel) (by decide +kernel) (by decide +kernel) (.of_exec (.init rfl) hs)

end AutoTargeting.Control
