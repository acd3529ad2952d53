import AutoTargeting.Control.AntiLoop
import AutoTargeting.Library.Machine

namespace AutoTargeting.Control

open Runs

/-- One call of `process`, which reads the clock when it begins, and again where it triggers. -/
structure GuardCall (F : Type) where
  cmd : CorrectionCommand F
  now : Instant
  triggeredAt : Instant
  deriving DecidableEq, Repr

/-- A call with what came of it. -/
structure Handled (F : Type) where
  call : GuardCall F
  decision : GuardDecision F
  deriving DecidableEq, Repr

/-- A guard with the calls it handled, oldest first. -/
structure GuardRun (F : Type) where
  state : AntiLoopState
  handled : List (Handled F)
  deriving DecidableEq, Repr

def GuardDecision.isTrigger {F : Type} : GuardDecision F → Bool
  | .degrade | .abort => true
  | .allow _ | .suppress => false

def GuardDecision.isAllow {F : Type} : GuardDecision F → Bool
  | .allow _ => true
  | .suppress | .degrade | .abort => false

def triggers {F : Type} (handled : List (Handled F)) : List Instant :=
  (handled.filter (·.decision.isTrigger)).map (·.call.triggeredAt)

theorem triggers_concat {F : Type} (handled : List (Handled F)) (h : Handled F) :
    triggers (handled ++ [h]) =
      triggers handled ++ if h.decision.isTrigger = true then [h.call.triggeredAt] else [] := by
  unfold triggers
  rw [List.filter_append, List.map_append]
  split <;> simp [*]

theorem handleOscillation_isTrigger {F : Type} (c : CommanderConfig F) (s : AntiLoopState) (now : Instant) :
    (handleOscillation c s now).1.isTrigger = true := by
  unfold handleOscillation
  dsimp only
  split <;> rfl

section
variable {F : Type} [F32 F]

def guardRun (c : CommanderConfig F) : Machine (GuardRun F) (GuardCall F) where
  Init s := s = ⟨.new, []⟩
  step s call :=
    let t := process c s.state call.cmd call.now call.triggeredAt
    some ⟨t.2, s.handled ++ [⟨call, t.1⟩]⟩

/-- The clock does not go back. -/
def InTime (s : GuardRun F) (call : GuardCall F) : Prop :=
  (∀ h ∈ s.handled, h.call.triggeredAt ≤ call.now) ∧ call.now ≤ call.triggeredAt

instance : ∀ (s : GuardRun F) (call : GuardCall F), Decidable (InTime s call) :=
  fun _ _ => inferInstanceAs (Decidable (_ ∧ _))

/-- Both offsets are smaller than the deadband. -/
def InDeadband (c : CommanderConfig F) (cmd : CorrectionCommand F) : Prop :=
  F32.abs cmd.offsetX < c.deadbandFraction ∧ F32.abs cmd.offsetY < c.deadbandFraction

/-- The sign that the history keeps of a command. -/
def yawSign (c : CommanderConfig F) (cmd : CorrectionCommand F) : Bool :=
  decide (F32.ofRat 0 < clip cmd.yawRateDps c.maxYawRateDps)

namespace AntiLoopState

/-- The state when its freeze, if any, is over. -/
def thawed (s : AntiLoopState) : AntiLoopState :=
  match s.freezeUntil with
  | some _ => { s with frozen := false, freezeUntil := none }
  | none => s

def allowed (s : AntiLoopState) (window : ℕ) (sign : Bool) : AntiLoopState :=
  let pushed := s.yawSignHistory ++ [sign]
  { s with
    yawSignHistory := if window < pushed.length then pushed.tail else pushed
    allowedCount := s.allowedCount + 1 }

def suppressed (s : AntiLoopState) : AntiLoopState :=
  { s with suppressedCount := s.suppressedCount + 1 }

@[simp] theorem thawed_history (s : AntiLoopState) :
    s.thawed.yawSignHistory = s.yawSignHistory := by
  unfold thawed
  split <;> rfl

@[simp] theorem thawed_recent (s : AntiLoopState) :
    s.thawed.recentTriggers = s.recentTriggers := by
  unfold thawed
  split <;> rfl

@[simp] theorem thawed_freezeUntil (s : AntiLoopState) : s.thawed.freezeUntil = none := by
  unfold thawed
  split
  · rfl
  · assumption

@[simp] theorem thawed_counts (s : AntiLoopState) : s.thawed.suppressedCount = s.suppressedCount ∧
    s.thawed.allowedCount = s.allowedCount ∧
    s.thawed.oscillationTriggerCount = s.oscillationTriggerCount := by
  unfold thawed
  split <;> exact ⟨rfl, rfl, rfl⟩

end AntiLoopState

/-- What one call does: the five exits of `process`, of which the last two are one function. -/
inductive Exit (c : CommanderConfig F) (s : AntiLoopState) (call : GuardCall F) :
    GuardDecision F → AntiLoopState → Prop
  | frozen (until_ : Instant) : s.freezeUntil = some until_ → call.now < until_ →
      Exit c s call .suppress s.suppressed
  | deadband : (∀ until_, s.freezeUntil = some until_ → until_ ≤ call.now) →
      InDeadband c call.cmd → Exit c s call .suppress s.thawed.suppressed
  | allow : (∀ until_, s.freezeUntil = some until_ → until_ ≤ call.now) →
      ¬ InDeadband c call.cmd →
      oscillates c s.yawSignHistory (clip call.cmd.yawRateDps c.maxYawRateDps) = false →
      Exit c s call (.allow (call.cmd.clipped c))
        (s.thawed.allowed c.oscillationWindow (yawSign c call.cmd))
  | trigger : (∀ until_, s.freezeUntil = some until_ → until_ ≤ call.now) →
      ¬ InDeadband c call.cmd →
      oscillates c s.yawSignHistory (clip call.cmd.yawRateDps c.maxYawRateDps) = true →
      Exit c s call (handleOscillation c s.thawed call.triggeredAt : GuardDecision F × _).1
        (handleOscillation c s.thawed call.triggeredAt : GuardDecision F × _).2

theorem processUnfrozen_exit (c : CommanderConfig F) (s : AntiLoopState) (call : GuardCall F)
    (hthawed : ∀ until_, s.freezeUntil = some until_ → until_ ≤ call.now) :
    Exit c s call (processUnfrozen c s.thawed call.cmd call.triggeredAt).1
      (processUnfrozen c s.thawed call.cmd call.triggeredAt).2 := by
  unfold processUnfrozen
  split
  case isTrue hdead => exact .deadband hthawed hdead
  case isFalse hdead =>
    dsimp only
    rw [s.thawed_history]
    split
    case isTrue hoscillates => exact .trigger hthawed hdead hoscillates
    case isFalse hoscillates =>
      have hexit := Exit.allow (s := s) hthawed hdead (Bool.eq_false_iff.mpr hoscillates)
      unfold AntiLoopState.allowed at hexit
      rw [s.thawed_history] at hexit
      exact hexit

theorem process_exit (c : CommanderConfig F) (s : AntiLoopState) (call : GuardCall F) :
    Exit c s call (process c s call.cmd call.now call.triggeredAt).1
      (process c s call.cmd call.now call.triggeredAt).2 := by
  unfold process
  split
  case h_1 until_ hfreeze =>
    split
    case isTrue hnow => exact .frozen until_ hfreeze hnow
    case isFalse hnow =>
      have hexit := processUnfrozen_exit c s call (by
        intro u hu
        rw [hfreeze] at hu
        cases hu
        exact Nat.le_of_not_lt hnow)
      unfold AntiLoopState.thawed at hexit
      rwa [hfreeze] at hexit
  case h_2 hfreeze =>
    have hexit := processUnfrozen_exit c s call (by
      intro u hu
      rw [hfreeze] at hu
      cases hu)
    unfold AntiLoopState.thawed at hexit
    rwa [hfreeze] at hexit

theorem guardRun_step {c : CommanderConfig F} {s s' : GuardRun F} {call : GuardCall F}
    (h : (guardRun c).step s call = some s') : ∃ decision state,
      Exit c s.state call decision state ∧ s' = ⟨state, s.handled ++ [⟨call, decision⟩]⟩ := by
  cases h
  exact ⟨_, _, process_exit c s.state call, rfl⟩

end

end AutoTargeting.Control
