import AutoTargeting.Control.Moves
import AutoTargeting.Library.Machine

namespace AutoTargeting.Control

open Runs

namespace Commander
variable {F : Type} {P : SystemState → Prop} {may : Prop}

def standing (c : Commander F) : Standing F := ⟨c.state, c.activeTargetId, c.log⟩

def movedTo (c : Commander F) (next : SystemState) : Commander F :=
  { c with machine := c.machine.moveTo next, log := c.log ++ [.transition c.state next] }

theorem withMachine_self (c : Commander F) : c.withMachine c.machine = c := by
  unfold withMachine
  rw [if_pos (show c.machine.state = c.state from rfl)]

theorem withMachine_moveTo (c : Commander F) {next : SystemState} (h : c.state ≠ next) :
    c.withMachine (c.machine.moveTo next) = c.movedTo next := by
  unfold withMachine movedTo
  rw [if_neg (show (c.machine.moveTo next).state ≠ c.state from Ne.symm h)]
  rfl

/-- A transition is no change, or a change along the table, or an error. -/
theorem tryTransition_cases (c : Commander F) (next : SystemState) :
    (c.state = next ∧ c.tryTransition next = (.ok (), c)) ∨
    (c.state ≠ next ∧ isTransitionAllowed c.state next = true ∧
      c.tryTransition next = (.ok (), c.movedTo next)) ∨
    (c.state ≠ next ∧ isTransitionAllowed c.state next = false ∧
      c.tryTransition next = (.error (.stateTransition ⟨c.state, next⟩), c)) := by
  unfold tryTransition StateMachine.tryTransition
  by_cases hsame : c.machine.state = next
  · left
    refine ⟨hsame, ?_⟩
    rw [if_pos hsame]
    exact congrArg _ c.withMachine_self
  · right
    rw [if_neg hsame]
    cases hallowed : isTransitionAllowed c.machine.state next with
    | true =>
      left
      exact ⟨hsame, hallowed, congrArg _ (c.withMachine_moveTo hsame)⟩
    | false =>
      right
      exact ⟨hsame, hallowed, congrArg _ c.withMachine_self⟩

theorem tryTransition_ok (c : Commander F) {next : SystemState}
    (h : (c.tryTransition next).1 = .ok ()) : (c.tryTransition next).2.state = next := by
  rcases c.tryTransition_cases next with ⟨hsame, htry⟩ | ⟨-, -, htry⟩ | ⟨-, -, htry⟩
  · rw [htry]
    exact hsame
  · rw [htry]
    rfl
  · rw [htry] at h
    cases h

theorem movedTo_moves (c : Commander F) {next : SystemState} (hP : P next)
    (h : isTransitionAllowed c.state next = true) : Moves P may c.standing (c.movedTo next).standing :=
  .single (.transition c.standing h hP)

theorem tryTransition_moves (c : Commander F) {next : SystemState} (hP : P next) :
    Moves P may c.standing (c.tryTransition next).2.standing := by
  rcases c.tryTransition_cases next with ⟨-, h⟩ | ⟨-, hallowed, h⟩ | ⟨-, -, h⟩ <;> rw [h]
  · exact c.movedTo_moves hP hallowed

/-- Every state has an edge to ABORT, so that a forced abort follows the table too. -/
theorem isTransitionAllowed_abort (s : SystemState) : isTransitionAllowed s .abort = true := by
  cases s <;> rfl

theorem forceAbort_eq (c : Commander F) :
    c.forceTransition .abort = if c.state = .abort then c else c.movedTo .abort := by
  unfold forceTransition StateMachine.forceTransition state
  by_cases h : c.machine.state = .abort
  · rw [if_pos h, if_pos h]
    exact c.withMachine_self
  · rw [if_neg h, if_neg h]
    exact c.withMachine_moveTo h

theorem forceAbort_state (c : Commander F) : (c.forceTransition .abort).state = .abort := by
  rw [forceAbort_eq]
  by_cases h : c.state = .abort
  · rw [if_pos h]
    exact h
  · rw [if_neg h]
    rfl

theorem forceAbort_moves (c : Commander F) (hP : P .abort) :
    Moves P may c.standing (c.forceTransition .abort).standing := by
  rw [forceAbort_eq]
  by_cases h : c.state = .abort
  · rw [if_pos h]
  · rw [if_neg h]
    exact c.movedTo_moves hP (isTransitionAllowed_abort c.state)

/-- The commander after a call that came back with `error`. -/
def called (c : Commander F) (call : FcCall F) (error : Option FcError) (sentAt : Instant) :
    Commander F := { c with log := c.log ++ [.fc call error sentAt] }

theorem callFc_cases (c : Commander F) (call : FcCall F) (env : Env F) (sentAt : Instant) :
    (env.fcError = none ∧ c.callFc call env sentAt = (.ok (), c.called call none sentAt)) ∨
    (∃ e, env.fcError = some e ∧
      c.callFc call env sentAt = (.error (.fc e), c.called call (some e) sentAt)) := by
  unfold callFc called
  cases hfc : env.fcError with
  | none => exact .inl ⟨rfl, rfl⟩
  | some e => exact .inr ⟨e, rfl, rfl⟩

theorem callFc_moves (c : Commander F) {call : FcCall F} (env : Env F) (sentAt : Instant)
    (h : call.isCorrection = false) : Moves P may c.standing (c.callFc call env sentAt).2.standing :=
  .single (.request c.standing env.fcError sentAt h)

theorem aim_moves (c : Commander F) (target : Option TargetId) :
    Moves P may c.standing { c with activeTargetId := target }.standing :=
  .single (.aim c.standing target)

theorem connect_moves (c : Commander F) (env : Env F) (hP : P .armed) :
    Moves P may c.standing (c.connect env).2.standing := by
  have hcall : Moves P may c.standing (c.callFc .connect env (env.mono 0)).2.standing :=
    c.callFc_moves env _ rfl
  unfold connect
  split
  case h_1 h => rwa [h] at hcall
  case h_2 c' h =>
    rw [h] at hcall
    apply hcall.trans
    exact tryTransition_moves { c' with
      connected := true
      watchdogs := c'.watchdogs.register .fcHeartbeat
        ⟨max c'.config.fcHeartbeatWdtMs 1000, .abort⟩ (env.utc 0) } hP

theorem disconnect_moves (c : Commander F) (env : Env F) :
    Moves P may c.standing (c.disconnect env).2.standing := by
  have hcall : Moves P may c.standing (c.callFc .disconnect env (env.mono 0)).2.standing :=
    c.callFc_moves env _ rfl
  unfold disconnect
  split
  case h_1 h => rwa [h] at hcall
  case h_2 h => rwa [h] at hcall

theorem requestFc_moves (c : Commander F) {call : FcCall F} (env : Env F)
    (h : call.isCorrection = false) : Moves P may c.standing (c.requestFc call env).2.standing := by
  unfold requestFc
  split
  · exact .refl
  · exact c.callFc_moves env _ h

theorem disarm_moves (c : Commander F) (env : Env F) (hP : P .idle) :
    Moves P may c.standing (c.disarm env).2.standing := by
  have hcall : Moves P may c.standing (c.callFc .disarm env (env.mono 0)).2.standing :=
    c.callFc_moves env _ rfl
  unfold disarm
  split
  · exact .refl
  · split
    case h_1 h => rwa [h] at hcall
    case h_2 c' h =>
      rw [h] at hcall
      exact (hcall.trans (c'.tryTransition_moves hP)).trans (aim_moves _ none)

theorem startScanning_moves (c : Commander F) (hP : P .scanning) :
    Moves P may c.standing c.startScanning.2.standing := by
  have htry : Moves P may c.standing (c.tryTransition .scanning).2.standing := c.tryTransition_moves hP
  unfold startScanning
  split
  case h_1 h => rwa [h] at htry
  case h_2 h =>
    rw [h] at htry
    exact htry.trans (aim_moves _ none)

/-- A selection that is no error passes through TARGET_SELECTED. -/
theorem selectTarget_moves (c : Commander F) (targetId : TargetId) (hselected : P .targetSelected)
    (htracking : P .tracking) : Moves P may c.standing (c.selectTarget targetId).2.standing := by
  have htry : Moves P may c.standing (c.tryTransition .targetSelected).2.standing :=
    c.tryTransition_moves hselected
  unfold selectTarget
  split
  case h_5 => exact .refl
  all_goals
    split
    case h_1 h => rwa [h] at htry
    case h_2 c' h =>
      rw [h] at htry
      have hlock := htry.trans (c'.tryTransition_moves htracking)
      split
      case h_1 h' => rwa [h'] at hlock
      case h_2 h' =>
        rw [h'] at hlock
        exact hlock.trans (aim_moves _ _)

theorem reset_moves (c : Commander F) (hP : P .idle) : Moves P may c.standing c.reset.2.standing := by
  have htry : Moves P may c.standing (c.tryTransition .idle).2.standing := c.tryTransition_moves hP
  unfold reset
  split
  · exact .refl
  · split
    case h_1 h => rwa [h] at htry
    case h_2 h =>
      rw [h] at htry
      exact htry.trans (aim_moves _ none)

theorem abort_moves (c : Commander F) (env : Env F) (hP : P .abort) :
    Moves P may c.standing (c.abort env).2.standing := by
  have hforce : Moves P may c.standing (c.forceTransition .abort).standing := c.forceAbort_moves hP
  have hcall : Moves P may (c.forceTransition .abort).standing
      ({ c.forceTransition .abort with
        rateLimiter := (c.forceTransition .abort).rateLimiter.forceSend (env.mono 3) }.callFc
          (.setMode .rtl) env (env.mono 3)).2.standing := callFc_moves _ env _ rfl
  unfold abort
  dsimp only
  split
  case h_1 h =>
    rw [h] at hcall
    exact hforce.trans hcall
  case h_2 h =>
    rw [h] at hcall
    exact (hforce.trans hcall).trans (aim_moves _ none)

theorem processExpiry_moves (c : Commander F) (expired : WatchdogId × WatchdogAction)
    (hP : P .trackingDegraded) : Moves P may c.standing (c.processExpiry expired).standing := by
  unfold processExpiry
  dsimp only
  split
  · split
    · exact tryTransition_moves { c with
        watchdogs := c.watchdogs.noteExpiryProcessed expired.1 } hP
    · exact .refl
  · exact .refl

theorem processWatchdogExpiries_moves (c : Commander F) (order : HashOrder) (now : ℤ)
    (hP : P .trackingDegraded) :
    Moves P may c.standing (c.processWatchdogExpiries order now).2.standing := by
  unfold processWatchdogExpiries
  generalize c.watchdogs.checkExpired order now = expired
  induction expired generalizing c with
  | nil => exact .refl
  | cons e rest ih => exact (c.processExpiry_moves e hP).trans (ih (c.processExpiry e))

end Commander

end AutoTargeting.Control
