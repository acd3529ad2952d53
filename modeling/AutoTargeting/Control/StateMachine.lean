import AutoTargeting.Control.Types

namespace AutoTargeting.Control

/-- `StateTransitionError::Invalid`, the one variant that is ever built. -/
structure StateTransitionError where
  fromState : SystemState
  toState : SystemState
  deriving DecidableEq, Repr

def StateTransitionError.display (e : StateTransitionError) : String :=
  "invalid transition: " ++ e.fromState.asStr ++ " -> " ++ e.toState.asStr

def isTransitionAllowed : SystemState → SystemState → Bool
  | .idle, .armed => true
  | .armed, .scanning => true
  | .scanning, .targetSelected => true
  | .targetSelected, .tracking => true
  | .targetSelected, .trackingDegraded => true
  | .tracking, .trackingDegraded => true
  | .trackingDegraded, .tracking => true
  | .tracking, .lost => true
  | .trackingDegraded, .lost => true
  | .lost, .tracking => true
  | .lost, .rth => true
  | .rth, .idle => true
  | .scanning, .idle => true
  | .tracking, .scanning => true
  | .trackingDegraded, .scanning => true
  | .lost, .scanning => true
  | .targetSelected, .scanning => true
  | _, .abort => true
  | .abort, .idle => true
  | _, _ => false

structure StateMachine where
  state : SystemState
  transitionCount : ℕ
  deriving DecidableEq, Repr

namespace StateMachine

def new (initial : SystemState) : StateMachine := ⟨initial, 0⟩

/-- The two assignments that `try_transition` and `force_transition` share. -/
def moveTo (m : StateMachine) (next : SystemState) : StateMachine := ⟨next, m.transitionCount + 1⟩

def tryTransition (m : StateMachine) (next : SystemState) :
    Except StateTransitionError Unit × StateMachine :=
  if m.state = next then (.ok (), m)
  else if !isTransitionAllowed m.state next then (.error ⟨m.state, next⟩, m)
  else (.ok (), m.moveTo next)

def forceTransition (m : StateMachine) (next : SystemState) : StateMachine :=
  if m.state = next then m else m.moveTo next

end StateMachine

end AutoTargeting.Control
