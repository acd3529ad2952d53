import AutoTargeting.Control.Disarm
import AutoTargeting.Library.LastWrite

namespace AutoTargeting.Control

open Runs LastWrite

section
variable {F : Type}

/-- What an accepted arm or disarm leaves the flight controller in. -/
def Entry.armed? : Entry F → Option Bool
  | fc .arm none _ => some true
  | fc .disarm none _ => some false
  | _ => none

/-- Was the last arm or disarm that the flight controller accepted an arm? -/
def commandedArmed (log : List (Entry F)) : Bool := lastWrite Entry.armed? false log

theorem commandedArmed_concat (log : List (Entry F)) (x : Entry F) :
    commandedArmed (log ++ [x]) = x.armed?.getD (commandedArmed log) :=
  lastWrite_concat Entry.armed? false log x

namespace Commander
variable {c : Commander F}

def commandedArmed (c : Commander F) : Bool := Control.commandedArmed c.log

theorem commandedArmed_withMachine (c : Commander F) (m : StateMachine) :
    (c.withMachine m).commandedArmed = c.commandedArmed := by
  unfold commandedArmed withMachine
  dsimp only
  split
  · rfl
  · exact commandedArmed_concat _ _

theorem commandedArmed_callFc (c : Commander F) (call : FcCall F) (env : Env F) (sentAt : Instant)
    (harm : call ≠ .arm) (hdisarm : call ≠ .disarm) :
    (c.callFc call env sentAt).2.commandedArmed = c.commandedArmed := by
  have hnone : (Entry.fc call env.fcError sentAt).armed? = none := by
    cases call <;> first | contradiction | rfl
  show Control.commandedArmed (c.log ++ [.fc call env.fcError sentAt]) = _
  rw [commandedArmed_concat, hnone]
  rfl

theorem commandedArmed_connect (c : Commander F) (env : Env F) :
    (c.connect env).2.commandedArmed = c.commandedArmed := by
  have hcall := c.commandedArmed_callFc .connect env (env.mono 0) nofun nofun
  unfold connect
  split
  case h_1 h => rwa [h] at hcall
  case h_2 called h =>
    rw [h] at hcall
    rw [← hcall]
    exact commandedArmed_withMachine _ _

theorem commandedArmed_disconnect (c : Commander F) (env : Env F) :
    (c.disconnect env).2.commandedArmed = c.commandedArmed := by
  have hcall := c.commandedArmed_callFc .disconnect env (env.mono 0) nofun nofun
  unfold disconnect
  split
  case h_1 h => rwa [h] at hcall
  case h_2 h => rwa [h] at hcall

theorem commandedArmed_requestFc (c : Commander F) {call : FcCall F} (env : Env F)
    (harm : call ≠ .arm) (hdisarm : call ≠ .disarm) :
    (c.requestFc call env).2.commandedArmed = c.commandedArmed := by
  unfold requestFc
  split
  · rfl
  · exact c.commandedArmed_callFc call env _ harm hdisarm

theorem commandedArmed_startScanning (c : Commander F) :
    c.startScanning.2.commandedArmed = c.commandedArmed := by
  have htry : (c.tryTransition .scanning).2.commandedArmed = c.commandedArmed :=
    c.commandedArmed_withMachine _
  unfold startScanning
  split
  case h_1 h => rwa [h] at htry
  case h_2 h => rwa [h] at htry

theorem commandedArmed_selectTarget (c : Commander F) (targetId : TargetId) :
    (c.selectTarget targetId).2.commandedArmed = c.commandedArmed := by
  have htry : (c.tryTransition .targetSelected).2.commandedArmed = c.commandedArmed :=
    c.commandedArmed_withMachine _
  unfold selectTarget
  split
  case h_5 => rfl
  all_goals
    split
    case h_1 h => rwa [h] at htry
    case h_2 selected h =>
      rw [h] at htry
      have hlock : (selected.tryTransition .tracking).2.commandedArmed = selected.commandedArmed :=
        selected.commandedArmed_withMachine _
      split
      case h_1 h' => rwa [h', htry] at hlock
      case h_2 h' => rwa [h', htry] at hlock

theorem commandedArmed_abort (c : Commander F) (env : Env F) :
    (c.abort env).2.commandedArmed = c.commandedArmed := by
  have hforce : (c.forceTransition .abort).commandedArmed = c.commandedArmed :=
    c.commandedArmed_withMachine _
  have hcall := commandedArmed_callFc { c.forceTransition .abort with
    rateLimiter := (c.forceTransition .abort).rateLimiter.forceSend (env.mono 3) } (.setMode .rtl)
    env (env.mono 3) nofun nofun
  unfold abort
  dsimp only
  rw [← hforce]
  split
  case h_1 h => rwa [h] at hcall
  case h_2 h => rwa [h] at hcall

theorem commandedArmed_processExpiry (c : Commander F) (expired : WatchdogId × WatchdogAction) :
    (c.processExpiry expired).commandedArmed = c.commandedArmed := by
  unfold processExpiry
  dsimp only
  split
  · split
    · exact commandedArmed_withMachine { c with
        watchdogs := c.watchdogs.noteExpiryProcessed expired.1 } _
    · rfl
  · rfl

theorem commandedArmed_processWatchdogExpiries (c : Commander F) (order : HashOrder) (now : ℤ) :
    (c.processWatchdogExpiries order now).2.commandedArmed = c.commandedArmed := by
  unfold processWatchdogExpiries
  generalize c.watchdogs.checkExpired order now = expired
  induction expired generalizing c with
  | nil => rfl
  | cons e rest ih => exact (ih (c.processExpiry e)).trans (c.commandedArmed_processExpiry e)

variable [F32 F]

theorem commandedArmed_sendAndComplete (c : Commander F) (cmd : CorrectionCommand F) (env : Env F) :
    (c.sendAndComplete cmd env).2.commandedArmed = c.commandedArmed := by
  have hlog : (c.sendAndComplete cmd env).2.log = _ :=
    congrArg Standing.log (c.sendAndComplete_standing cmd env)
  unfold commandedArmed
  rw [hlog]
  split
  · exact commandedArmed_concat _ _
  · rfl

theorem commandedArmed_update (c : Commander F) (targetOffset : Option (F × F)) (env : Env F) :
    (c.update targetOffset env).2.commandedArmed = c.commandedArmed := by
  unfold update
  dsimp only
  split
  · split
    · unfold correct
      generalize guarded _ _ env = t
      obtain ⟨decision, antiLoop⟩ := t
      cases decision with
      | allow clipped => exact commandedArmed_sendAndComplete _ clipped env
      | suppress => rfl
      | degrade => exact commandedArmed_withMachine _ _
      | abort => exact commandedArmed_abort _ env
    · rfl
  · rfl

end Commander

namespace Operation
variable {c c' : Commander F} {op : Operation F}

/-- Nothing is armed in IDLE, and no reset comes before the flight controller took a disarm. -/
def DisarmsFirst (c : Commander F) : Operation F → Prop
  | arm env => c.connected = true → env.fcError = none → c.state ≠ .idle
  | reset => c.state = .abort → c.commandedArmed = false
  | _ => True

instance (c : Commander F) : (op : Operation F) → Decidable (DisarmsFirst c op)
  | arm env => inferInstanceAs (Decidable (c.connected = true → env.fcError = none → c.state ≠ .idle))
  | reset => inferInstanceAs (Decidable (c.state = .abort → c.commandedArmed = false))
  | connect _ | disconnect _ | disarm _ | startScanning | selectTarget _ | update _ _
  | processWatchdogExpiries _ _ | abort _ | setFlightMode _ _ | setRoi _ _ | feed _ _ => .isTrue trivial

def IdleDisarmed (c : Commander F) : Prop := c.state = .idle → c.commandedArmed = false

/-- A step that keeps what is commanded and does not lead to IDLE. -/
theorem IdleDisarmed.keep (h : IdleDisarmed c) (harmed : c'.commandedArmed = c.commandedArmed)
    (hmoves : Moves (· ≠ .idle) True c.standing c'.standing) : IdleDisarmed c' := by
  intro hidle
  rw [harmed]
  apply h
  rcases hmoves.state_or with hsame | hnext
  · exact (show c'.state = c.state from hsame) ▸ hidle
  · exact absurd hidle hnext

theorem arm_commandedArmed (c : Commander F) (env : Env F) :
    (c.arm env).2.state = c.state ∧ (c.arm env).2.commandedArmed =
      (if c.connected = true ∧ env.fcError = none then true else c.commandedArmed) := by
  unfold Commander.arm Commander.requestFc
  cases hconnected : c.connected with
  | false => exact ⟨rfl, rfl⟩
  | true =>
    refine ⟨rfl, (commandedArmed_concat c.log (.fc .arm env.fcError (env.mono 0))).trans ?_⟩
    cases env.fcError with
    | none => rfl
    | some e => rfl

theorem idleDisarmed_arm (h : IdleDisarmed c) (env : Env F) :
    IdleDisarmed (c.arm env).2 ↔ DisarmsFirst c (.arm env) := by
  obtain ⟨hstate, harmed⟩ := arm_commandedArmed c env
  unfold IdleDisarmed DisarmsFirst
  rw [hstate, harmed]
  constructor
  · intro hidle hconnected hfc hstate
    have hfalse := hidle hstate
    rw [if_pos ⟨hconnected, hfc⟩] at hfalse
    cases hfalse
  · intro hfirst hidle
    rw [if_neg fun haccepted => hfirst haccepted.1 haccepted.2 hidle]
    exact h hidle

/-- An accepted disarm leaves nothing commanded armed, and a refused one leaves the state. -/
theorem idleDisarmed_disarm (h : IdleDisarmed c) (env : Env F) : IdleDisarmed (c.disarm env).2 := by
  unfold Commander.disarm
  split
  · exact h
  · rcases c.callFc_cases .disarm env (env.mono 0) with ⟨-, hcall⟩ | ⟨e, -, hcall⟩
    · rw [hcall]
      intro _
      have htry := (c.called .disarm none (env.mono 0)).commandedArmed_withMachine
        ((c.called .disarm none (env.mono 0)).machine.tryTransition .idle).2
      exact htry.trans (commandedArmed_concat c.log _)
    · rw [hcall]
      intro hidle
      exact (commandedArmed_concat c.log (.fc .disarm (some e) (env.mono 0))).trans (h hidle)

/-- A reset goes from ABORT to IDLE and asks the flight controller for nothing. -/
theorem idleDisarmed_reset (h : IdleDisarmed c) : IdleDisarmed c.reset.2 ↔ DisarmsFirst c .reset := by
  unfold Commander.reset
  split
  case isTrue hnot => exact iff_of_true h fun habort => absurd habort hnot
  case isFalse habort =>
    rw [not_not] at habort
    rcases c.tryTransition_cases .idle with ⟨hsame, -⟩ | ⟨-, -, htry⟩ | ⟨-, hnot, -⟩
    · rw [habort] at hsame
      cases hsame
    · rw [htry]
      have harmed : (c.movedTo .idle).commandedArmed = c.commandedArmed :=
        commandedArmed_concat c.log _
      exact ⟨fun hidle _ => harmed ▸ hidle rfl, fun hfirst _ => harmed.trans (hfirst habort)⟩
    · rw [habort] at hnot
      cases hnot

variable [F32 F]

/-- One operation keeps the law exactly if it disarms first. -/
theorem idleDisarmed_step (h : IdleDisarmed c) (op : Operation F) :
    IdleDisarmed (op.run c).2 ↔ DisarmsFirst c op := by
  cases op with
  | arm env => exact idleDisarmed_arm h env
  | disarm env => exact iff_of_true (idleDisarmed_disarm h env) trivial
  | reset => exact idleDisarmed_reset h
  | connect env =>
    exact iff_of_true (h.keep (c.commandedArmed_connect env) (c.connect_moves env nofun)) trivial
  | disconnect env =>
    exact iff_of_true (h.keep (c.commandedArmed_disconnect env) (c.disconnect_moves env)) trivial
  | startScanning =>
    exact iff_of_true (h.keep c.commandedArmed_startScanning (c.startScanning_moves nofun)) trivial
  | selectTarget targetId =>
    exact iff_of_true (h.keep (c.commandedArmed_selectTarget targetId)
      (c.selectTarget_moves targetId nofun nofun)) trivial
  | update targetOffset env =>
    exact iff_of_true (h.keep (c.commandedArmed_update targetOffset env)
      (c.update_moves targetOffset env nofun nofun)) trivial
  | processWatchdogExpiries order now =>
    exact iff_of_true (h.keep (c.commandedArmed_processWatchdogExpiries order now)
      (c.processWatchdogExpiries_moves order now nofun)) trivial
  | abort env =>
    exact iff_of_true (h.keep (c.commandedArmed_abort env) (c.abort_moves env nofun)) trivial
  | setFlightMode mode env =>
    exact iff_of_true (h.keep (c.commandedArmed_requestFc env nofun nofun)
      (c.requestFc_moves env rfl)) trivial
  | setRoi roi env =>
    exact iff_of_true (h.keep (c.commandedArmed_requestFc env nofun nofun)
      (c.requestFc_moves env rfl)) trivial
  | feed id now => exact iff_of_true h trivial

/-- Where every operation disarms first, IDLE means disarmed in every state reached, and so it
does before every reset; the first operation that does not breaks it. -/
theorem idle_means_disarmed (h : (machine F).ReachableBy DisarmsFirst c) :
    IdleDisarmed c ∧ ∀ op : Operation F, IdleDisarmed (op.run c).2 ↔ DisarmsFirst c op := by
  have hidle : IdleDisarmed c := by
    refine h.invariant (I := IdleDisarmed) ?_ ?_
    · rintro c ⟨config, env, camera, rfl⟩
      exact fun _ => rfl
    · intro c op c' _ hc hfirst hstep
      cases hstep
      exact (idleDisarmed_step hc op).mpr hfirst
  exact ⟨hidle, idleDisarmed_step hidle⟩

/-- An arm, a disarm, and an abort that is reset. -/
theorem idle_means_disarmed_after_reset : ∃ c : Commander ℚ, c.state = .idle ∧
    c.machine.transitionCount = 3 ∧ IdleDisarmed c ∧
    ∀ op : Operation ℚ, IdleDisarmed (op.run c).2 ↔ DisarmsFirst c op := by
  have hrun : ((machine ℚ).exec DisarmsFirst (Commander.new .default (envAt 0))
      [.connect (envAt 0), .arm (envAt 0), .disarm (envAt 0), .abort (envAt 0), .reset]).map
      (fun c => (c.state, c.machine.transitionCount)) = some (.idle, 3) := rfl
  obtain ⟨c, hc, hobs⟩ := Option.map_eq_some_iff.mp hrun
  obtain ⟨hstate, hcount⟩ := Prod.mk.inj hobs
  have hreach : (machine ℚ).ReachableBy DisarmsFirst c :=
    .of_exec (.init ⟨.default, envAt 0, .default, rfl⟩) hc
  exact ⟨c, hstate, hcount, idle_means_disarmed hreach⟩

/-- The same without the disarm: the reset is accepted, and the vehicle is armed in IDLE. -/
theorem idle_while_armed :
    ¬ ∀ c : Commander ℚ, (machine ℚ).Reachable c → c.state = .idle → c.commandedArmed = false := by
  intro hall
  have hrun : ((machine ℚ).exec (fun _ _ => True) (Commander.new .default (envAt 0))
      [.connect (envAt 0), .arm (envAt 0), .abort (envAt 0), .reset]).map
      (fun c => (c.state, c.commandedArmed)) = some (.idle, true) := rfl
  obtain ⟨c, hc, hobs⟩ := Option.map_eq_some_iff.mp hrun
  obtain ⟨hstate, harmed⟩ := Prod.mk.inj hobs
  have hdisarmed := hall c (.of_exec (.init ⟨.default, envAt 0, .default, rfl⟩) hc) hstate
  rw [hdisarmed] at harmed
  cases harmed

end Operation

end

end AutoTargeting.Control
