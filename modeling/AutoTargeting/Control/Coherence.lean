import AutoTargeting.Control.Atomicity
import AutoTargeting.Control.HeartbeatWatch

namespace AutoTargeting.Control

open Runs

section
variable {F : Type} {c c' : Commander F} {env : Env F}

/-- There is an active target in TRACKING and in TRACKING_DEGRADED, and in no other state. -/
def Coherent (c : Commander F) : Prop := c.activeTargetId.isSome = true ↔ c.state.Corrects

theorem Coherent.congr (h : Coherent c) (hstate : c'.state = c.state)
    (htarget : c'.activeTargetId = c.activeTargetId) : Coherent c' := by
  unfold Coherent
  rw [hstate, htarget]
  exact h

theorem Coherent.of_none (htarget : c.activeTargetId = none) (hstate : ¬ c.state.Corrects) :
    Coherent c := by
  unfold Coherent
  rw [htarget]
  exact iff_of_false nofun hstate

theorem Coherent.target_none (h : Coherent c) (hstate : ¬ c.state.Corrects) :
    c.activeTargetId = none :=
  Option.not_isSome_iff_eq_none.mp fun htarget => hstate (h.mp htarget)

theorem coherent_connect (h : Coherent c) (env : Env F) : Coherent (c.connect env).2 := by
  cases hfc : env.fcError with
  | some e =>
    unfold Commander.connect Commander.callFc
    rw [hfc]
    exact h.congr rfl rfl
  | none =>
    rw [connect_eq c env hfc]
    rcases (c.connecting env).tryTransition_cases .armed with
      ⟨-, htry⟩ | ⟨-, hallowed, htry⟩ | ⟨-, -, htry⟩
    · rw [htry]
      exact h.congr rfl rfl
    · rw [htry]
      have hnot : ¬ c.state.Corrects := by
        have hedge : isTransitionAllowed c.state .armed = true := hallowed
        revert hedge
        cases c.state <;> decide
      exact .of_none (h.target_none hnot) (by decide : ¬ SystemState.armed.Corrects)
    · rw [htry]
      exact h.congr rfl rfl

theorem coherent_disconnect (h : Coherent c) (env : Env F) : Coherent (c.disconnect env).2 := by
  unfold Commander.disconnect
  rcases c.callFc_cases .disconnect env (env.mono 0) with ⟨-, hcall⟩ | ⟨e, -, hcall⟩
  · rw [hcall]
    exact h.congr rfl rfl
  · rw [hcall]
    exact h.congr rfl rfl

theorem coherent_requestFc (h : Coherent c) (call : FcCall F) (env : Env F) :
    Coherent (c.requestFc call env).2 := by
  unfold Commander.requestFc
  split
  · exact h
  · exact h.congr rfl rfl

/-- A disarm that is accepted while the target is followed clears the target alone. -/
theorem coherent_disarm_iff (h : Coherent c) (env : Env F) :
    Coherent (c.disarm env).2 ↔
      (c.connected = true → env.fcError = none → ¬ c.state.Corrects) := by
  cases hconnected : c.connected with
  | false =>
    unfold Commander.disarm
    rw [hconnected]
    exact iff_of_true h nofun
  | true =>
    cases hfc : env.fcError with
    | some e =>
      unfold Commander.disarm Commander.callFc
      rw [hconnected, hfc]
      exact iff_of_true (h.congr rfl rfl) nofun
    | none =>
      obtain ⟨c', hok⟩ : ∃ c', c.disarm env = (.ok (), c') := by
        unfold Commander.disarm Commander.callFc
        rw [hconnected, hfc]
        exact ⟨_, rfl⟩
      obtain ⟨htarget, hstate⟩ := disarm_ok hok
      have hcorrects : c'.state.Corrects ↔ c.state.Corrects := by
        rw [hstate]
        cases c.state <;> decide
      rw [hok]
      unfold Coherent
      rw [htarget, hcorrects]
      simp

theorem coherent_startScanning (h : Coherent c) : Coherent c.startScanning.2 := by
  have hstate : (c.tryTransition .scanning).1 = .ok () →
      (c.tryTransition .scanning).2.state = .scanning := c.tryTransition_ok
  unfold Commander.startScanning
  split
  case h_1 htry => exact tryTransition_error c htry ▸ h
  case h_2 c' htry =>
    rw [htry] at hstate
    refine .of_none rfl ?_
    show ¬ c'.state.Corrects
    rw [hstate rfl]
    decide

theorem coherent_selectTarget (h : Coherent c) (targetId : TargetId) :
    Coherent (c.selectTarget targetId).2 := by
  rcases c.selectTarget_cases targetId with ⟨-, c', hok, hstate, htarget⟩ | ⟨-, e, herror⟩
  · rw [hok]
    unfold Coherent
    rw [hstate, htarget]
    exact iff_of_true rfl (.inl rfl)
  · rw [herror]
    exact h

/-- A degrading transition goes from one correcting state to another. -/
theorem coherent_degrade (h : Coherent c) (hstate : c.state.Corrects) :
    Coherent (c.tryTransition .trackingDegraded).2 := by
  rcases c.tryTransition_cases .trackingDegraded with ⟨-, htry⟩ | ⟨-, -, htry⟩ | ⟨-, -, htry⟩
  · rw [htry]
    exact h
  · rw [htry]
    exact iff_of_true (h.mpr hstate) (.inr rfl)
  · rw [htry]
    exact h

/-- An abort whose RTL fails keeps its target. -/
theorem coherent_abort_iff (c : Commander F) (env : Env F) :
    Coherent (c.abort env).2 ↔ (c.activeTargetId.isSome = true → env.fcError = none) := by
  have htarget : (c.abort env).2.activeTargetId =
      if env.fcError = none then none else c.activeTargetId := by
    unfold Commander.abort Commander.callFc
    cases env.fcError <;> rfl
  have hnot : ¬ (c.abort env).2.state.Corrects := by
    rw [abort_state]
    decide
  unfold Coherent
  rw [htarget, iff_false_right hnot]
  by_cases hfc : env.fcError = none
  · rw [if_pos hfc]
    exact iff_of_true nofun fun _ => hfc
  · rw [if_neg hfc]
    exact ⟨fun hnone htarget => absurd htarget hnone, fun hall htarget => hfc (hall htarget)⟩

theorem coherent_reset (h : Coherent c) : Coherent c.reset.2 := by
  have hstate : (c.tryTransition .idle).1 = .ok () →
      (c.tryTransition .idle).2.state = .idle := c.tryTransition_ok
  unfold Commander.reset
  split
  · exact h
  · split
    case h_1 htry => exact tryTransition_error c htry ▸ h
    case h_2 c' htry =>
      rw [htry] at hstate
      refine .of_none rfl ?_
      show ¬ c'.state.Corrects
      rw [hstate rfl]
      decide

theorem coherent_processExpiry (h : Coherent c) (expired : WatchdogId × WatchdogAction) :
    Coherent (c.processExpiry expired) := by
  unfold Commander.processExpiry
  dsimp only
  split
  · split
    case isTrue htracking =>
      exact coherent_degrade (c := { c with
        watchdogs := c.watchdogs.noteExpiryProcessed expired.1 }) (h.congr rfl rfl) (.inl htracking)
    case isFalse => exact h.congr rfl rfl
  · exact h.congr rfl rfl

theorem coherent_processWatchdogExpiries (h : Coherent c) (order : HashOrder) (now : ℤ) :
    Coherent (c.processWatchdogExpiries order now).2 := by
  unfold Commander.processWatchdogExpiries
  generalize c.watchdogs.checkExpired order now = expired
  induction expired generalizing c with
  | nil => exact h
  | cons e rest ih => exact ih (coherent_processExpiry h e)

variable [F32 F]

/-- Does this `update` abort? It does where it corrects and the guard says so. -/
def Aborts (c : Commander F) (targetOffset : Option (F × F)) (env : Env F) : Prop :=
  c.activeTargetId.isSome = true ∧ c.state.Corrects ∧
    ∃ offset, targetOffset = some offset ∧ (c.guarded offset env).1 = .abort

theorem coherent_sendAndComplete (h : Coherent c) (cmd : CorrectionCommand F) (env : Env F) :
    Coherent (c.sendAndComplete cmd env).2 := by
  have hstanding := c.sendAndComplete_standing cmd env
  have hstate : (c.sendAndComplete cmd env).2.state = c.state := by
    rw [show (c.sendAndComplete cmd env).2.state = _ from congrArg Standing.state hstanding]
    split <;> rfl
  have htarget : (c.sendAndComplete cmd env).2.activeTargetId = c.activeTargetId := by
    rw [show (c.sendAndComplete cmd env).2.activeTargetId = _ from congrArg Standing.target hstanding]
    split <;> rfl
  exact h.congr hstate htarget

theorem coherent_correct_iff (h : Coherent c) (hstate : c.state.Corrects) (offset : F × F)
    (env : Env F) : Coherent (c.correct offset env).2 ↔
      ((c.guarded offset env).1 = .abort → env.fcError = none) := by
  unfold Commander.correct
  generalize c.guarded offset env = t
  obtain ⟨decision, antiLoop⟩ := t
  have h' : Coherent { c with antiLoop := antiLoop } := h.congr rfl rfl
  cases decision with
  | allow clipped => exact iff_of_true (coherent_sendAndComplete h' clipped env) nofun
  | suppress => exact iff_of_true (h'.congr rfl rfl) nofun
  | degrade => exact iff_of_true ((coherent_degrade h' hstate).congr rfl rfl) nofun
  | abort =>
    refine (coherent_abort_iff { c with antiLoop := antiLoop } env).trans ?_
    exact ⟨fun hall _ => hall (h.mpr hstate), fun hall _ => hall rfl⟩

theorem coherent_update_iff (h : Coherent c) (targetOffset : Option (F × F)) (env : Env F) :
    Coherent (c.update targetOffset env).2 ↔ (Aborts c targetOffset env → env.fcError = none) := by
  unfold Commander.update
  dsimp only
  split
  case h_1 target offset htarget =>
    split
    case isTrue hstate =>
      have hcorrect := coherent_correct_iff
        (c := (c.feed .inferenceLoop (env.utc 0)).feed .trackingLoop (env.utc 1))
        (h.congr rfl rfl) hstate offset env
      refine hcorrect.trans ⟨fun hall haborts => ?_, fun hall habort => ?_⟩
      · obtain ⟨-, -, offset', hoffset, habort⟩ := haborts
        cases hoffset
        exact hall habort
      · exact hall ⟨h.mpr hstate, hstate, offset, rfl, habort⟩
    case isFalse hstate =>
      exact iff_of_true (h.congr rfl rfl) fun haborts => absurd haborts.2.1 hstate
  case h_2 hnone =>
    refine iff_of_true (h.congr rfl rfl) fun haborts => ?_
    obtain ⟨htarget, -, offset, hoffset, -⟩ := haborts
    obtain ⟨target, htarget⟩ := Option.isSome_iff_exists.mp htarget
    exact absurd hoffset (hnone target offset htarget)

end

namespace Operation
variable {F : Type} [F32 F] {c : Commander F}

/-- No disarm while a target is followed, and no abort with a target whose RTL fails. -/
def KeepsTarget (c : Commander F) : Operation F → Prop
  | disarm env => c.connected = true → env.fcError = none → ¬ c.state.Corrects
  | abort env => c.activeTargetId.isSome = true → env.fcError = none
  | update targetOffset env => Aborts c targetOffset env → env.fcError = none
  | _ => True

theorem coherent_step (h : Coherent c) (op : Operation F) :
    Coherent (op.run c).2 ↔ KeepsTarget c op := by
  cases op with
  | disarm env => exact coherent_disarm_iff h env
  | abort env => exact coherent_abort_iff c env
  | update targetOffset env => exact coherent_update_iff h targetOffset env
  | connect env => exact iff_of_true (coherent_connect h env) trivial
  | disconnect env => exact iff_of_true (coherent_disconnect h env) trivial
  | arm env => exact iff_of_true (coherent_requestFc h .arm env) trivial
  | startScanning => exact iff_of_true (coherent_startScanning h) trivial
  | selectTarget targetId => exact iff_of_true (coherent_selectTarget h targetId) trivial
  | processWatchdogExpiries order now =>
    exact iff_of_true (coherent_processWatchdogExpiries h order now) trivial
  | reset => exact iff_of_true (coherent_reset h) trivial
  | setFlightMode mode env => exact iff_of_true (coherent_requestFc h (.setMode mode) env) trivial
  | setRoi roi env => exact iff_of_true (coherent_requestFc h (.setRoi roi) env) trivial
  | feed id now => exact iff_of_true (h.congr rfl rfl) trivial

/-- Target and state agree in every state reached by operations that keep the target, and the
first operation that does not parts them. -/
theorem target_coherent (h : (machine F).ReachableBy KeepsTarget c) :
    Coherent c ∧ ∀ op : Operation F, Coherent (op.run c).2 ↔ KeepsTarget c op := by
  have hcoherent : Coherent c := by
    refine h.invariant (I := Coherent) ?_ ?_
    · rintro c ⟨config, env, camera, rfl⟩
      exact .of_none rfl (by decide : ¬ SystemState.idle.Corrects)
    · intro c op c' _ hc hkeeps hstep
      cases hstep
      exact (coherent_step hc op).mpr hkeeps
  exact ⟨hcoherent, coherent_step hcoherent⟩

theorem target_coherent_while_tracking : ∃ c : Commander ℚ, c.state = .tracking ∧
    c.activeTargetId = some 7 ∧ Coherent c ∧
    ∀ op : Operation ℚ, Coherent (op.run c).2 ↔ KeepsTarget c op := by
  have hnew : (machine ℚ).ReachableBy KeepsTarget (Commander.new .default (envAt 0)) :=
    .init ⟨.default, envAt 0, .default, rfl⟩
  have hconnected := hnew.step (e := Operation.connect (envAt 0)) trivial rfl
  have hscanning := hconnected.step (e := Operation.startScanning) trivial rfl
  have htracking := hscanning.step (e := Operation.selectTarget 7) trivial rfl
  exact ⟨_, rfl, rfl, target_coherent htracking⟩

/-- A disarm while a target is tracked clears the target, and the state stays TRACKING. -/
theorem target_lost_by_disarm :
    ¬ ∀ c : Commander ℚ, (machine ℚ).Reachable c →
      (c.activeTargetId.isSome = true ↔ c.state = .tracking ∨ c.state = .trackingDegraded) := by
  intro hall
  have hrun : ((machine ℚ).exec (fun _ _ => True) (Commander.new .default (envAt 0))
      [.connect (envAt 0), .startScanning, .selectTarget 7, .disarm (envAt 0)]).map
      (fun c => (c.state, c.activeTargetId)) = some (.tracking, none) := rfl
  obtain ⟨c, hc, hobs⟩ := Option.map_eq_some_iff.mp hrun
  obtain ⟨hstate, htarget⟩ := Prod.mk.inj hobs
  have hsome := (hall c (.of_exec (.init ⟨.default, envAt 0, .default, rfl⟩) hc)).mpr (.inl hstate)
  rw [htarget] at hsome
  cases hsome

end Operation

end AutoTargeting.Control
