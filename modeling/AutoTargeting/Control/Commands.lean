import AutoTargeting.Control.Corrections

namespace AutoTargeting.Control

open Runs

/-- The operations of a commander, with what each finds outside. -/
inductive Operation (F : Type)
  | connect (env : Env F)
  | disconnect (env : Env F)
  | arm (env : Env F)
  | disarm (env : Env F)
  | startScanning
  | selectTarget (targetId : TargetId)
  | update (targetOffset : Option (F × F)) (env : Env F)
  | processWatchdogExpiries (order : HashOrder) (now : ℤ)
  | abort (env : Env F)
  | reset
  | setFlightMode (mode : FlightMode) (env : Env F)
  | setRoi (roi : RoiTarget F) (env : Env F)
  | feed (id : WatchdogId) (now : ℤ)

namespace Operation
variable {F : Type} [F32 F]

def run (c : Commander F) : Operation F → CommanderResult × Commander F
  | connect env => c.connect env
  | disconnect env => c.disconnect env
  | arm env => c.arm env
  | disarm env => c.disarm env
  | startScanning => c.startScanning
  | selectTarget targetId => c.selectTarget targetId
  | update targetOffset env => c.update targetOffset env
  | processWatchdogExpiries order now => (.ok (), (c.processWatchdogExpiries order now).2)
  | abort env => c.abort env
  | reset => c.reset
  | setFlightMode mode env => c.setFlightMode mode env
  | setRoi roi env => c.setRoi roi env
  | feed id now => (.ok (), c.feed id now)

/-- The operations that send a correction. -/
def Sends (c : Commander F) : Operation F → Prop
  | update targetOffset env => c.SendsCorrection targetOffset env
  | _ => False

def machine (F : Type) [F32 F] : Machine (Commander F) (Operation F) where
  Init c := ∃ config env camera, c = (Commander.new config env).withCameraParams camera
  step c op := some (op.run c).2

/-- The states that operations move a commander to. -/
def Targets (s : SystemState) : Prop := s ≠ .lost ∧ s ≠ .rth

instance : DecidablePred Targets := fun _ => inferInstanceAs (Decidable (_ ∧ _))

/-- An operation is a number of moves along the table, without a correction if it does not
send one. -/
theorem run_moves (c : Commander F) (op : Operation F) :
    Moves Targets (op.Sends c) c.standing (op.run c).2.standing := by
  cases op with
  | connect env => exact c.connect_moves env (by decide)
  | disconnect env => exact c.disconnect_moves env
  | arm env => exact c.requestFc_moves env rfl
  | disarm env => exact c.disarm_moves env (by decide)
  | startScanning => exact c.startScanning_moves (by decide)
  | selectTarget targetId => exact c.selectTarget_moves targetId (by decide) (by decide)
  | update targetOffset env =>
    rcases c.update_cases targetOffset env (P := Targets) (by decide) (by decide) with
      ⟨hsends, -⟩ | ⟨-, hmoves⟩
    · exact (c.update_moves targetOffset env (by decide) (by decide)).mono
        (fun _ h => h) fun _ => hsends
    · exact hmoves.mono (fun _ h => h) False.elim
  | processWatchdogExpiries order now =>
    exact c.processWatchdogExpiries_moves order now (by decide)
  | abort env => exact c.abort_moves env (by decide)
  | reset => exact c.reset_moves (by decide)
  | setFlightMode mode env => exact c.requestFc_moves env rfl
  | setRoi roi env => exact c.requestFc_moves env rfl
  | feed id now => exact .refl

/-- In every reachable state the history explains the state. -/
theorem disciplined_reachable {C : Commander F → Operation F → Prop} {c : Commander F}
    (h : (machine F).ReachableBy C c) : Disciplined c.standing := by
  refine h.invariant (I := fun c => Disciplined c.standing) ?_ ?_
  · rintro c ⟨config, env, camera, rfl⟩
    refine ⟨rfl, fun before x hinit => ?_⟩
    have hlen := hinit.length_le
    rw [List.length_append] at hlen
    exact absurd hlen (Nat.not_succ_le_zero _)
  · intro c op c' _ hc _ hstep
    cases hstep
    exact hc.moves (run_moves c op)

/-- How many corrections an operation adds to the history. -/
theorem corrections_run (c : Commander F) (op : Operation F) [Decidable (op.Sends c)] :
    corrections (op.run c).2.log = corrections c.log + if op.Sends c then 1 else 0 := by
  by_cases hsends : op.Sends c
  · rw [if_pos hsends]
    cases op with
    | update targetOffset env =>
      rcases c.update_cases targetOffset env (P := Targets) (by decide) (by decide) with
        ⟨-, call, hcall, hsent⟩ | ⟨hnot, -⟩
      · have hlog : (c.update targetOffset env).2.log =
            c.log ++ [.fc call env.fcError (env.mono 3)] := congrArg Standing.log hsent
        show corrections (c.update targetOffset env).2.log = corrections c.log + 1
        rw [hlog, corrections_concat]
        exact congrArg _ (if_pos hcall)
      · exact absurd hsends hnot
    | _ => exact hsends.elim
  · rw [if_neg hsends]
    exact ((run_moves c op).mono (fun _ h => h) hsends).corrections_eq

/-- Each correction in the history was sent in TRACKING or in TRACKING_DEGRADED, and the next
operation adds one exactly if it is an `update` that meets all the conditions. -/
structure CorrectionLaw (c : Commander F) : Prop where
  correcting : ∀ before x, before ++ [x] <+: c.log → x.isCorrection = true →
    (stateAfter before).Corrects
  state_eq : c.state = stateAfter c.log
  sends : ∀ op : Operation F, op.Sends c →
    corrections (op.run c).2.log = corrections c.log + 1
  otherwise : ∀ op : Operation F, ¬ op.Sends c →
    corrections (op.run c).2.log = corrections c.log

theorem correction_law {c : Commander F} (h : (machine F).Reachable c) : CorrectionLaw c := by
  classical
  have hdisciplined := disciplined_reachable h
  refine ⟨hdisciplined.correcting, hdisciplined.state_eq, fun op hsends => ?_, fun op hnot => ?_⟩
  · rw [corrections_run, if_pos hsends]
  · rw [corrections_run, if_neg hnot, Nat.add_zero]

/-- A target is followed, the watchdogs expire, and the next frame has the target on its right
edge. -/
def degradeRun : List (Operation ℚ) :=
  [.connect (envAt 0), .startScanning, .selectTarget 7, .processWatchdogExpiries .declared (secs 1),
    .update (some (1, 0)) (envAt (secs 1))]

/-- The history of that run: its last entry is a correction. -/
theorem degradeRun_log : ∃ c, (machine ℚ).Reachable c ∧ c.state = .trackingDegraded ∧
    c.log = [.fc .connect none 0, .transition .idle .armed, .transition .armed .scanning,
      .transition .scanning .targetSelected, .transition .targetSelected .tracking,
      .transition .tracking .trackingDegraded,
      .fc (.setPositionTargetLocalNed ⟨0, 0, 0, 71 / 452⟩) none (secs 1)] := by
  have hrun : ((machine ℚ).exec (fun _ _ => True) (Commander.new .default (envAt 0))
      degradeRun).map (fun c => (c.state, c.log)) = some (.trackingDegraded,
      [.fc .connect none 0, .transition .idle .armed, .transition .armed .scanning,
        .transition .scanning .targetSelected, .transition .targetSelected .tracking,
        .transition .tracking .trackingDegraded,
        .fc (.setPositionTargetLocalNed ⟨0, 0, 0, 71 / 452⟩) none (secs 1)]) := by decide +kernel
  obtain ⟨c, hc, hobs⟩ := Option.map_eq_some_iff.mp hrun
  obtain ⟨hstate, hlog⟩ := Prod.mk.inj hobs
  exact ⟨c, .of_exec (.init ⟨.default, envAt 0, .default, rfl⟩) hc, hstate, hlog⟩

theorem correction_law_after_degrading :
    ∃ c : Commander ℚ, c.state = .trackingDegraded ∧ corrections c.log = 1 ∧ CorrectionLaw c := by
  obtain ⟨c, hreach, hstate, hlog⟩ := degradeRun_log
  refine ⟨c, hstate, ?_, correction_law hreach⟩
  rw [hlog]
  rfl

/-- The correction of that run goes out in TRACKING_DEGRADED. -/
theorem correction_sent_degraded :
    ¬ ∀ c : Commander ℚ, (machine ℚ).Reachable c → ∀ before x, before ++ [x] <+: c.log →
      x.isCorrection = true → stateAfter before = .tracking := by
  intro hall
  obtain ⟨c, hreach, -, hlog⟩ := degradeRun_log
  have hstate := hall c hreach [.fc .connect none 0, .transition .idle .armed,
    .transition .armed .scanning, .transition .scanning .targetSelected,
    .transition .targetSelected .tracking, .transition .tracking .trackingDegraded] _
    (by rw [hlog]; exact List.prefix_refl _) rfl
  cases hstate

end Operation

end AutoTargeting.Control
