import AutoTargeting.Control.Operations

namespace AutoTargeting.Control

namespace Commander
variable {F : Type} [F32 F] {P : SystemState → Prop}

/-- When `update` sends a correction: the state is right, there is a target and an offset, the
guard allows the command, and the limiter admits it. -/
def SendsCorrection (c : Commander F) (targetOffset : Option (F × F)) (env : Env F) : Prop :=
  ∃ offset cmd, targetOffset = some offset ∧ c.activeTargetId.isSome = true ∧ c.state.Corrects ∧
    (c.guarded offset env).1 = .allow cmd ∧ (c.rateLimiter.trySend (env.mono 3)).1 = true

/-- The limiter decides whether the correction goes out. -/
theorem sendAndComplete_standing (c : Commander F) (cmd : CorrectionCommand F) (env : Env F) :
    (c.sendAndComplete cmd env).2.standing =
      if (c.rateLimiter.trySend (env.mono 3)).1 = true then
        ⟨c.state, c.activeTargetId, c.log ++ [.fc (.setPositionTargetLocalNed
          (c.positionTarget cmd env.attitude)) env.fcError (env.mono 3)]⟩
      else c.standing := by
  have hdone : (c.sendAndComplete cmd env).2.standing = (c.sendCorrectionToFc cmd env).2.standing := by
    unfold sendAndComplete
    split
    case h_1 h => rw [h]
    case h_2 h =>
      rw [h]
      rfl
  rw [hdone]
  unfold sendCorrectionToFc
  generalize c.rateLimiter.trySend (env.mono 3) = t
  obtain ⟨admitted, rateLimiter⟩ := t
  cases admitted <;> rfl

/-- What `correct` does: it sends one correction, or it makes other moves to
TRACKING_DEGRADED or ABORT only. -/
theorem correct_cases (c : Commander F) (offset : F × F) (env : Env F)
    (hdegraded : P .trackingDegraded) (habort : P .abort) :
    (∃ cmd, (c.guarded offset env).1 = .allow cmd ∧
      (c.rateLimiter.trySend (env.mono 3)).1 = true ∧
      ∃ call : FcCall F, call.isCorrection = true ∧
        (c.correct offset env).2.standing =
          ⟨c.state, c.activeTargetId, c.log ++ [.fc call env.fcError (env.mono 3)]⟩) ∨
    ((∀ cmd, (c.guarded offset env).1 = .allow cmd →
        (c.rateLimiter.trySend (env.mono 3)).1 = false) ∧
      Moves P False c.standing (c.correct offset env).2.standing) := by
  unfold correct
  generalize c.guarded offset env = t
  obtain ⟨decision, antiLoop⟩ := t
  dsimp only
  cases decision with
  | allow clipped =>
    rw [sendAndComplete_standing]
    by_cases hadmit : (c.rateLimiter.trySend (env.mono 3)).1 = true
    · exact .inl ⟨clipped, rfl, hadmit, _, rfl, if_pos hadmit⟩
    · right
      refine ⟨fun _ _ => Bool.not_eq_true _ ▸ hadmit, ?_⟩
      rw [if_neg hadmit]
      exact .refl
  | suppress => exact .inr ⟨nofun, .refl⟩
  | degrade =>
    exact .inr ⟨nofun, tryTransition_moves { c with antiLoop := antiLoop } hdegraded⟩
  | abort => exact .inr ⟨nofun, abort_moves { c with antiLoop := antiLoop } env habort⟩

theorem update_cases (c : Commander F) (targetOffset : Option (F × F)) (env : Env F)
    (hdegraded : P .trackingDegraded) (habort : P .abort) :
    (c.SendsCorrection targetOffset env ∧ ∃ call : FcCall F, call.isCorrection = true ∧
      (c.update targetOffset env).2.standing =
        ⟨c.state, c.activeTargetId, c.log ++ [.fc call env.fcError (env.mono 3)]⟩) ∨
    (¬ c.SendsCorrection targetOffset env ∧
      Moves P False c.standing (c.update targetOffset env).2.standing) := by
  unfold update
  dsimp only
  split
  case h_1 target offset htarget =>
    split
    case isTrue hcorrects =>
      rcases correct_cases ((c.feed .inferenceLoop (env.utc 0)).feed .trackingLoop (env.utc 1))
        offset env hdegraded habort with ⟨cmd, hallow, hadmit, hsent⟩ | ⟨hno, hmoves⟩
      · -- both the guard and the limiter let it through
        left
        refine ⟨⟨offset, cmd, rfl, ?_, hcorrects, hallow, hadmit⟩, hsent⟩
        exact Option.isSome_iff_exists.mpr ⟨target, htarget⟩
      · right
        refine ⟨?_, hmoves⟩
        rintro ⟨offset', cmd, heq, -, -, hallow, hadmit⟩
        cases heq
        have hrefused := hno cmd hallow
        exact absurd (hrefused.symm.trans hadmit) nofun
    case isFalse hcorrects =>
      -- no correction in this state
      right
      refine ⟨?_, .refl⟩
      rintro ⟨_, _, -, -, hstate, -⟩
      exact hcorrects hstate
  case h_2 hnone =>
    right
    refine ⟨?_, .refl⟩
    rintro ⟨offset, _, hoffset, htarget, -⟩
    obtain ⟨target, htarget⟩ := Option.isSome_iff_exists.mp htarget
    exact hnone target offset htarget hoffset

theorem update_moves (c : Commander F) (targetOffset : Option (F × F)) (env : Env F)
    (hdegraded : P .trackingDegraded) (habort : P .abort) :
    Moves P True c.standing (c.update targetOffset env).2.standing := by
  rcases c.update_cases targetOffset env hdegraded habort with
    ⟨⟨_, _, -, htarget, hstate, -⟩, call, -, hsent⟩ | ⟨-, hmoves⟩
  · rw [hsent]
    exact .single (.correct c.standing call env.fcError (env.mono 3) trivial hstate htarget)
  · exact hmoves.mono (fun _ h => h) False.elim

end Commander

end AutoTargeting.Control
