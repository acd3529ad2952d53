import AutoTargeting.Control.HeartbeatWatch

namespace AutoTargeting.Control

open Runs

/-- A longer history whose new corrections all went out by `deadline`. -/
def CorrectsBy {F : Type} (deadline : ℤ) (log log' : List (Entry F)) : Prop :=
  ∃ new, log' = log ++ new ∧ ∀ x ∈ new, ∀ sentAt, x.correctedAt? = some sentAt →
    (sentAt : ℤ) ≤ deadline

section
variable {F : Type} {deadline : ℤ} {log log' log'' : List (Entry F)} {P : SystemState → Prop}
  {s s' : Standing F}

theorem CorrectsBy.refl (log : List (Entry F)) : CorrectsBy deadline log log :=
  ⟨[], (List.append_nil log).symm, nofun⟩

theorem CorrectsBy.trans (h : CorrectsBy deadline log log') (h' : CorrectsBy deadline log' log'') :
    CorrectsBy deadline log log'' := by
  obtain ⟨new, rfl, hnew⟩ := h
  obtain ⟨new', rfl, hnew'⟩ := h'
  refine ⟨new ++ new', List.append_assoc log new new', fun x hx => ?_⟩
  rcases List.mem_append.mp hx with hx | hx
  · exact hnew x hx
  · exact hnew' x hx

theorem CorrectsBy.concat (x : Entry F)
    (h : ∀ sentAt, x.correctedAt? = some sentAt → (sentAt : ℤ) ≤ deadline) :
    CorrectsBy deadline log (log ++ [x]) := by
  refine ⟨[x], rfl, fun y hy => ?_⟩
  rw [List.mem_singleton.mp hy]
  exact h

theorem correctedAt?_of_not_correction {call : FcCall F} {error : Option FcError} {sentAt : Instant}
    (h : call.isCorrection = false) : (Entry.fc call error sentAt).correctedAt? = none :=
  if_neg (by rw [h]; nofun)

theorem Moves.correctsBy (h : Moves P False s s') : CorrectsBy deadline s.log s'.log := by
  induction h with
  | refl => exact .refl _
  | tail _ hmove ih =>
    apply ih.trans
    cases hmove with
    | transition => exact .concat _ nofun
    | aim => exact .refl _
    | correct _ _ _ hmay => exact hmay.elim
    | request error sentAt hcall =>
      refine .concat _ fun t ht => ?_
      rw [correctedAt?_of_not_correction hcall] at ht
      cases ht

/-- An expired heartbeat watchdog takes the commander to ABORT. -/
theorem checkWatchdogs_aborts {t : Tick F} {c : Commander F} (hc : Latched c.standing)
    {fed : ℤ} {timeoutMs : ℕ} (hwatch : heartbeatWatch c = some (fed, ⟨timeoutMs, .abort⟩))
    (hnot : ¬ Aborted (BusState.checkWatchdogs t c).log) : elapsedMs t.checked fed ≤ timeoutMs := by
  by_contra hexpired
  let fedLoop := (c.feed .commandLoop t.commandFed).feedVideoWatchdog t.videoFed
  have hloops : FeedsOnly (· ≠ .fcHeartbeat) c fedLoop :=
    (FeedsOnly.feed c (by decide) t.commandFed).trans (.feed _ (by decide) t.videoFed)
  have hsame : heartbeatWatch fedLoop = some (fed, ⟨timeoutMs, .abort⟩) :=
    (hloops.heartbeatWatch (· rfl)).trans hwatch
  have hmem : (WatchdogId.fcHeartbeat, WatchdogAction.abort) ∈
      (fedLoop.processWatchdogExpiries t.order t.checked).1 := by
    obtain ⟨e, he, heq⟩ := Option.map_eq_some_iff.mp hsame
    obtain ⟨hfed, hconfig⟩ := Prod.mk.inj heq
    refine WatchdogRegistry.mem_checkExpired.mpr ⟨e, he, ?_, by rw [hconfig]⟩
    unfold WatchdogEntry.expired
    rw [hfed, hconfig]
    exact Nat.lt_of_not_le hexpired
  have hany : ((fedLoop.processWatchdogExpiries t.order t.checked).1.any
      (·.2 = .abort)) = true := List.any_eq_true.mpr ⟨_, hmem, by decide⟩
  apply hnot
  have hlatched : Latched (fedLoop.processWatchdogExpiries t.order t.checked).2.standing :=
    hc.moves (show Moves LoopTargets True _ _ from
      fedLoop.processWatchdogExpiries_moves t.order t.checked (by decide))
  unfold BusState.checkWatchdogs
  dsimp only
  rw [if_pos hany]
  have habort : Moves LoopTargets True _ _ := Commander.abort_moves
    (fedLoop.processWatchdogExpiries t.order t.checked).2 t.abortEnv (by decide)
  obtain ⟨x, hx, henters⟩ := (hlatched.moves habort).recorded (abort_state _ t.abortEnv)
  have hreset : Moves LoopTargets True _ _ := Commander.reset_moves
    ((fedLoop.processWatchdogExpiries t.order t.checked).2.abort t.abortEnv).2 (by decide)
  exact ⟨x, (Moves.log_grows hreset).subset hx, henters⟩

end

section
variable {F : Type} [F32 F] {cfg : CommanderBusConfig} {deadline : ℤ} {s s' : BusState F}

/-- A correction of `update` goes out when the limiter reads the clock. -/
theorem update_correctsBy (c : Commander F) (targetOffset : Option (F × F)) (env : Env F)
    (h : (env.mono 3 : ℤ) ≤ deadline) :
    CorrectsBy deadline c.log (c.update targetOffset env).2.log := by
  rcases c.update_cases targetOffset env (P := LoopTargets) (by decide) (by decide) with
    ⟨-, call, hcall, hsent⟩ | ⟨-, hmoves⟩
  · rw [show (c.update targetOffset env).2.log = c.log ++ [.fc call env.fcError (env.mono 3)] from
      congrArg Standing.log hsent]
    refine .concat _ fun sentAt hat => ?_
    have hmono : some (env.mono 3) = some sentAt := (if_pos hcall).symm.trans hat
    rw [← Option.some.inj hmono]
    exact h
  · exact Moves.correctsBy hmoves

theorem onTrack_correctsBy (s : BusState F) (r : ReceivedTrack F)
    (h : (r.env.mono 3 : ℤ) ≤ deadline) :
    CorrectsBy deadline s.commander.log (s.onTrack cfg r).commander.log := by
  have hacquire : CorrectsBy deadline s.commander.log
      (BusState.acquireTarget s.commander r).log :=
    Moves.correctsBy (acquireTarget_moves s.commander r)
  unfold BusState.onTrack
  dsimp only
  split
  · exact hacquire.trans (update_correctsBy _ _ r.env h)
  · exact hacquire

theorem drain_correctsBy (s : BusState F) (tracks : List (ReceivedTrack F))
    (h : ∀ r ∈ tracks, (r.env.mono 3 : ℤ) ≤ deadline) :
    CorrectsBy deadline s.commander.log (s.drain cfg tracks).commander.log := by
  unfold BusState.drain
  have htaken : ∀ r ∈ tracks.take trackBudget, (r.env.mono 3 : ℤ) ≤ deadline :=
    fun r hr => h r (List.mem_of_mem_take hr)
  revert htaken
  generalize tracks.take trackBudget = taken
  intro htaken
  induction taken generalizing s with
  | nil => exact .refl _
  | cons r rest ih =>
    exact (onTrack_correctsBy s r (htaken r List.mem_cons_self)).trans
      (ih (s.onTrack cfg r) fun r' hr' => htaken r' (List.mem_cons_of_mem r hr'))

theorem step_correctsBy {t : Tick F} (h : s.step cfg t = some s')
    (htracks : ∀ r ∈ t.tracks, (r.env.mono 3 : ℤ) ≤ deadline) :
    CorrectsBy deadline s.commander.log s'.commander.log := by
  have htelemetry : (s.onTelemetry t.telemetry).commander.log = s.commander.log := by
    cases t.telemetry <;> rfl
  rw [step_commander h, ← htelemetry]
  exact (drain_correctsBy _ t.tracks htracks).trans
    (Moves.correctsBy (checkWatchdogs_moves t _ (P := LoopTargets) (by decide) (by decide) (by decide)))

end

end AutoTargeting.Control
