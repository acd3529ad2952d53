import AutoTargeting.Control.BusOperations
import AutoTargeting.Control.Coherence

namespace AutoTargeting.Control

open Runs Machine

/-- The states that a degraded commander can still be in. -/
def SystemState.Stuck (s : SystemState) : Prop := s = .trackingDegraded ∨ s.Safe

instance : DecidablePred SystemState.Stuck := fun _ => inferInstanceAs (Decidable (_ ∨ _))

section
variable {F : Type} {c c' : Commander F}

theorem stuck_of_moves (h : c.state.Stuck)
    (hmoves : Moves SystemState.Stuck True c.standing c'.standing) : c'.state.Stuck := by
  rcases hmoves.state_or with hsame | hstuck
  · exact (show c'.state = c.state from hsame) ▸ h
  · exact hstuck

theorem not_scanning_of_stuck {s : SystemState} (h : s.Stuck) : s ≠ .scanning := by
  rintro rfl
  exact absurd h (by decide)

/-- A selection, the one way to TRACKING, starts from SCANNING alone. -/
theorem acquireTarget_stuck (h : c.state.Stuck) (r : ReceivedTrack F) :
    (BusState.acquireTarget c r).state.Stuck := by
  unfold BusState.acquireTarget
  dsimp only
  split
  · rcases ((c.feed .commandLoop (r.utc 0)).feedVideoWatchdog (r.utc 1)).selectTarget_cases
      r.track.trackId with ⟨hscanning, -⟩ | ⟨-, e, herror⟩
    · exact absurd hscanning (not_scanning_of_stuck h)
    · rw [herror]
      exact h
  · exact h

theorem checkWatchdogs_stuck (h : c.state.Stuck) (t : Tick F) :
    (BusState.checkWatchdogs t c).state.Stuck :=
  stuck_of_moves h (checkWatchdogs_moves t c (by decide) (by decide) (by decide))

end

section
variable {F : Type} [F32 F] {cfg : CommanderBusConfig} {s s' : BusState F}

theorem onTrack_stuck (h : s.commander.state.Stuck) (r : ReceivedTrack F) :
    (s.onTrack cfg r).commander.state.Stuck := by
  have hacquired := acquireTarget_stuck h r
  unfold BusState.onTrack
  dsimp only
  split
  · exact stuck_of_moves hacquired (Commander.update_moves _ _ r.env (by decide) (by decide))
  · exact hacquired

theorem drain_stuck (h : s.commander.state.Stuck) (tracks : List (ReceivedTrack F)) :
    (s.drain cfg tracks).commander.state.Stuck := by
  unfold BusState.drain
  generalize tracks.take trackBudget = taken
  induction taken generalizing s with
  | nil => exact h
  | cons r rest ih => exact ih (onTrack_stuck h r)

theorem step_stuck {t : Tick F} (h : s.commander.state.Stuck) (hstep : s.step cfg t = some s') :
    s'.commander.state.Stuck := by
  have htelemetry : (s.onTelemetry t.telemetry).commander.state = s.commander.state :=
    congrArg Standing.state (onTelemetry_standing s t.telemetry)
  rw [step_commander hstep]
  exact checkWatchdogs_stuck (drain_stuck (htelemetry ▸ h) t.tracks) t

/-- From TRACKING_DEGRADED a bus run never comes to TRACKING again, whatever arrives: nothing
takes the edge back. -/
theorem degraded_never_recovers (hdegraded : s.commander.state = .trackingDegraded)
    (hrun : (busRun F cfg).RunBy Anything s s') : s'.commander.state ≠ .tracking := by
  have hstuck : s'.commander.state.Stuck := by
    refine hrun.preserves (I := fun s => s.commander.state.Stuck) ?_ (.inl hdegraded)
    intro s t s' hs _ hstep
    exact step_stuck hs hstep
  intro htracking
  rw [htracking] at hstuck
  exact absurd hstuck (by decide)

/-- A turn in which the commander should recover: no watchdog is expired, the guard is not
frozen, and an update for a fresh track of the active target made no new trigger. -/
structure Recovering (cfg : CommanderBusConfig) (s s' : BusState F) (t : Tick F) : Prop where
  fed : s'.commander.watchdogs.checkExpired t.order t.checked = []
  thawed : ∀ until_, s.commander.antiLoop.freezeUntil = some until_ → until_ ≤ t.now
  tracked : ∃ r ∈ t.tracks.take trackBudget, s.commander.activeTargetId = some r.track.trackId ∧
    r.track.misses ≤ cfg.maxTrackMisses
  steady : s'.commander.antiLoop.oscillationTriggerCount =
    s.commander.antiLoop.oscillationTriggerCount

end

/-- A track, and a tenth of a second without one: the commander is degraded. -/
def degradedRun : List (Tick ℚ) := [tickAt 0 none [edgeTrack], tickAt (millis 100) none []]

/-- The next turn has the track again, and telemetry. -/
def freshTurn : Tick ℚ := tickAt (millis 110) (some (millis 110)) [edgeTrack]

theorem degradedRun_reachable : ∃ s s' : BusState ℚ, (busRun ℚ .default).Reachable s ∧
    s.commander.state = .trackingDegraded ∧ s.step .default freshTurn = some s' ∧
    Recovering .default s s' freshTurn := by
  have hrun : ((busRun ℚ .default).exec (fun _ _ => True) busStart degradedRun).map (fun s =>
      (s.commander.state, s.commander.activeTargetId, s.commander.antiLoop)) =
      some (.trackingDegraded, some 7, ⟨[true], false, none, [], 0, 1, 0⟩) := by decide +kernel
  have hturn : ((busRun ℚ .default).exec (fun _ _ => True) busStart degradedRun).bind (fun s =>
      (s.step .default freshTurn).map fun s' =>
        (s'.commander.watchdogs.checkExpired .declared (millis 110),
          s'.commander.antiLoop.oscillationTriggerCount)) = some ([], 0) := by decide +kernel
  obtain ⟨s, hs, hobs⟩ := Option.map_eq_some_iff.mp hrun
  simp only [Prod.mk.injEq] at hobs
  obtain ⟨hstate, htarget, hguard⟩ := hobs
  rw [hs, Option.bind_some] at hturn
  obtain ⟨s', hstep, hobs⟩ := Option.map_eq_some_iff.mp hturn
  obtain ⟨hfed, hcount⟩ := Prod.mk.inj hobs
  refine ⟨s, s', .of_exec (.init busStart_init) hs, hstate, hstep, hfed, ?_, ?_, ?_⟩
  · intro until_ hfrozen
    rw [hguard] at hfrozen
    cases hfrozen
  · exact ⟨⟨edgeTrack, fun _ => millis 110, envAt (millis 110)⟩, List.mem_cons_self, htarget,
      by decide⟩
  · rw [hcount, hguard]

theorem degraded_never_recovers_after_fresh_track : ∃ s s' : BusState ℚ,
    s.commander.state = .trackingDegraded ∧ Recovering .default s s' freshTurn ∧
    s'.commander.state ≠ .tracking := by
  obtain ⟨s, s', -, hdegraded, hstep, hrecovering⟩ := degradedRun_reachable
  have hrun : (busRun ℚ .default).RunBy Anything s s' := .single ⟨freshTurn, trivial, hstep⟩
  exact ⟨s, s', hdegraded, hrecovering, degraded_never_recovers hdegraded hrun⟩

/-- That turn meets every condition for a recovery, and the commander stays degraded. -/
theorem degraded_despite_fresh_track :
    ¬ ∀ (s s' : BusState ℚ) (t : Tick ℚ), (busRun ℚ .default).Reachable s →
      s.commander.state = .trackingDegraded → s.step .default t = some s' →
      Recovering .default s s' t → s'.commander.state = .tracking := by
  intro hall
  obtain ⟨s, s', hreach, hdegraded, hstep, hrecovering⟩ := degradedRun_reachable
  have htracking := hall s s' freshTurn hreach hdegraded hstep hrecovering
  have hstuck := step_stuck (.inl hdegraded) hstep
  rw [htracking] at hstuck
  exact absurd hstuck (by decide)

end AutoTargeting.Control
