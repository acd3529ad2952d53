import AutoTargeting.Control.FailSafe

namespace AutoTargeting.Control

open Runs Machine

variable {F : Type} [F32 F] {cfg : CommanderBusConfig} {s s' : BusState F}

abbrev Operations : Commander F → Commander F → Prop := (Operation.machine F).RunBy Anything

theorem Operations.single (c : Commander F) (op : Operation F) : Operations c (op.run c).2 :=
  Relation.ReflTransGen.single ⟨op, trivial, rfl⟩

theorem acquireTarget_operations (c : Commander F) (r : ReceivedTrack F) :
    Operations c (BusState.acquireTarget c r) := by
  have hfed : Operations c ((c.feed .commandLoop (r.utc 0)).feedVideoWatchdog (r.utc 1)) :=
    (Operations.single c (.feed .commandLoop (r.utc 0))).trans
      (Operations.single _ (.feed .videoLoop (r.utc 1)))
  unfold BusState.acquireTarget
  dsimp only
  split
  · exact hfed.trans (Operations.single _ (.selectTarget r.track.trackId))
  · exact hfed

theorem feedLoops_operations (c : Commander F) (r : ReceivedTrack F) :
    Operations c (BusState.feedLoops c r) :=
  ((Operations.single c (.feed .trackingLoop (r.utc 2))).trans
    (Operations.single _ (.feed .inferenceLoop (r.utc 3)))).trans
      (Operations.single _ (.feed .videoLoop (r.utc 4)))

theorem onTrack_operations (s : BusState F) (r : ReceivedTrack F) :
    Operations s.commander (s.onTrack cfg r).commander := by
  have hacquired := acquireTarget_operations s.commander r
  unfold BusState.onTrack
  dsimp only
  split
  · exact (hacquired.trans (Operations.single _ (.update _ r.env))).trans (feedLoops_operations _ r)
  · exact hacquired.trans (feedLoops_operations _ r)

theorem drain_operations (s : BusState F) (tracks : List (ReceivedTrack F)) :
    Operations s.commander (s.drain cfg tracks).commander := by
  unfold BusState.drain
  generalize tracks.take trackBudget = taken
  induction taken generalizing s with
  | nil => exact .refl
  | cons r rest ih => exact (onTrack_operations s r).trans (ih (s.onTrack cfg r))

/-- The watchdog branch is a pass over the watchdogs, and an abort with its reset. -/
theorem checkWatchdogs_operations (t : Tick F) (c : Commander F) :
    Operations c (BusState.checkWatchdogs t c) := by
  have hchecked : Operations c
      (((c.feed .commandLoop t.commandFed).feedVideoWatchdog t.videoFed).processWatchdogExpiries
        t.order t.checked).2 :=
    ((Operations.single c (.feed .commandLoop t.commandFed)).trans
      (Operations.single _ (.feed .videoLoop t.videoFed))).trans
        (Operations.single _ (.processWatchdogExpiries t.order t.checked))
  unfold BusState.checkWatchdogs
  dsimp only
  split
  · exact (hchecked.trans (Operations.single _ (.abort t.abortEnv))).trans
      (Operations.single _ .reset)
  · exact hchecked

theorem step_operations {t : Tick F} (h : s.step cfg t = some s') :
    Operations s.commander s'.commander := by
  have htelemetry : Operations s.commander (s.onTelemetry t.telemetry).commander := by
    cases t.telemetry with
    | none => exact .refl
    | some fedAt => exact Operations.single _ (.feed .fcHeartbeat fedAt)
  rw [step_commander h]
  exact (htelemetry.trans (drain_operations _ t.tracks)).trans (checkWatchdogs_operations t _)

theorem begin_operations {c : Commander F} {env : Env F} {started lastStatus : Instant}
    (h : begin c env started lastStatus = .ok s) : Operations c s.commander := by
  have hconnect := Operations.single c (.connect env)
  unfold begin at h
  split at h
  case h_1 => cases h
  case h_2 connected hconnected =>
    cases h
    rw [show (Operation.connect env).run c = (.ok (), connected) from hconnected] at hconnect
    exact hconnect.trans (Operations.single connected .startScanning)

/-- A commander on the bus does nothing but its operations, so that what holds of all their
runs holds of every bus run. -/
theorem bus_operations {C : BusState F → Tick F → Prop} (h : (busRun F cfg).ReachableBy C s) :
    ∃ c : Commander F, c.log = [] ∧ Operations c s.commander := by
  refine h.invariant (I := fun s => ∃ c : Commander F, c.log = [] ∧ Operations c s.commander) ?_ ?_
  · intro s hinit
    obtain ⟨c, env, started, lastStatus, hlog, hbegin⟩ := hinit
    exact ⟨c, hlog, begin_operations hbegin⟩
  · intro s t s' _ hs _ hstep
    obtain ⟨c, hlog, hrun⟩ := hs
    exact ⟨c, hlog, hrun.trans (step_operations hstep)⟩

end AutoTargeting.Control
