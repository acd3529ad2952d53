import AutoTargeting.Control.FcLink
import AutoTargeting.Control.Feeding

namespace AutoTargeting.Control

section
variable {F : Type} {P : WatchdogId → Prop} {c c' : Commander F}

/-- When the heartbeat watchdog was fed last, and its configuration. -/
def heartbeatWatch (c : Commander F) : Option (ℤ × WatchdogConfig) :=
  (c.watchdogs .fcHeartbeat).map fun e => (e.lastFed, e.config)

/-- A step that feeds other watchdogs only leaves the heartbeat watchdog alone. -/
theorem FeedsOnly.heartbeatWatch (h : FeedsOnly P c c') (hP : ¬ P .fcHeartbeat) :
    heartbeatWatch c' = heartbeatWatch c := by
  have hconfig := h.registered .fcHeartbeat
  have hfed := h.lastFed .fcHeartbeat hP
  unfold Control.heartbeatWatch
  revert hconfig hfed
  cases c'.watchdogs .fcHeartbeat with
  | none => cases c.watchdogs .fcHeartbeat with
    | none => exact fun _ _ => rfl
    | some e => nofun
  | some e' => cases c.watchdogs .fcHeartbeat with
    | none => nofun
    | some e =>
      intro hconfig hfed
      exact congrArg some (Prod.ext (Option.some.inj hfed) (Option.some.inj hconfig))

theorem heartbeatWatch_fed (c : Commander F) (now : ℤ) :
    heartbeatWatch (c.feed .fcHeartbeat now) = (heartbeatWatch c).map fun p => (now, p.2) := by
  unfold heartbeatWatch Commander.feed WatchdogRegistry.feed WatchdogRegistry.insert
  simp only [if_true, Option.map_map]
  rfl

theorem heartbeatWatch_checkWatchdogs (t : Tick F) (c : Commander F) :
    heartbeatWatch (BusState.checkWatchdogs t c) = heartbeatWatch c :=
  (checkWatchdogs_feeds (P := (· ≠ .fcHeartbeat)) nofun nofun t c).heartbeatWatch (· rfl)

theorem abort_state (c : Commander F) (env : Env F) : (c.abort env).2.state = .abort := by
  have hforced := c.forceAbort_state
  unfold Commander.abort Commander.callFc
  cases env.fcError <;> exact hforced

/-- When the loop begins, the heartbeat watchdog was fed by `connect`. -/
theorem begin_heartbeatWatch {c : Commander F} {env : Env F} {started lastStatus : Instant}
    {s : BusState F} (h : begin c env started lastStatus = .ok s) :
    heartbeatWatch s.commander =
      some (env.utc 0, ⟨max c.config.fcHeartbeatWdtMs 1000, .abort⟩) := by
  have hconnect : (c.connect env).1 = .ok () → heartbeatWatch (c.connect env).2 =
      some (env.utc 0, ⟨max c.config.fcHeartbeatWdtMs 1000, .abort⟩) := by
    have hconfig : (c.callFc .connect env (env.mono 0)).2.config = c.config := rfl
    unfold Commander.connect
    split
    case h_1 => nofun
    case h_2 c' hc =>
      intro _
      rw [hc] at hconfig
      rw [← hconfig]
      rfl
  unfold begin at h
  split at h
  case h_1 => cases h
  case h_2 c' hc =>
    cases h
    rw [hc] at hconnect
    exact ((startScanning_feeds (P := (· ≠ .fcHeartbeat)) c').heartbeatWatch (· rfl)).trans
      (hconnect rfl)

end

section
variable {F : Type} [F32 F]

/-- A track message does not reach the heartbeat watchdog. -/
theorem drain_heartbeatWatch (cfg : CommanderBusConfig) (s : BusState F)
    (tracks : List (ReceivedTrack F)) :
    heartbeatWatch (s.drain cfg tracks).commander = heartbeatWatch s.commander :=
  (drain_feeds cfg s tracks).heartbeatWatch (· rfl)

end

end AutoTargeting.Control
