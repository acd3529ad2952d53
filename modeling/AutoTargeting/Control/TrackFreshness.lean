import AutoTargeting.Control.Atomicity
import AutoTargeting.Control.BusOperations
import AutoTargeting.Control.HeartbeatWatch

namespace AutoTargeting.Control

open Runs Machine

section
variable {F : Type} {P : WatchdogId → Prop} {c c' : Commander F}

/-- The tracking watchdog is registered as the configuration says, and degrades. -/
def TrackingWatched (c : Commander F) : Prop :=
  (c.watchdogs .trackingLoop).map (·.config) = some ⟨c.config.trackingLoopWdtMs, .degrade⟩

/-- When the tracking watchdog was fed last. -/
def trackingFed (c : Commander F) : Option ℤ := (c.watchdogs .trackingLoop).map (·.lastFed)

theorem FeedsOnly.trackingWatched (h : FeedsOnly P c c') (hc : TrackingWatched c) :
    TrackingWatched c' := by
  unfold TrackingWatched
  rw [h.registered, h.config]
  exact hc

theorem feed_trackingFed (c : Commander F) (now : ℤ) :
    trackingFed (c.feed .trackingLoop now) = (trackingFed c).map fun _ => now := by
  unfold trackingFed Commander.feed WatchdogRegistry.feed WatchdogRegistry.insert
  simp only [if_true, Option.map_map]
  rfl

theorem TrackingWatched.fed (h : TrackingWatched c) : ∃ fedAt, trackingFed c = some fedAt := by
  obtain ⟨e, he, -⟩ := Option.map_eq_some_iff.mp h
  refine ⟨e.lastFed, ?_⟩
  unfold trackingFed
  rw [he]
  rfl

theorem connect_trackingWatched (h : TrackingWatched c) (env : Env F) :
    TrackingWatched (c.connect env).2 := by
  cases hfc : env.fcError with
  | some e =>
    unfold Commander.connect Commander.callFc
    rw [hfc]
    exact h
  | none =>
    rw [connect_eq c env hfc]
    have hsame : (c.connecting env).watchdogs .trackingLoop = c.watchdogs .trackingLoop :=
      rfl
    show (((c.connecting env).watchdogs .trackingLoop).map (·.config)) = _
    rw [hsame]
    exact h

/-- What follows each track: the tracking watchdog among the loops. -/
theorem feedLoops_trackingFed (h : TrackingWatched c) (r : ReceivedTrack F) :
    trackingFed (BusState.feedLoops c r) = some (r.utc 2) := by
  obtain ⟨fedAt, hfed⟩ := h.fed
  have hothers : FeedsOnly (· ≠ .trackingLoop) (c.feed .trackingLoop (r.utc 2))
      (BusState.feedLoops c r) :=
    (FeedsOnly.feed _ (by decide) (r.utc 3)).trans (.feed _ (by decide) (r.utc 4))
  have hsame : trackingFed (BusState.feedLoops c r) = trackingFed (c.feed .trackingLoop (r.utc 2)) :=
    hothers.lastFed .trackingLoop (· rfl)
  rw [hsame, feed_trackingFed, hfed]
  rfl

theorem processExpiry_not_tracking (c : Commander F) (id : WatchdogId) :
    (c.processExpiry (id, .degrade)).state ≠ .tracking := by
  unfold Commander.processExpiry
  dsimp only
  split
  case isTrue htracking =>
    rw [tryTransition_state]
    rw [if_pos]
    · nofun
    · exact .inr (by rw [htracking]; rfl)
  case isFalse hnot => exact hnot

theorem expiries_not_tracking (h : c.state ≠ .tracking)
    (expired : List (WatchdogId × WatchdogAction)) :
    (expired.foldl Commander.processExpiry c).state ≠ .tracking := by
  induction expired generalizing c with
  | nil => exact h
  | cons e rest ih =>
    apply ih
    have hmoves : Moves (· ≠ .tracking) True c.standing (c.processExpiry e).standing :=
      c.processExpiry_moves e nofun
    rcases hmoves.state_or with hsame | hnot
    · exact fun htracking => h ((show (c.processExpiry e).state = c.state from hsame) ▸ htracking)
    · exact hnot

/-- A pass over watchdogs, one of which degrades, leaves TRACKING. -/
theorem expiries_degrade {id : WatchdogId} {expired : List (WatchdogId × WatchdogAction)}
    (h : (id, WatchdogAction.degrade) ∈ expired) (c : Commander F) :
    (expired.foldl Commander.processExpiry c).state ≠ .tracking := by
  induction expired generalizing c with
  | nil => cases h
  | cons e rest ih =>
    rcases List.mem_cons.mp h with heq | hrest
    · rw [← heq]
      exact expiries_not_tracking (processExpiry_not_tracking c id) rest
    · exact ih hrest (c.processExpiry e)

/-- Where the watchdog branch leaves TRACKING, it found TRACKING, and a watchdog that was fed in
time. -/
theorem checkWatchdogs_tracking {t : Tick F} (h : TrackingWatched c)
    (htracking : (BusState.checkWatchdogs t c).state = .tracking) :
    c.state = .tracking ∧ ∃ fedAt, trackingFed c = some fedAt ∧
      elapsedMs t.checked fedAt ≤ c.config.trackingLoopWdtMs := by
  have hmoves : Moves (· ≠ .tracking) True c.standing (BusState.checkWatchdogs t c).standing :=
    checkWatchdogs_moves t c nofun nofun nofun
  have hstate : c.state = .tracking := by
    rcases hmoves.state_or with hsame | hnot
    · exact (show (BusState.checkWatchdogs t c).state = c.state from hsame) ▸ htracking
    · exact absurd htracking hnot
  refine ⟨hstate, ?_⟩
  let fedLoop := (c.feed .commandLoop t.commandFed).feedVideoWatchdog t.videoFed
  have hloops : FeedsOnly (· ≠ .trackingLoop) c fedLoop :=
    (FeedsOnly.feed c (by decide) t.commandFed).trans (.feed _ (by decide) t.videoFed)
  have hwatched := hloops.trackingWatched h
  obtain ⟨e, he, hconfig⟩ := Option.map_eq_some_iff.mp hwatched
  refine ⟨e.lastFed, ?_, ?_⟩
  · have hfed : trackingFed fedLoop = trackingFed c := hloops.lastFed .trackingLoop (· rfl)
    rw [← hfed]
    exact congrArg (Option.map (·.lastFed)) he
  · -- otherwise the check reports it, and its expiry leads out of TRACKING
    by_contra hexpired
    have hmem : (WatchdogId.trackingLoop, WatchdogAction.degrade) ∈
        fedLoop.watchdogs.checkExpired t.order t.checked := by
      refine WatchdogRegistry.mem_checkExpired.mpr ⟨e, he, ?_, by rw [hconfig]⟩
      unfold WatchdogEntry.expired
      rw [hconfig]
      exact Nat.lt_of_not_le hexpired
    have hnot : (fedLoop.processWatchdogExpiries t.order t.checked).2.state ≠ .tracking :=
      expiries_degrade hmem fedLoop
    revert htracking
    unfold BusState.checkWatchdogs
    dsimp only
    split
    · have hafter : Moves (· ≠ .tracking) True
          ((fedLoop.processWatchdogExpiries t.order t.checked).2.abort t.abortEnv).2.standing
          ((fedLoop.processWatchdogExpiries t.order t.checked).2.abort t.abortEnv).2.reset.2.standing :=
        Commander.reset_moves _ nofun
      rcases hafter.state_or with hsame | hne
      · intro htracking
        have hback := htracking.symm.trans hsame
        have habort := abort_state (fedLoop.processWatchdogExpiries t.order t.checked).2 t.abortEnv
        exact absurd (hback.trans habort) nofun
      · exact hne
    · exact hnot

theorem begin_not_tracking {env : Env F} {started lastStatus : Instant}
    {s : BusState F} (h : begin c env started lastStatus = .ok s) :
    s.commander.state ≠ .tracking := by
  have harmed := connect_state c env
  unfold begin at h
  split at h
  case h_1 => cases h
  case h_2 connected hconnected =>
    cases h
    rw [hconnected] at harmed
    have hscan : Moves (· ≠ .tracking) True connected.standing connected.startScanning.2.standing :=
      connected.startScanning_moves nofun
    rcases hscan.state_or with hsame | hnot
    · rw [show connected.startScanning.2.state = connected.state from hsame, harmed rfl]
      nofun
    · exact hnot

end

/-- A bus run with the track messages that it handled, each with the feed of the tracking
watchdog that came after it, and the times of the last two watchdog checks. -/
structure BusHistory (F : Type) where
  bus : BusState F
  handled : List (TrackMsg × ℤ)
  checkedBefore : ℤ
  checkedAt : ℤ

section
variable {F : Type} [F32 F] {cfg : CommanderBusConfig} {c c' : Commander F}

theorem run_trackingWatched (h : TrackingWatched c) (op : Operation F) :
    TrackingWatched (op.run c).2 := by
  let all : WatchdogId → Prop := fun _ => True
  cases op with
  | connect env => exact connect_trackingWatched h env
  | disconnect env => exact (disconnect_feeds (P := all) c env).trackingWatched h
  | arm env => exact (requestFc_feeds (P := all) c .arm env).trackingWatched h
  | disarm env => exact (disarm_feeds (P := all) c env).trackingWatched h
  | startScanning => exact (startScanning_feeds (P := all) c).trackingWatched h
  | selectTarget targetId => exact (selectTarget_feeds (P := all) c targetId).trackingWatched h
  | update targetOffset env =>
    exact (update_feeds (P := all) trivial trivial trivial c targetOffset env).trackingWatched h
  | processWatchdogExpiries order now =>
    exact (processWatchdogExpiries_feeds (P := all) c order now).trackingWatched h
  | abort env => exact (abort_feeds (P := all) c env).trackingWatched h
  | reset => exact (reset_feeds (P := all) c).trackingWatched h
  | setFlightMode mode env =>
    exact (requestFc_feeds (P := all) c (.setMode mode) env).trackingWatched h
  | setRoi roi env => exact (requestFc_feeds (P := all) c (.setRoi roi) env).trackingWatched h
  | feed id now => exact (FeedsOnly.feed (P := all) c trivial now).trackingWatched h

theorem trackingWatched_reachable (h : (Operation.machine F).Reachable c) : TrackingWatched c := by
  refine h.invariant (I := TrackingWatched) ?_ ?_
  · intro c hinit
    obtain ⟨config, env, camera, rfl⟩ := hinit
    rfl
  · intro c op c' _ hc _ hstep
    cases hstep
    exact run_trackingWatched hc op

theorem operations_trackingWatched (h : Operations c c') (hc : TrackingWatched c) :
    TrackingWatched c' := by
  refine h.preserves (I := TrackingWatched) ?_ hc
  intro c op c' hc _ hstep
  cases hstep
  exact run_trackingWatched hc op

theorem onTrack_trackingFed {s : BusState F} (h : TrackingWatched s.commander)
    (r : ReceivedTrack F) : trackingFed (s.onTrack cfg r).commander = some (r.utc 2) := by
  let all : WatchdogId → Prop := fun _ => True
  have hacquire : FeedsOnly all s.commander (BusState.acquireTarget s.commander r) :=
    acquireTarget_feeds trivial trivial s.commander r
  unfold BusState.onTrack
  apply feedLoops_trackingFed
  dsimp only
  split
  · exact (hacquire.trans (update_feeds trivial trivial trivial _ _ r.env)).trackingWatched h
  · exact hacquire.trackingWatched h

/-- After a batch of tracks, the tracking watchdog was fed with the last of them. -/
theorem handled_trackingFed {s : BusState F} (h : TrackingWatched s.commander)
    {taken : List (ReceivedTrack F)} {r : ReceivedTrack F} (hlast : taken.getLast? = some r) :
    trackingFed (taken.foldl (BusState.onTrack cfg) s).commander = some (r.utc 2) := by
  obtain ⟨before, rfl⟩ := List.getLast?_eq_some_iff.mp hlast
  rw [List.foldl_append]
  exact onTrack_trackingFed ((handled_feeds cfg s before).trackingWatched h) r

/-- The loop of `CommanderBus::run` with its history, for any commander an operator may hand
over. -/
def historyRun (F : Type) [F32 F] (cfg : CommanderBusConfig) : Machine (BusHistory F) (Tick F) where
  Init s := s.handled = [] ∧ ∃ c env started lastStatus, (Operation.machine F).Reachable c ∧
    begin c env started lastStatus = .ok s.bus
  step s t := (s.bus.step cfg t).map fun bus => {
    bus := bus
    handled := s.handled ++ (t.tracks.take trackBudget).map fun r => (r.track, r.utc 2)
    checkedBefore := s.checkedAt
    checkedAt := t.checked }

/-- In TRACKING, the tracking watchdog was last fed with the last track message, and in time for
the last check. -/
structure TrackedInTime (s : BusHistory F) : Prop where
  watched : TrackingWatched s.bus.commander
  tracked : s.bus.commander.state = .tracking → ∃ track fedAt,
    s.handled.getLast? = some (track, fedAt) ∧ trackingFed s.bus.commander = some fedAt ∧
      elapsedMs s.checkedAt fedAt ≤ s.bus.commander.config.trackingLoopWdtMs

theorem trackedInTime_step {s s' : BusHistory F} {t : Tick F} (hs : TrackedInTime s)
    (hstep : (historyRun F cfg).step s t = some s') : TrackedInTime s' := by
  obtain ⟨bus, hbus, rfl⟩ := Option.map_eq_some_iff.mp hstep
  have hcommander := step_commander hbus
  have htelemetry : FeedsOnly (· ≠ .trackingLoop) s.bus.commander
      (s.bus.onTelemetry t.telemetry).commander := by
    cases t.telemetry with
    | none => exact .refl _ _
    | some fedAt => exact .feed _ (by decide) fedAt
  have hwatched := htelemetry.trackingWatched hs.watched
  have hdrained := (drain_feeds cfg (s.bus.onTelemetry t.telemetry) t.tracks).trackingWatched hwatched
  have hchecked := checkWatchdogs_feeds (P := (· ≠ .trackingLoop)) (by decide) (by decide) t
    ((s.bus.onTelemetry t.telemetry).drain cfg t.tracks).commander
  rw [← hcommander] at hchecked
  refine ⟨hchecked.trackingWatched hdrained, ?_⟩
  intro htracking
  rw [show bus.commander.state = _ from congrArg Commander.state hcommander] at htracking
  obtain ⟨hstate, fedAt, hfed, hintime⟩ := checkWatchdogs_tracking hdrained htracking
  have hfed' : trackingFed bus.commander = some fedAt :=
    (hchecked.lastFed .trackingLoop (· rfl)).trans hfed
  rw [← hchecked.config] at hintime
  cases hlast : (t.tracks.take trackBudget).getLast? with
  | some r =>
    have hlastFed : some fedAt = some (r.utc 2) :=
      hfed.symm.trans (handled_trackingFed hwatched hlast)
    refine ⟨r.track, fedAt, ?_, hfed', hintime⟩
    rw [Option.some.inj hlastFed, List.getLast?_append, List.getLast?_map, hlast]
    rfl
  | none =>
    -- no track in this turn: the watchdog still has the feed of an earlier one
    have hnone : t.tracks.take trackBudget = [] := List.getLast?_eq_none_iff.mp hlast
    have hquiet : (s.bus.onTelemetry t.telemetry).drain cfg t.tracks =
        s.bus.onTelemetry t.telemetry := by
      unfold BusState.drain
      rw [hnone]
      rfl
    rw [hquiet] at hstate hfed
    have hbefore : s.bus.commander.state = .tracking :=
      (congrArg Standing.state (onTelemetry_standing s.bus t.telemetry)).symm.trans hstate
    obtain ⟨track, fedBefore, hhandled, hfedBefore, -⟩ := hs.tracked hbefore
    have hsame : some fedAt = some fedBefore :=
      (hfed.symm.trans (htelemetry.lastFed .trackingLoop (· rfl))).trans hfedBefore
    refine ⟨track, fedAt, ?_, hfed', hintime⟩
    rw [hnone, Option.some.inj hsame]
    simpa using hhandled

/-- At the end of every turn of the loop: in TRACKING, a track message has been handled, and when
the watchdogs were checked, the last one was no older than the timeout on their clock. -/
theorem tracking_after_track {C : BusHistory F → Tick F → Prop} {s : BusHistory F}
    (h : (historyRun F cfg).ReachableBy C s) (htracking : s.bus.commander.state = .tracking) :
    ∃ track fedAt, s.handled.getLast? = some (track, fedAt) ∧
      elapsedMs s.checkedAt fedAt ≤ s.bus.commander.config.trackingLoopWdtMs := by
  have hfresh : TrackedInTime s := by
    refine h.invariant (I := TrackedInTime) ?_ ?_
    · intro s hinit
      obtain ⟨-, c, env, started, lastStatus, hc, hbegin⟩ := hinit
      exact ⟨operations_trackingWatched (begin_operations hbegin) (trackingWatched_reachable hc),
        fun htracking => absurd htracking (begin_not_tracking hbegin)⟩
    · intro s t s' _ hs _ hstep
      exact trackedInTime_step hs hstep
  obtain ⟨track, fedAt, hhandled, -, hintime⟩ := hfresh.tracked htracking
  exact ⟨track, fedAt, hhandled, hintime⟩

end

/-- Turns of forty milliseconds: target 7 once, and then only target 8. -/
def otherTracks : List (Tick ℚ) :=
  [tickAt 0 none [edgeTrack], tickAt (millis 40) none [{ edgeTrack with trackId := 8 }],
    tickAt (millis 80) none [{ edgeTrack with trackId := 8 }],
    tickAt (millis 120) none [{ edgeTrack with trackId := 8 }]]

theorem otherTracks_reachable : ∃ s : BusHistory ℚ, (historyRun ℚ .default).Reachable s ∧
    s.bus.commander.state = .tracking ∧ s.bus.commander.activeTargetId = some 7 ∧
    s.handled.map (fun p => (p.1.trackId, p.2)) =
      [(7, 0), (8, 40000000), (8, 80000000), (8, 120000000)] ∧
    s.checkedBefore = 80000000 ∧ s.checkedAt = 120000000 ∧
    s.bus.commander.config.trackingLoopWdtMs = 50 := by
  have hrun : ((historyRun ℚ .default).exec (fun _ _ => True) ⟨busStart, [], 0, 0⟩ otherTracks).map
      (fun s => ((s.bus.commander.state, s.bus.commander.activeTargetId,
        s.bus.commander.config.trackingLoopWdtMs),
        s.handled.map (fun p => (p.1.trackId, p.2)), s.checkedBefore, s.checkedAt)) =
      some ((.tracking, some 7, 50), [(7, 0), (8, 40000000), (8, 80000000), (8, 120000000)],
        80000000, 120000000) := by decide +kernel
  obtain ⟨s, hs, hobs⟩ := Option.map_eq_some_iff.mp hrun
  simp only [Prod.mk.injEq] at hobs
  obtain ⟨⟨hstate, htarget, htimeout⟩, hhandled, hbefore, hat⟩ := hobs
  have hnew : (Operation.machine ℚ).Reachable (Commander.new .default (envAt 0)) :=
    .init ⟨.default, envAt 0, .default, rfl⟩
  exact ⟨s, .of_exec (.init ⟨rfl, _, envAt 0, 0, 0, hnew, rfl⟩) hs, hstate, htarget, hhandled,
    hbefore, hat, htimeout⟩

theorem tracking_after_other_track : ∃ s : BusHistory ℚ, s.bus.commander.state = .tracking ∧
    ∃ track fedAt, s.handled.getLast? = some (track, fedAt) ∧
      elapsedMs s.checkedAt fedAt ≤ s.bus.commander.config.trackingLoopWdtMs := by
  obtain ⟨s, hreach, hstate, -⟩ := otherTracks_reachable
  exact ⟨s, hstate, tracking_after_track hreach hstate⟩

/-- The messages about target 8 keep the commander in TRACKING on target 7. -/
theorem tracking_outlives_its_track :
    ¬ ∀ s : BusHistory ℚ, (historyRun ℚ .default).Reachable s →
      s.bus.commander.state = .tracking → ∃ track fedAt, (track, fedAt) ∈ s.handled ∧
        s.bus.commander.activeTargetId = some track.trackId ∧
        track.misses ≤ CommanderBusConfig.default.maxTrackMisses ∧
        elapsedMs s.checkedAt fedAt ≤
          s.bus.commander.config.trackingLoopWdtMs + elapsedMs s.checkedAt s.checkedBefore := by
  intro hall
  obtain ⟨s, hreach, hstate, htarget, hhandled, hbefore, hat, htimeout⟩ := otherTracks_reachable
  obtain ⟨track, fedAt, hmem, hactive, -, hintime⟩ := hall s hreach hstate
  have hid : (7 : TargetId) = track.trackId := Option.some.inj (htarget.symm.trans hactive)
  have hfed : (7, fedAt) ∈ s.handled.map (fun p => (p.1.trackId, p.2)) := by
    rw [hid]
    exact List.mem_map_of_mem (f := fun p : TrackMsg × ℤ => (p.1.trackId, p.2)) hmem
  rw [hhandled] at hfed
  have hzero : fedAt = 0 := by simpa using hfed
  rw [hat, hbefore, htimeout, hzero] at hintime
  revert hintime
  decide

end AutoTargeting.Control
