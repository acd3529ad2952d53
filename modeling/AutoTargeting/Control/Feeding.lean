import AutoTargeting.Control.FailSafe

namespace AutoTargeting.Control

/-- A step that feeds watchdogs in `P` alone, and registers none. -/
structure FeedsOnly {F : Type} (P : WatchdogId → Prop) (c c' : Commander F) : Prop where
  config : c'.config = c.config
  registered : ∀ id, (c'.watchdogs id).map (·.config) = (c.watchdogs id).map (·.config)
  lastFed : ∀ id, ¬ P id → (c'.watchdogs id).map (·.lastFed) = (c.watchdogs id).map (·.lastFed)

namespace FeedsOnly
variable {F : Type} {P Q : WatchdogId → Prop} {c c' c'' : Commander F}

theorem refl (P : WatchdogId → Prop) (c : Commander F) : FeedsOnly P c c :=
  ⟨rfl, fun _ => rfl, fun _ _ => rfl⟩

theorem trans (h : FeedsOnly P c c') (h' : FeedsOnly P c' c'') : FeedsOnly P c c'' :=
  ⟨h'.config.trans h.config, fun id => (h'.registered id).trans (h.registered id),
    fun id hid => (h'.lastFed id hid).trans (h.lastFed id hid)⟩

theorem mono (hPQ : ∀ id, P id → Q id) (h : FeedsOnly P c c') : FeedsOnly Q c c' :=
  ⟨h.config, h.registered, fun id hid => h.lastFed id fun hP => hid (hPQ id hP)⟩

theorem of_same (hwatchdogs : c'.watchdogs = c.watchdogs) (hconfig : c'.config = c.config) :
    FeedsOnly P c c' := by
  refine ⟨hconfig, fun id => ?_, fun id _ => ?_⟩
  · rw [hwatchdogs]
  · rw [hwatchdogs]

/-- Another entry under `id`, with the same configuration. -/
theorem of_insert {id : WatchdogId} {f : WatchdogEntry → WatchdogEntry}
    (hf : ∀ e, (f e).config = e.config) (hfed : ¬ P id → ∀ e, (f e).lastFed = e.lastFed) :
    FeedsOnly P c { c with watchdogs := c.watchdogs.insert id ((c.watchdogs id).map f) } := by
  refine ⟨rfl, fun i => ?_, fun i hi => ?_⟩
  · unfold WatchdogRegistry.insert
    dsimp only
    split
    case isTrue heq =>
      rw [heq, Option.map_map]
      congr 1
      funext e
      exact hf e
    case isFalse => rfl
  · unfold WatchdogRegistry.insert
    dsimp only
    split
    case isTrue heq =>
      rw [heq, Option.map_map]
      congr 1
      funext e
      exact hfed (heq ▸ hi) e
    case isFalse => rfl

theorem feed (c : Commander F) {id : WatchdogId} (h : P id) (now : ℤ) :
    FeedsOnly P c (c.feed id now) := of_insert (fun _ => rfl) fun hnot => absurd h hnot

theorem note (c : Commander F) (id : WatchdogId) :
    FeedsOnly P c { c with watchdogs := c.watchdogs.noteExpiryProcessed id } :=
  of_insert (fun _ => rfl) fun _ _ => rfl

end FeedsOnly

section
variable {F : Type} {P : WatchdogId → Prop}

theorem disconnect_feeds (c : Commander F) (env : Env F) : FeedsOnly P c (c.disconnect env).2 := by
  unfold Commander.disconnect Commander.callFc
  cases env.fcError with
  | none => exact .of_same rfl rfl
  | some e => exact .of_same rfl rfl

theorem requestFc_feeds (c : Commander F) (call : FcCall F) (env : Env F) :
    FeedsOnly P c (c.requestFc call env).2 := by
  unfold Commander.requestFc
  split
  · exact .refl P c
  · exact .of_same rfl rfl

theorem disarm_feeds (c : Commander F) (env : Env F) : FeedsOnly P c (c.disarm env).2 := by
  unfold Commander.disarm
  split
  · exact .refl P c
  · unfold Commander.callFc
    cases env.fcError with
    | none => exact .of_same rfl rfl
    | some e => exact .of_same rfl rfl

theorem startScanning_feeds (c : Commander F) : FeedsOnly P c c.startScanning.2 := by
  have htry : FeedsOnly P c (c.tryTransition .scanning).2 := .of_same rfl rfl
  unfold Commander.startScanning
  split
  case h_1 h => rwa [h] at htry
  case h_2 h =>
    rw [h] at htry
    exact htry.trans (.of_same rfl rfl)

theorem selectTarget_feeds (c : Commander F) (targetId : TargetId) :
    FeedsOnly P c (c.selectTarget targetId).2 := by
  have htry : FeedsOnly P c (c.tryTransition .targetSelected).2 := .of_same rfl rfl
  unfold Commander.selectTarget
  split
  case h_5 => exact .refl P c
  all_goals
    split
    case h_1 h => rwa [h] at htry
    case h_2 selected h =>
      rw [h] at htry
      have hlock : FeedsOnly P c (selected.tryTransition .tracking).2 := htry.trans (.of_same rfl rfl)
      split
      case h_1 h' => rwa [h'] at hlock
      case h_2 h' =>
        rw [h'] at hlock
        exact hlock.trans (.of_same rfl rfl)

theorem abort_feeds (c : Commander F) (env : Env F) : FeedsOnly P c (c.abort env).2 := by
  unfold Commander.abort Commander.callFc
  cases env.fcError with
  | none => exact .of_same rfl rfl
  | some e => exact .of_same rfl rfl

theorem reset_feeds (c : Commander F) : FeedsOnly P c c.reset.2 := by
  have htry : FeedsOnly P c (c.tryTransition .idle).2 := .of_same rfl rfl
  unfold Commander.reset
  split
  · exact .refl P c
  · split
    case h_1 h => rwa [h] at htry
    case h_2 h =>
      rw [h] at htry
      exact htry.trans (.of_same rfl rfl)

theorem processExpiry_feeds (c : Commander F) (expired : WatchdogId × WatchdogAction) :
    FeedsOnly P c (c.processExpiry expired) := by
  have hnoted : FeedsOnly P c { c with
      watchdogs := c.watchdogs.noteExpiryProcessed expired.1 } := .note c expired.1
  unfold Commander.processExpiry
  dsimp only
  split
  · split
    · exact hnoted.trans (.of_same rfl rfl)
    · exact hnoted
  · exact hnoted

theorem processWatchdogExpiries_feeds (c : Commander F) (order : HashOrder) (now : ℤ) :
    FeedsOnly P c (c.processWatchdogExpiries order now).2 := by
  unfold Commander.processWatchdogExpiries
  generalize c.watchdogs.checkExpired order now = expired
  induction expired generalizing c with
  | nil => exact .refl P c
  | cons e rest ih => exact (processExpiry_feeds c e).trans (ih (c.processExpiry e))

theorem completeCycle_feeds (hcommand : P .commandLoop) (c : Commander F) (env : Env F) :
    FeedsOnly P c (c.completeCycle env) :=
  (FeedsOnly.feed c hcommand (env.utc 2)).trans (.of_same rfl rfl)

theorem acquireTarget_feeds (hcommand : P .commandLoop) (hvideo : P .videoLoop) (c : Commander F)
    (r : ReceivedTrack F) : FeedsOnly P c (BusState.acquireTarget c r) := by
  have hfed : FeedsOnly P c ((c.feed .commandLoop (r.utc 0)).feedVideoWatchdog (r.utc 1)) :=
    (FeedsOnly.feed c hcommand (r.utc 0)).trans (.feed _ hvideo (r.utc 1))
  unfold BusState.acquireTarget
  dsimp only
  split
  · exact hfed.trans (selectTarget_feeds _ _)
  · exact hfed

theorem checkWatchdogs_feeds (hcommand : P .commandLoop) (hvideo : P .videoLoop) (t : Tick F)
    (c : Commander F) : FeedsOnly P c (BusState.checkWatchdogs t c) := by
  have hfed : FeedsOnly P c ((c.feed .commandLoop t.commandFed).feedVideoWatchdog t.videoFed) :=
    (FeedsOnly.feed c hcommand t.commandFed).trans (.feed _ hvideo t.videoFed)
  have hchecked := hfed.trans (processWatchdogExpiries_feeds
    ((c.feed .commandLoop t.commandFed).feedVideoWatchdog t.videoFed) t.order t.checked)
  unfold BusState.checkWatchdogs
  dsimp only
  split
  · exact (hchecked.trans (abort_feeds _ t.abortEnv)).trans (reset_feeds _)
  · exact hchecked

end

section
variable {F : Type} [F32 F] {P : WatchdogId → Prop}

theorem sendAndComplete_feeds (hcommand : P .commandLoop) (c : Commander F)
    (cmd : CorrectionCommand F) (env : Env F) : FeedsOnly P c (c.sendAndComplete cmd env).2 := by
  have hsend : FeedsOnly P c (c.sendCorrectionToFc cmd env).2 := by
    unfold Commander.sendCorrectionToFc
    generalize c.rateLimiter.trySend (env.mono 3) = t
    obtain ⟨admitted, rateLimiter⟩ := t
    cases admitted with
    | false => exact .of_same rfl rfl
    | true => exact .of_same rfl rfl
  unfold Commander.sendAndComplete
  split
  case h_1 h => rwa [h] at hsend
  case h_2 sent h =>
    rw [h] at hsend
    exact (hsend.trans (.feed sent hcommand (env.utc 2))).trans (.of_same rfl rfl)

theorem correct_feeds (hcommand : P .commandLoop) (c : Commander F) (offset : F × F) (env : Env F) :
    FeedsOnly P c (c.correct offset env).2 := by
  have hguarded : ∀ antiLoop, FeedsOnly P c { c with antiLoop := antiLoop } :=
    fun _ => .of_same rfl rfl
  unfold Commander.correct
  dsimp only
  split
  · exact (hguarded _).trans (sendAndComplete_feeds hcommand _ _ env)
  · exact (hguarded _).trans (completeCycle_feeds hcommand _ env)
  · refine ((hguarded (c.guarded offset env).2).trans ?_).trans (completeCycle_feeds hcommand _ env)
    exact .of_same rfl rfl
  · exact (hguarded _).trans (abort_feeds _ env)

theorem update_feeds (hinference : P .inferenceLoop) (htracking : P .trackingLoop)
    (hcommand : P .commandLoop) (c : Commander F) (targetOffset : Option (F × F)) (env : Env F) :
    FeedsOnly P c (c.update targetOffset env).2 := by
  have hfed : FeedsOnly P c ((c.feed .inferenceLoop (env.utc 0)).feed .trackingLoop (env.utc 1)) :=
    (FeedsOnly.feed c hinference (env.utc 0)).trans (.feed _ htracking (env.utc 1))
  unfold Commander.update
  dsimp only
  split
  · split
    · exact hfed.trans (correct_feeds hcommand _ _ env)
    · exact hfed.trans (completeCycle_feeds hcommand _ env)
  · exact hfed.trans (completeCycle_feeds hcommand _ env)

/-- A track message feeds the loops, and not the heartbeat watchdog. -/
theorem onTrack_feeds (cfg : CommanderBusConfig) (s : BusState F) (r : ReceivedTrack F) :
    FeedsOnly (· ≠ .fcHeartbeat) s.commander (s.onTrack cfg r).commander := by
  have hacquire : FeedsOnly (· ≠ .fcHeartbeat) s.commander
      (BusState.acquireTarget s.commander r) := acquireTarget_feeds nofun nofun s.commander r
  have hloops : ∀ c : Commander F, FeedsOnly (· ≠ .fcHeartbeat) c (BusState.feedLoops c r) :=
    fun c => ((FeedsOnly.feed c nofun (r.utc 2)).trans (.feed _ nofun (r.utc 3))).trans
      (.feed _ nofun (r.utc 4))
  unfold BusState.onTrack
  dsimp only
  split
  · exact (hacquire.trans (update_feeds nofun nofun nofun _ _ r.env)).trans (hloops _)
  · exact hacquire.trans (hloops _)

theorem handled_feeds (cfg : CommanderBusConfig) (s : BusState F) (taken : List (ReceivedTrack F)) :
    FeedsOnly (· ≠ .fcHeartbeat) s.commander (taken.foldl (BusState.onTrack cfg) s).commander := by
  induction taken generalizing s with
  | nil => exact .refl _ s.commander
  | cons r rest ih => exact (onTrack_feeds cfg s r).trans (ih (s.onTrack cfg r))

theorem drain_feeds (cfg : CommanderBusConfig) (s : BusState F) (tracks : List (ReceivedTrack F)) :
    FeedsOnly (· ≠ .fcHeartbeat) s.commander (s.drain cfg tracks).commander :=
  handled_feeds cfg s (tracks.take trackBudget)

end

end AutoTargeting.Control
