import AutoTargeting.Control.Coherence
import AutoTargeting.Control.CorrectionBound
import AutoTargeting.Control.CorrectionCount

namespace AutoTargeting.Control

open Runs BusState

section
variable {F : Type} [F32 F]

/-- The yaw that `update` asks for, by the offset of a track and the attitude. -/
def correctionTarget (config : CommanderConfig F) (camera : CameraParams F) (offset : F × F)
    (attitude : Attitude F) : PositionTargetNED F :=
  let norm : FrameOffset F :=
    ⟨F32.clamp (clip offset.1 config.maxOffsetFraction) (F32.ofRat (-1)) (F32.ofRat 1),
      F32.clamp (clip offset.2 config.maxOffsetFraction) (F32.ofRat (-1)) (F32.ofRat 1)⟩
  ⟨F32.ofRat 0, F32.ofRat 0, F32.ofRat 0,
    (camera.offsetToNedTargetWithAttitude norm attitude.pitch attitude.yaw).yaw⟩

/-- A position target that was made from this track: a fresh one, outside of the deadband. -/
structure Steers (cfg : CommanderBusConfig) (config : CommanderConfig F) (camera : CameraParams F)
    (m : TrackMsg) (target : PositionTargetNED F) : Prop where
  fresh : m.misses ≤ cfg.maxTrackMisses
  outside : ¬ (F32.abs (trackOffset cfg m : F × F).1 < config.deadbandFraction ∧
    F32.abs (trackOffset cfg m : F × F).2 < config.deadbandFraction)
  made : ∃ attitude, target = correctionTarget config camera (trackOffset cfg m) attitude

/-- The position targets that the commander sent, whatever the flight controller answered. -/
def Commander.sentTargets {F : Type} (c : Commander F) : List (PositionTargetNED F) :=
  (c.log.filterMap Entry.positionTarget?).map Prod.fst

def firstId (handled : List TrackMsg) : Option TargetId := handled.head?.map (·.trackId)

/-- The target is the track of the first message; there is none before the first message and in
safe states. -/
structure Aimed {F : Type} (handled : List TrackMsg) (c : Commander F) : Prop where
  loyal : ∀ id, c.activeTargetId = some id → firstId handled = some id
  aimless : c.activeTargetId = none → (handled = [] ∧ c.state = .scanning) ∨ c.state.Safe

/-- The track messages that the position targets were made from, all of them for the track of the
first message. -/
structure Sources (cfg : CommanderBusConfig) (handled : List TrackMsg) (c : Commander F)
    (source : List TrackMsg) : Prop where
  among : source.Sublist handled
  made : List.Forall₂ (Steers cfg c.config c.camera) source c.sentTargets
  loyal : ∀ m ∈ source, firstId handled = some m.trackId

/-- What holds of a commander that has handled these track messages. -/
structure Steered (cfg : CommanderBusConfig) (handled : List TrackMsg) (c : Commander F) :
    Prop where
  aimed : Aimed handled c
  sent : ∃ source, Sources cfg handled c source

end

section
variable {F : Type} {c c' c'' : Commander F}

/-- The target stays or is given up in a safe state, and nothing but an end leads away from
SCANNING or from a safe state. -/
structure KeepsTarget (c c' : Commander F) : Prop where
  target : c'.activeTargetId = c.activeTargetId ∨ (c'.activeTargetId = none ∧ c'.state.Safe)
  scanning : c.state = .scanning → c'.state = .scanning ∨ c'.state.Safe
  safe : c.state.Safe → c'.state.Safe

theorem KeepsTarget.of_same (htarget : c'.activeTargetId = c.activeTargetId)
    (hstate : c'.state = c.state) : KeepsTarget c c' :=
  ⟨.inl htarget, fun h => .inl (hstate.trans h), fun h => hstate ▸ h⟩

theorem KeepsTarget.trans (h : KeepsTarget c c') (h' : KeepsTarget c' c'') :
    KeepsTarget c c'' := by
  refine ⟨?_, fun hscanning => ?_, fun hsafe => h'.safe (h.safe hsafe)⟩
  · rcases h'.target with hsame | hgone
    · rcases h.target with hsame' | ⟨hnone, hsafe⟩
      · exact .inl (hsame.trans hsame')
      · exact .inr ⟨hsame.trans hnone, h'.safe hsafe⟩
    · exact .inr hgone
  · rcases h.scanning hscanning with hstill | hsafe
    · exact h'.scanning hstill
    · exact .inr (h'.safe hsafe)

theorem KeepsTarget.of_corrects (hcorrects : c.state.Corrects)
    (htarget : c'.activeTargetId = c.activeTargetId) : KeepsTarget c c' := by
  refine ⟨.inl htarget, fun hscanning => ?_, fun hsafe => ?_⟩
  · rw [hscanning] at hcorrects
    exact absurd hcorrects (by decide)
  · exact absurd hcorrects (safe_not_corrects hsafe)

theorem abort_keepsTarget (c : Commander F) (env : Env F) : KeepsTarget c (c.abort env).2 := by
  have hsafe : (c.abort env).2.state.Safe := .inl (abort_state c env)
  refine ⟨?_, fun _ => .inr hsafe, fun _ => hsafe⟩
  have htarget : (c.abort env).2.activeTargetId =
      if env.fcError = none then none else c.activeTargetId := by
    unfold Commander.abort Commander.callFc
    cases env.fcError <;> rfl
  by_cases hfc : env.fcError = none
  · rw [htarget, if_pos hfc]
    exact .inr ⟨rfl, hsafe⟩
  · rw [htarget, if_neg hfc]
    exact .inl rfl

theorem reset_keepsTarget (c : Commander F) : KeepsTarget c c.reset.2 := by
  unfold Commander.reset
  split
  case isTrue => exact .of_same rfl rfl
  case isFalse hnot =>
    have habort : c.state = .abort := not_not.mp hnot
    split
    case h_1 e kept hkept =>
      rcases c.tryTransition_cases .idle with ⟨-, htry⟩ | ⟨-, -, htry⟩ | ⟨-, -, htry⟩
      · rw [htry] at hkept
        cases hkept
      · rw [htry] at hkept
        cases hkept
      · rw [htry] at hkept
        cases hkept
        exact .of_same rfl rfl
    case h_2 moved hmoved =>
      have hidle : moved.state = .idle := by
        have hok : (c.tryTransition .idle).1 = .ok () → (c.tryTransition .idle).2.state = .idle :=
          c.tryTransition_ok
        rw [hmoved] at hok
        exact hok rfl
      have hsafe : moved.state.Safe := .inr hidle
      exact ⟨.inr ⟨rfl, hsafe⟩, fun _ => .inr hsafe, fun _ => hsafe⟩

theorem processExpiry_keepsTarget (c : Commander F) (e : WatchdogId × WatchdogAction) :
    KeepsTarget c (c.processExpiry e) := by
  unfold Commander.processExpiry
  dsimp only
  split
  case h_1 =>
    split
    case isTrue htracking => exact .of_corrects (.inl htracking) rfl
    case isFalse => exact .of_same rfl rfl
  case h_2 => exact .of_same rfl rfl

theorem processWatchdogExpiries_keepsTarget (c : Commander F) (order : HashOrder) (now : ℤ) :
    KeepsTarget c (c.processWatchdogExpiries order now).2 := by
  unfold Commander.processWatchdogExpiries
  generalize c.watchdogs.checkExpired order now = expired
  induction expired generalizing c with
  | nil => exact .of_same rfl rfl
  | cons e rest ih => exact (processExpiry_keepsTarget c e).trans (ih (c.processExpiry e))

theorem checkWatchdogs_keepsTarget (t : Tick F) (c : Commander F) :
    KeepsTarget c (checkWatchdogs t c) := by
  have hfed : KeepsTarget c ((c.feed .commandLoop t.commandFed).feedVideoWatchdog t.videoFed) :=
    .of_same rfl rfl
  have hexpiries := hfed.trans (processWatchdogExpiries_keepsTarget _ t.order t.checked)
  unfold checkWatchdogs
  dsimp only
  split
  · exact (hexpiries.trans (abort_keepsTarget _ t.abortEnv)).trans (reset_keepsTarget _)
  · exact hexpiries

variable [F32 F]

theorem correct_keepsTarget (hcorrects : c.state.Corrects) (offset : F × F) (env : Env F) :
    KeepsTarget c (c.correct offset env).2 := by
  unfold Commander.correct
  generalize c.guarded offset env = t
  obtain ⟨decision, antiLoop⟩ := t
  dsimp only
  cases decision with
  | allow cmd =>
    have hstanding := Commander.sendAndComplete_standing { c with antiLoop := antiLoop } cmd env
    refine .of_corrects hcorrects ?_
    have htarget := congrArg Standing.target hstanding
    split at htarget <;> exact htarget
  | suppress => exact .of_same rfl rfl
  | degrade => exact .of_corrects hcorrects rfl
  | abort =>
    have hguarded : KeepsTarget c { c with antiLoop := antiLoop } := .of_same rfl rfl
    exact hguarded.trans (abort_keepsTarget _ env)

theorem update_keepsTarget (c : Commander F) (targetOffset : Option (F × F)) (env : Env F) :
    KeepsTarget c (c.update targetOffset env).2 := by
  have hfed : KeepsTarget c ((c.feed .inferenceLoop (env.utc 0)).feed .trackingLoop (env.utc 1)) :=
    .of_same rfl rfl
  unfold Commander.update
  dsimp only
  split
  · split
    case isTrue hcorrects => exact hfed.trans (correct_keepsTarget hcorrects _ env)
    case isFalse => exact .of_same rfl rfl
  · exact .of_same rfl rfl

end

section
variable {F : Type} {cfg : CommanderBusConfig} {handled : List TrackMsg} {c c' : Commander F}

theorem firstId_append {id : TargetId} (h : firstId handled = some id) (more : List TrackMsg) :
    firstId (handled ++ more) = some id := by
  cases handled with
  | nil => cases h
  | cons m rest => exact h

theorem Aimed.keeps (h : Aimed handled c) (hkeeps : KeepsTarget c c') : Aimed handled c' := by
  constructor
  case loyal =>
    intro id hid
    rcases hkeeps.target with hsame | ⟨hnone, -⟩
    · exact h.loyal id (hsame.symm.trans hid)
    · exact (Option.some_ne_none id (hid.symm.trans hnone)).elim
  case aimless =>
    intro hnone
    rcases hkeeps.target with hsame | ⟨-, hsafe⟩
    · rcases h.aimless (hsame.symm.trans hnone) with ⟨hnil, hscanning⟩ | hsafe
      · exact (hkeeps.scanning hscanning).imp (fun hstill => ⟨hnil, hstill⟩) id
      · exact .inr (hkeeps.safe hsafe)
    · exact .inr hsafe

/-- The first message aims the commander, and no other does. -/
theorem Aimed.acquire (h : Aimed handled c) (r : ReceivedTrack F) :
    Aimed (handled ++ [r.track]) (acquireTarget c r) := by
  let fed := (c.feed .commandLoop (r.utc 0)).feedVideoWatchdog (r.utc 1)
  cases htarget : c.activeTargetId with
  | some id =>
    have hacquired : acquireTarget c r = fed := if_neg (by
      rw [show fed.activeTargetId = some id from htarget]
      exact Option.some_ne_none id)
    have hfed : (acquireTarget c r).activeTargetId = some id := hacquired ▸ htarget
    refine ⟨fun id' hid' => firstId_append (h.loyal id' ?_) [r.track], fun hnone => ?_⟩
    · rw [htarget, ← hfed, hid']
    · exact absurd (hfed.symm.trans hnone) (Option.some_ne_none id)
  | none =>
    have hacquired : acquireTarget c r = (fed.selectTarget r.track.trackId).2 := if_pos htarget
    rw [hacquired]
    rcases fed.selectTarget_cases r.track.trackId with
      ⟨hscanning, c', hselected, -, hactive⟩ | ⟨hstate, e, hrefused⟩
    · rw [hselected]
      refine ⟨fun id hid => ?_, fun hnone => absurd (hactive.symm.trans hnone) nofun⟩
      have hid : r.track.trackId = id := Option.some.inj (hactive.symm.trans hid)
      rcases h.aimless htarget with ⟨rfl, -⟩ | hsafe
      · rw [← hid]
        rfl
      · rw [show c.state = .scanning from hscanning] at hsafe
        exact absurd hsafe (by decide)
    · rw [hrefused]
      refine ⟨fun id hid => absurd (htarget.symm.trans hid) nofun, fun _ => .inr ?_⟩
      rcases h.aimless htarget with ⟨-, hscanning⟩ | hsafe
      · exact absurd hscanning hstate
      · exact hsafe

theorem Moves.sentTargets_eq {P : SystemState → Prop} (h : Moves P False c.standing c'.standing) :
    c'.sentTargets = c.sentTargets := congrArg (List.map Prod.fst) (Moves.targets_eq h)

theorem acquireTarget_gear {readAt : Option Instant} (c : Commander F) (r : ReceivedTrack F) :
    GearAfter c readAt (acquireTarget c r) := by
  have hfed : GearAfter c readAt ((c.feed .commandLoop (r.utc 0)).feedVideoWatchdog (r.utc 1)) :=
    .of_same rfl rfl rfl
  unfold acquireTarget
  dsimp only
  split
  · exact hfed.trans (selectTarget_gear _ _)
  · exact hfed

theorem checkWatchdogs_gear (t : Tick F) (c : Commander F) :
    GearAfter c (some (t.abortEnv.mono 3)) (checkWatchdogs t c) := by
  have hfed : GearAfter c (some (t.abortEnv.mono 3))
      ((c.feed .commandLoop t.commandFed).feedVideoWatchdog t.videoFed) := .of_same rfl rfl rfl
  have hexpiries := hfed.trans (processWatchdogExpiries_gear _ t.order t.checked)
  unfold checkWatchdogs
  dsimp only
  split
  · exact (hexpiries.trans (abort_gear _ t.abortEnv)).trans (reset_gear _)
  · exact hexpiries

variable [F32 F]

variable {source : List TrackMsg} {target : PositionTargetNED F}

theorem Sources.of_same {readAt : Option Instant} (h : Sources cfg handled c source)
    (hgear : GearAfter c readAt c') (hsent : c'.sentTargets = c.sentTargets) :
    Sources cfg handled c' source := by
  refine ⟨h.among, ?_, h.loyal⟩
  rw [hgear.config, hgear.camera, hsent]
  exact h.made

theorem Sources.more (h : Sources cfg handled c source) (more : List TrackMsg) :
    Sources cfg (handled ++ more) c source :=
  ⟨h.among.trans (List.sublist_append_left handled more), h.made,
    fun m hm => firstId_append (h.loyal m hm) more⟩

theorem Sources.send {readAt : Option Instant} {m : TrackMsg} (h : Sources cfg handled c source)
    (hgear : GearAfter c readAt c') (hsent : c'.sentTargets = c.sentTargets ++ [target])
    (hsteers : Steers cfg c.config c.camera m target)
    (hfirst : firstId (handled ++ [m]) = some m.trackId) :
    Sources cfg (handled ++ [m]) c' (source ++ [m]) := by
  constructor
  case among => exact h.among.append (List.Sublist.refl [m])
  case made =>
    rw [hgear.config, hgear.camera, hsent]
    exact List.rel_append h.made (.cons hsteers .nil)
  case loyal =>
    intro m' hm'
    rcases List.mem_append.mp hm' with hold | hnew
    · exact firstId_append (h.loyal m' hold) [m]
    · rw [List.mem_singleton.mp hnew]
      exact hfirst

/-- An update sends nothing, or one position target for its offset, outside of the deadband. -/
theorem update_sentTargets (c : Commander F) (offset : F × F) (env : Env F) :
    (c.update (some offset) env).2.sentTargets = c.sentTargets ∨
    (c.update (some offset) env).2.sentTargets =
        c.sentTargets ++ [correctionTarget c.config c.camera offset env.attitude] ∧
      ¬ InDeadband c.config (c.commandFor offset (env.mono 0)) := by
  by_cases hsends : c.SendsCorrection (some offset) env
  · right
    obtain ⟨cmd, hallow, -, -, hlog⟩ := update_sends hsends
    obtain ⟨houtside, rfl⟩ := (process_exit c.config c.antiLoop
      ⟨c.commandFor offset (env.mono 0), env.mono 1, env.mono 2⟩).allowed hallow
    refine ⟨?_, houtside⟩
    unfold Commander.sentTargets
    rw [hlog, List.filterMap_append, List.map_append]
    rfl
  · left
    rcases c.update_cases (P := fun _ => True) (some offset) env trivial trivial with
      ⟨hyes, -⟩ | ⟨-, hmoves⟩
    · exact absurd hyes hsends
    · exact hmoves.sentTargets_eq

omit [F32 F] in
theorem feedLoops_same (c : Commander F) (r : ReceivedTrack F) :
    KeepsTarget c (feedLoops c r) ∧ GearAfter c none (feedLoops c r) ∧
      (feedLoops c r).sentTargets = c.sentTargets :=
  ⟨.of_same rfl rfl, .of_same rfl rfl rfl, rfl⟩

theorem Steered.keeps {readAt : Option Instant} (h : Steered cfg handled c)
    (hkeeps : KeepsTarget c c') (hgear : GearAfter c readAt c')
    (hsent : c'.sentTargets = c.sentTargets) : Steered cfg handled c' := by
  obtain ⟨source, hsource⟩ := h.sent
  exact ⟨h.aimed.keeps hkeeps, source, hsource.of_same hgear hsent⟩

theorem Steered.update {m : TrackMsg} (haimed : Aimed (handled ++ [m]) c)
    (hsource : Sources cfg handled c source) (hfresh : m.misses ≤ cfg.maxTrackMisses)
    (htarget : c.activeTargetId = some m.trackId) (env : Env F) :
    Steered cfg (handled ++ [m]) (c.update (some (trackOffset cfg m)) env).2 := by
  have hgear := update_gear c (some (trackOffset cfg m)) env
  refine ⟨haimed.keeps (update_keepsTarget c _ env), ?_⟩
  rcases update_sentTargets c (trackOffset cfg m) env with hsame | ⟨hsent, houtside⟩
  · exact ⟨source, (hsource.of_same hgear hsame).more [m]⟩
  · exact ⟨source ++ [m], hsource.send hgear hsent ⟨hfresh, houtside, env.attitude, rfl⟩
      (haimed.loyal _ htarget)⟩

variable {s s' : BusState F}

theorem Steered.onTrack (h : Steered cfg handled s.commander) (r : ReceivedTrack F) :
    Steered cfg (handled ++ [r.track]) (s.onTrack cfg r).commander := by
  have haimed := h.aimed.acquire r
  have hgear : GearAfter s.commander none (acquireTarget s.commander r) := acquireTarget_gear _ r
  have hacquired : (acquireTarget s.commander r).sentTargets = s.commander.sentTargets :=
    Moves.sentTargets_eq (acquireTarget_moves s.commander r)
  obtain ⟨source, hsource⟩ := h.sent
  have hsource := hsource.of_same hgear hacquired
  by_cases hcontrols : Controls cfg s r
  · rw [onTrack_of_controls hcontrols]
    have hupdated := Steered.update haimed hsource hcontrols.1 hcontrols.2 r.env
    obtain ⟨hkeeps, hfed, hsame⟩ := feedLoops_same ((s.acquired r).control cfg r).commander r
    exact hupdated.keeps hkeeps hfed hsame
  · rw [onTrack_of_not hcontrols]
    have hmore : Steered cfg (handled ++ [r.track]) (s.acquired r).commander :=
      ⟨haimed, source, hsource.more [r.track]⟩
    obtain ⟨hkeeps, hfed, hsame⟩ := feedLoops_same (s.acquired r).commander r
    exact hmore.keeps hkeeps hfed hsame

theorem Steered.drain (h : Steered cfg handled s.commander) (tracks : List (ReceivedTrack F)) :
    Steered cfg (handled ++ tracks.map (·.track))
      (tracks.foldl (BusState.onTrack cfg) s).commander := by
  induction tracks generalizing handled s with
  | nil => rwa [List.map_nil, List.append_nil]
  | cons r rest ih =>
    rw [List.map_cons, List.append_cons]
    exact ih (h.onTrack r)

theorem Steered.step {t : Tick F} (h : Steered cfg handled s.commander)
    (hstep : s.step cfg t = some s') :
    Steered cfg (handled ++ (t.tracks.take trackBudget).map (·.track)) s'.commander := by
  have htelemetry : Steered cfg handled (s.onTelemetry t.telemetry).commander := by
    cases t.telemetry with
    | none => exact h
    | some fedAt =>
      have hgear : GearAfter s.commander none (s.commander.feed .fcHeartbeat fedAt) :=
        .of_same rfl rfl rfl
      exact h.keeps (.of_same rfl rfl) hgear rfl
  rw [step_commander hstep]
  refine (htelemetry.drain (t.tracks.take trackBudget)).keeps (checkWatchdogs_keepsTarget t _)
    (checkWatchdogs_gear t _) ?_
  exact Moves.sentTargets_eq
    (checkWatchdogs_moves (P := fun _ => True) t _ trivial trivial trivial)

/-- Every track message that a turn takes is counted. -/
theorem step_tracksReceived {t : Tick F} (hstep : s.step cfg t = some s') :
    s'.stats.tracksReceived = s.stats.tracksReceived + (t.tracks.take trackBudget).length := by
  have hcontrol : ∀ (s : BusState F) r,
      (s.control cfg r).stats.tracksReceived = s.stats.tracksReceived := by
    intro s r
    unfold BusState.control
    dsimp only
    split
    · rfl
    · split <;> rfl
  have htrack : ∀ (s : BusState F) r,
      (s.onTrack cfg r).stats.tracksReceived = s.stats.tracksReceived + 1 := by
    intro s r
    unfold BusState.onTrack
    dsimp only
    split
    · exact hcontrol _ r
    · rfl
  have hdrain : ∀ (tracks : List (ReceivedTrack F)) (s : BusState F),
      (tracks.foldl (BusState.onTrack cfg) s).stats.tracksReceived =
        s.stats.tracksReceived + tracks.length := by
    intro tracks
    induction tracks with
    | nil => exact fun s => rfl
    | cons r rest ih =>
      intro s
      rw [List.foldl_cons, ih, htrack, List.length_cons]
      omega
  obtain ⟨-, hstats, -⟩ := step_parts hstep
  have htelemetry : (s.onTelemetry t.telemetry).stats.tracksReceived = s.stats.tracksReceived := by
    cases t.telemetry <;> rfl
  rw [hstats, ← htelemetry]
  exact hdrain _ _

theorem Steered.begin {config : CommanderConfig F} {env₀ env : Env F} {camera : CameraParams F}
    {started lastStatus : Instant}
    (h : begin ((Commander.new config env₀).withCameraParams camera) env started lastStatus =
      .ok s) : Steered cfg [] s.commander := by
  unfold Control.begin Commander.connect Commander.callFc at h
  cases henv : env.fcError with
  | some e =>
    rw [henv] at h
    cases h
  | none =>
    rw [henv] at h
    cases h
    refine ⟨⟨fun id hid => ?_, fun _ => .inl ⟨rfl, rfl⟩⟩, [], .slnil, .nil, ?_⟩
    · exact (Option.some_ne_none id hid.symm).elim
    · exact fun m hm => absurd hm List.not_mem_nil

end

end AutoTargeting.Control
