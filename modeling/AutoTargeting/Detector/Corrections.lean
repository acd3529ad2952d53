import AutoTargeting.Control.Steering
import AutoTargeting.Detector.Chain

namespace AutoTargeting.Detector

open Runs Control EventBus Json
open AutoTargeting.Ring (CheckedConfig)

/-- The chain up to `at/tracks`, the bus for that, and the commander with what waits in its queues;
`missed` is how many messages of the tracker came before the commander subscribed. -/
structure Onboard (F T : Type) where
  chain : Chain F T
  missed : ℕ
  wire : Wire (TrackMsg F)
  commander : Fed (fun _ : CommanderTopic => Bytes) (BusState F)

inductive OnboardEvent (F E : Type)
  | chain (e : ChainEvent E)
  | deliver
  | lose (i : ℕ)
  | telemetry (p : Bytes)
  | turn (t : CommanderTurn F)

section
variable {F T E : Type} [JsonFloat F] [PartialCmp F] [F32 F] (G : Type) [JsonFloat G]
  (rfc : Rfc3339)

def trackPayload (m : TrackMsg F) : Bytes := toVec m.serialize

def decodeForCommander : ∀ i, Bytes → Option (CommanderTopic.Msg F G i)
  | .telemetry, p => fromSlice TelemetrySample.deserialize p
  | .tracks, p => fromSlice TrackMsg.deserialize p

/-- JSON has numbers for the floats of the message. -/
def finite (m : TrackMsg F) : Bool :=
  JsonFloat.isFinite m.vx && JsonFloat.isFinite m.vy && JsonFloat.isFinite m.confidence

variable (mt : MultiTargetTracker F T E) (trackerCfg : TrackerConfig) (busCfg : CommanderBusConfig)
  (cfg : DetectorConfig) (env : Surroundings F) (c : CheckedConfig) (producerPid pid : ℕ)

namespace Onboard

def step (s : Onboard F T) : OnboardEvent F E → Option (Onboard F T)
  | .chain e =>
    (Chain.step rfc mt trackerCfg cfg env c producerPid pid s.chain e).map fun chain =>
      { s with
        chain
        wire := s.wire.put
          (chain.tracker.state.published.drop s.chain.tracker.state.published.length) }
  | .deliver =>
    s.wire.deliver.bind fun r =>
      (((commanderLoop F G busCfg).machine (decodeForCommander G)).step s.commander
        (.arrive .tracks (trackPayload r.1))).map fun commander => { s with wire := r.2, commander }
  | .lose i => (s.wire.lose i).map fun wire => { s with wire }
  | .telemetry p =>
    (((commanderLoop F G busCfg).machine (decodeForCommander G)).step s.commander
      (.arrive .telemetry p)).map fun commander => { s with commander }
  | .turn t =>
    (((commanderLoop F G busCfg).machine (decodeForCommander G)).step s.commander (.turn t)).map
      fun commander => { s with commander }

def Calling (s : Onboard F T) : OnboardEvent F E → Prop
  | .chain e => Chain.Calling cfg env c producerPid pid s.chain e
  | .deliver | .lose _ | .telemetry _ | .turn _ => True

instance (s : Onboard F T) (e : OnboardEvent F E) :
    Decidable (Calling cfg env c producerPid pid s e) :=
  match e with
  | .chain e => inferInstanceAs (Decidable (Chain.Calling cfg env c producerPid pid s.chain e))
  | .deliver | .lose _ | .telemetry _ | .turn _ => inferInstanceAs (Decidable True)

/-- The commander subscribes when it is connected, at any time in a run of the others. What is on
its way to it then is some last part of what the tracker published. -/
def machine : Machine (Onboard F T) (OnboardEvent F E) where
  Init s :=
    (Chain.machine rfc mt trackerCfg cfg env c producerPid pid).ReachableBy
      (Chain.Calling cfg env c producerPid pid) s.chain ∧
    s.missed ≤ s.chain.tracker.state.published.length ∧
    s.wire = ⟨s.chain.tracker.state.published.drop s.missed, 0⟩ ∧ s.commander.queue = noneWaits ∧
    ∃ config env₀ camera connectEnv started lastStatus,
      begin ((Commander.new config env₀).withCameraParams camera) connectEnv started lastStatus =
        .ok s.commander.state
  step := step G rfc mt trackerCfg busCfg cfg env c producerPid pid

end Onboard

end

section
variable {F T E G : Type} [JsonFloat F] [PartialCmp F] [F32 F] [JsonFloat G]
  {rfc : Rfc3339} {mt : MultiTargetTracker F T E} {trackerCfg : TrackerConfig}
  {busCfg : CommanderBusConfig} {cfg : DetectorConfig} {env : Surroundings F} {c : CheckedConfig}
  {producerPid pid : ℕ}

omit [PartialCmp F] [F32 F] in
theorem finite_of_received (limit : ℕ) {m m' : TrackMsg F}
    (h : ((m.serialize).read (limit + 2)).bind TrackMsg.deserialize = some m') :
    finite m = true := by
  simp [TrackMsg.serialize, readStruct, writeU8, writeU32, writeU64, TrackMsg.deserialize,
    Value.fields, Value.required, Value.under, Value.text] at h
  simp [finite, h]

omit [PartialCmp F] [F32 F] in
theorem decode_trackPayload (m : TrackMsg F) :
    decodeForCommander G .tracks (trackPayload m) = Option.guard finite m := by
  rw [decodeForCommander, trackPayload, fromSlice_toVec (TrackMsg.wellFormed m)]
  cases hfinite : finite m with
  | true =>
    rw [Option.guard_pos hfinite]
    have hparts : (JsonFloat.isFinite m.vx = true ∧ JsonFloat.isFinite m.vy = true) ∧
        JsonFloat.isFinite m.confidence = true := by simpa [finite] using hfinite
    exact (TrackMsg.received_iff 125 m).mpr ⟨hparts.1.1, hparts.1.2, hparts.2⟩
  | false =>
    rw [Option.guard_eq_none_iff.mpr hfinite]
    refine Option.eq_none_iff_forall_ne_some.mpr fun m' hm' => ?_
    exact Bool.false_ne_true (hfinite.symm.trans (finite_of_received 125 hm'))

omit [JsonFloat F] in
theorem published_grow_turn {s s' : TrackerRun F T} {t : TrackerTurn E}
    {d : Drained (DetectionsFrame F)} (h : s.turn mt trackerCfg t d = some s') :
    s.published <+: s'.published := by
  unfold TrackerRun.turn at h
  split at h
  case isTrue => cases h
  case isFalse =>
    split at h
    case h_1 frame rest _ =>
      obtain rfl := Option.some.inj h
      rw [(publishStatus_keeps mt trackerCfg _ t).2.1]
      exact List.prefix_append _ _
    case h_2 =>
      split at h
      case isTrue =>
        obtain rfl := Option.some.inj h
        exact List.prefix_refl _
      case isFalse =>
        obtain rfl := Option.some.inj h
        rw [(publishStatus_keeps mt trackerCfg _ t).2.1]

theorem Chain.published_grow {s s' : Chain F T} {e : ChainEvent E}
    (h : Chain.step rfc mt trackerCfg cfg env c producerPid pid s e = some s') :
    s.tracker.state.published <+: s'.tracker.state.published := by
  cases e with
  | ring e =>
    obtain ⟨detector, -, rfl⟩ := Option.map_eq_some_iff.mp h
    exact List.prefix_refl _
  | deliver =>
    obtain ⟨r, -, h⟩ := Option.bind_eq_some_iff.mp h
    obtain ⟨tracker, htracker, rfl⟩ := Option.map_eq_some_iff.mp h
    obtain rfl := Option.some.inj htracker
    exact List.prefix_refl _
  | lose i =>
    obtain ⟨wire, -, rfl⟩ := Option.map_eq_some_iff.mp h
    exact List.prefix_refl _
  | turn t =>
    obtain ⟨tracker, htracker, rfl⟩ := Option.map_eq_some_iff.mp h
    obtain ⟨state, hstate, rfl⟩ := Option.map_eq_some_iff.mp htracker
    exact published_grow_turn hstate

/-- The commander has handled the messages of these that it could read. -/
structure Obeys (busCfg : CommanderBusConfig) (past : List (TrackMsg F)) (s : BusState F) :
    Prop where
  counted : s.stats.tracksReceived = (past.filter finite).length
  steered : Steered busCfg ((past.filter finite).map TrackMsg.forCommander) s.commander

omit [JsonFloat F] [PartialCmp F] [F32 F] in
theorem withMessages_tracks (t : CommanderTurn F) (samples : ℕ) {messages : List (TrackMsg F)}
    (h : messages.length ≤ trackBudget) :
    ((t.withMessages samples messages).tracks.take trackBudget).map (·.track) =
      messages.map TrackMsg.forCommander := by
  unfold CommanderTurn.withMessages
  dsimp only
  rw [List.take_of_length_le (by simpa using h), List.map_map]
  calc messages.zipIdx.map (TrackMsg.forCommander ∘ Prod.fst)
      = (messages.zipIdx.map Prod.fst).map TrackMsg.forCommander := by rw [List.map_map]
    _ = messages.map TrackMsg.forCommander := by rw [List.zipIdx_map_fst]

omit [PartialCmp F] in
/-- A turn takes the first messages that wait. -/
theorem obeys_turn {s s' : Fed (fun _ : CommanderTopic => Bytes) (BusState F)}
    {t : CommanderTurn F} {past waiting : List (TrackMsg F)} (h : Obeys busCfg past s.state)
    (hq : s.queue .tracks = waiting.map trackPayload)
    (hs : ((commanderLoop F G busCfg).machine (decodeForCommander G)).step s (.turn t) = some s') :
    ∃ k, s'.queue .tracks = (waiting.drop k).map trackPayload ∧
      Obeys busCfg (past ++ waiting.take k) s'.state := by
  obtain ⟨state, hstate, rfl⟩ := Option.map_eq_some_iff.mp hs
  let decode : Bytes → Option (TrackMsg F) := decodeForCommander G .tracks
  let samples := (drain (decodeForCommander (F := F) G .telemetry) (some 1)
    (s.queue .telemetry)).1.messages.length
  obtain ⟨k, hmessages, hrest⟩ := drainUpTo_split decode trackBudget (s.queue .tracks)
  have hread : decode ∘ trackPayload = Option.guard finite := funext decode_trackPayload
  have hgot : (drainUpTo decode trackBudget (s.queue .tracks)).1.messages =
      (waiting.take k).filter finite := by
    rw [hmessages, hq, ← List.map_take, List.filterMap_map, hread, List.filterMap_eq_filter]
  have hbudget : ((waiting.take k).filter finite).length ≤ trackBudget :=
    hgot ▸ drainUpTo_length_le decode trackBudget (s.queue .tracks)
  have hstep : s.state.step busCfg (t.withMessages samples ((waiting.take k).filter finite)) =
      some state := hgot ▸ hstate
  have htracks := withMessages_tracks t samples hbudget
  refine ⟨k, ?_, ?_, ?_⟩
  · change (drainUpTo decode trackBudget (s.queue .tracks)).2 = _
    rw [hrest, hq, List.map_drop]
  · have hcount := congrArg List.length htracks
    rw [List.length_map, List.length_map] at hcount
    rw [step_tracksReceived hstep, hcount, h.counted, List.filter_append, List.length_append]
  · have hsteered := h.steered.step hstep
    rwa [htracks, ← List.map_append, ← List.filter_append] at hsteered

namespace Onboard

/-- Of what came to the commander since it subscribed, it has handled the first, and the others
wait. -/
structure Guided (rfc : Rfc3339) (busCfg : CommanderBusConfig) (cfg : DetectorConfig)
    (env : Surroundings F) (c : CheckedConfig) (producerPid pid : ℕ) (s : Onboard F T) : Prop where
  told : Chain.Told rfc cfg env c producerPid pid s.chain
  subscribed : s.missed ≤ s.chain.tracker.state.published.length
  obeys : ∃ past waiting,
    s.wire.Carries (s.chain.tracker.state.published.drop s.missed) (past ++ waiting) ∧
    s.commander.queue .tracks = waiting.map trackPayload ∧ Obeys busCfg past s.commander.state

theorem guided_step {s s' : Onboard F T} {e : OnboardEvent F E}
    (h : Guided rfc busCfg cfg env c producerPid pid s)
    (hcall : Calling cfg env c producerPid pid s e)
    (hs : (machine G rfc mt trackerCfg busCfg cfg env c producerPid pid).step s e = some s') :
    Guided rfc busCfg cfg env c producerPid pid s' := by
  obtain ⟨past, waiting, hcarries, hqueue, hobeys⟩ := h.obeys
  cases e with
  | chain e =>
    obtain ⟨chain, hchain, rfl⟩ := Option.map_eq_some_iff.mp hs
    obtain ⟨news, hnews⟩ := Chain.published_grow hchain
    have hput := hcarries.put news
    refine ⟨Chain.told_step h.told hcall hchain, ?_, past, waiting, ?_, hqueue, hobeys⟩
    · rw [← hnews, List.length_append]
      exact Nat.le_add_right_of_le h.subscribed
    · dsimp only
      rwa [← hnews, List.drop_left, List.drop_append_of_le_length h.subscribed]
  | deliver =>
    obtain ⟨⟨m, wire⟩, hwire, hs⟩ := Option.bind_eq_some_iff.mp hs
    obtain ⟨commander, hcommander, rfl⟩ := Option.map_eq_some_iff.mp hs
    obtain rfl := Option.some.inj hcommander
    refine ⟨h.told, h.subscribed, past, waiting ++ [m], ?_, ?_, hobeys⟩
    · rw [← List.append_assoc]
      exact hcarries.deliver hwire
    · simp [enqueue, hqueue]
  | lose i =>
    obtain ⟨wire, hwire, rfl⟩ := Option.map_eq_some_iff.mp hs
    exact ⟨h.told, h.subscribed, past, waiting, hcarries.lose hwire, hqueue, hobeys⟩
  | telemetry p =>
    obtain rfl := Option.some.inj hs
    refine ⟨h.told, h.subscribed, past, waiting, hcarries, ?_, hobeys⟩
    have htopic : CommanderTopic.tracks ≠ .telemetry := by decide
    have hsame : enqueue .telemetry p s.commander.queue .tracks = s.commander.queue .tracks :=
      Function.update_of_ne htopic _ s.commander.queue
    exact hsame.trans hqueue
  | turn t =>
    obtain ⟨commander, hcommander, rfl⟩ := Option.map_eq_some_iff.mp hs
    obtain ⟨k, hrest, hmore⟩ := obeys_turn hobeys hqueue hcommander
    refine ⟨h.told, h.subscribed, past ++ waiting.take k, waiting.drop k, ?_, hrest, hmore⟩
    rw [List.append_assoc, List.take_append_drop]
    exact hcarries

theorem guided_reachable {s : Onboard F T}
    (h : (machine G rfc mt trackerCfg busCfg cfg env c producerPid pid).ReachableBy
      (Calling cfg env c producerPid pid) s) : Guided rfc busCfg cfg env c producerPid pid s := by
  refine h.invariant ?_ fun s e s' _ hg hcall hs => guided_step hg hcall hs
  rintro s ⟨hchain, hmissed, hwire, hqueue, config, env₀, camera, connectEnv, started, lastStatus,
    hbegin⟩
  refine ⟨Chain.told_reachable hchain, hmissed, [], [], ?_, ?_, ?_⟩
  · rw [hwire]
    exact Wire.carries_start _
  · exact congrFun hqueue .tracks
  · refine ⟨?_, Steered.begin hbegin⟩
    unfold begin at hbegin
    split at hbegin
    · cases hbegin
    · obtain hstate := Except.ok.inj hbegin
      rw [← hstate]
      rfl

end Onboard

/-- The messages that the position targets were made from: fresh ones outside of the deadband, in
their order, all for the track of the first message, and each built from what was inferred of a
frame that was published. -/
structure MadeFrom (busCfg : CommanderBusConfig) (cfg : DetectorConfig) (env : Surroundings F)
    (c : CheckedConfig) (s : Onboard F T) (handled source : List (TrackMsg F)) : Prop where
  among : source.Sublist handled
  made : List.Forall₂ (fun m => Steers busCfg s.commander.state.commander.config
    s.commander.state.commander.camera (TrackMsg.forCommander m)) source
    s.commander.state.commander.sentTargets
  loyal : ∀ m ∈ source, handled.head?.map (·.trackId) = some m.trackId
  inOrder : source.Pairwise (·.frameSeq.toNat ≤ ·.frameSeq.toNat)
  shown : ∀ m ∈ source, ∃ p ∈ s.chain.detector.state.calls, ∃ d ∈ s.chain.detector.view.events,
    Detecting.Shows cfg env c p d ∧ ∃ state, m = trackMsg d.frameSeq d.detections state

omit [JsonFloat F] [PartialCmp F] [F32 F] in
theorem head_of_firstId {handled : List (TrackMsg F)} {m : TrackMsg F}
    (h : firstId (handled.map TrackMsg.forCommander) = some m.trackId.toNat) :
    handled.head?.map (·.trackId) = some m.trackId := by
  cases handled with
  | nil => cases h
  | cons first rest => exact congrArg some (UInt64.toNat_inj.mp (Option.some.inj h))

theorem Onboard.Guided.madeFrom {s : Onboard F T} {past waiting : List (TrackMsg F)}
    (h : Guided rfc busCfg cfg env c producerPid pid s)
    (hcarries : s.wire.Carries (s.chain.tracker.state.published.drop s.missed) (past ++ waiting))
    (hobeys : Obeys busCfg past s.commander.state) :
    ∃ source, MadeFrom busCfg cfg env c s (past.filter finite) source := by
  obtain ⟨_, hamong, hmade, hloyal⟩ := hobeys.steered.sent
  obtain ⟨source, hsource, rfl⟩ := List.sublist_map_iff.mp hamong
  have hpast : past.Sublist (s.chain.tracker.state.published.drop s.missed) := by
    have hcame := hcarries.inOrder
    rw [List.append_assoc] at hcame
    exact (List.sublist_append_left _ _).trans hcame
  have hall : source.Sublist s.chain.tracker.state.published :=
    ((hsource.trans List.filter_sublist).trans hpast).trans (List.drop_sublist _ _)
  refine ⟨source, hsource, List.forall₂_map_left_iff.mp hmade, fun m hm => ?_,
    h.told.inOrder.sublist hall, fun m hm => h.told.shown (hall.subset hm)⟩
  exact head_of_firstId (hloyal _ (List.mem_map_of_mem hm))

/-- From the camera's ring to the flight controller, in every interleaving of all processes: of the
messages that the tracker published since the commander subscribed, all but those that the bus lost
or still has came to the commander; it has counted those of them that JSON has numbers for, or they
wait; and each position target is made from one that it counted. -/
theorem corrections_of_frames {s : Onboard F T}
    (h : (Onboard.machine G rfc mt trackerCfg busCfg cfg env c producerPid pid).ReachableBy
      (Onboard.Calling cfg env c producerPid pid) s) :
    ∃ past waiting,
      s.wire.Carries (s.chain.tracker.state.published.drop s.missed) (past ++ waiting) ∧
      s.commander.queue .tracks = waiting.map trackPayload ∧
      s.commander.state.stats.tracksReceived = (past.filter finite).length ∧
      ∃ source, MadeFrom busCfg cfg env c s (past.filter finite) source := by
  have hguided := Onboard.guided_reachable h
  obtain ⟨past, waiting, hcarries, hqueue, hobeys⟩ := hguided.obeys
  exact ⟨past, waiting, hcarries, hqueue, hobeys.counted, hguided.madeFrom hcarries hobeys⟩

end

/-- The clocks read this everywhere, and the flight controller takes every call. -/
def calmEnv (now : ℕ) : Env ZeroOrNan := ⟨fun _ => now, fun _ => now, none, ⟨.zero, .zero⟩⟩

def calmTurn (now : ℕ) : CommanderTurn ZeroOrNan :=
  ⟨⟨now, none, [], now, now, now, .declared, calmEnv now, now, now⟩, now,
    fun _ => (fun _ => now, calmEnv now)⟩

def onboardStart : Onboard ZeroOrNan Unit :=
  ⟨chainStart, 0, .empty,
    ⟨⟨((Commander.new .default (calmEnv 0)).connect (calmEnv 0)).2.startScanning.2, ⟨0, 0, 0, 0⟩, 0,
      0, []⟩, noneWaits⟩⟩

/-- Of the messages about three frames the second is lost, and the commander corrects by the two
others. -/
theorem corrections_of_frames_twice : ∃ s : Onboard ZeroOrNan Unit,
    s.commander.state.commander.sentTargets.length = 2 ∧ s.wire.lost = 1 ∧
    ∃ past source : List (TrackMsg ZeroOrNan),
      s.commander.state.stats.tracksReceived = (past.filter finite).length ∧
      MadeFrom .default ⟨.mock, 3⟩ emptySky Ring.tinyConfig s (past.filter finite) source := by
  have hrun : ((Onboard.machine ZeroOrNan unaryTimes oneTrack ⟨false, secs 5, none, none⟩ .default
      ⟨.mock, 3⟩ emptySky Ring.tinyConfig 100 1).exec
      (Onboard.Calling ⟨.mock, 3⟩ emptySky Ring.tinyConfig 100 1) onboardStart
      (detectThree.map (fun e => .chain (.ring e)) ++
        [.chain .deliver, .chain (.turn (trackerTurn 1)), .deliver, .turn (calmTurn 0), .telemetry [],
          .chain .deliver, .chain (.turn (trackerTurn 2)), .lose 0, .chain .deliver,
          .chain (.turn (trackerTurn 3)), .deliver, .turn (calmTurn 200000000)])).map (fun s =>
        (s.commander.state.commander.sentTargets.length, s.wire.lost)) = some (2, 1) := by
    decide +kernel
  obtain ⟨s, hs, hout⟩ := Option.map_eq_some_iff.mp hrun
  obtain ⟨hsent, hlost⟩ := Prod.mk.inj hout
  obtain ⟨past, waiting, -, -, hcounted, source, hmade⟩ := corrections_of_frames
    (.of_exec (.init ⟨.init ⟨⟨⟨_, rfl, rfl⟩, rfl⟩, rfl, rfl, rfl, rfl, rfl⟩, Nat.zero_le _, rfl, rfl,
      .default, calmEnv 0, .default, calmEnv 0, 0, 0, rfl⟩) hs)
  exact ⟨s, hsent, hlost, past, source, hcounted, hmade⟩

end AutoTargeting.Detector
