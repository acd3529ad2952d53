import AutoTargeting.EventBus.Consumers
import AutoTargeting.Control.FailSafe

namespace AutoTargeting.EventBus

open Runs Control

section
variable {F T E P : Type} [PartialCmp F] [F32 F] {mt : MultiTargetTracker F T E} {cfg : TrackerConfig}
  {decode : Unit → P → Option (DetectionsFrame F)}

theorem TrackerRun.turn_failed {s s' : TrackerRun F T} {t : TrackerTurn E}
    {d : Drained (DetectionsFrame F)} (h : s.turn mt cfg t d = some s') (hd : d.refused = false) :
    s'.failed = s.failed := by
  have hstatus : ∀ s : TrackerRun F T, (s.publishStatus mt cfg t).failed = s.failed := by
    intro s
    unfold publishStatus
    split <;> rfl
  unfold turn at h
  split at h
  · cases h
  · split at h
    · cases h
      exact hstatus _
    · rw [hd] at h
      cases h
      exact hstatus s

theorem TrackerRun.turn_isSome {s : TrackerRun F T} {t : TrackerTurn E}
    (d : Drained (DetectionsFrame F)) (hs : s.failed = false) (ht : s.finished cfg t = false) :
    (s.turn mt cfg t d).isSome := by
  unfold turn
  rw [hs, ht]
  split
  · simp_all
  · split
    · rfl
    · split <;> rfl

/-- Without bad payloads, the tracker never returns with an error. -/
theorem tracker_failed {s0 : TrackerRun F T} (h0 : s0.failed = false)
    {es : List (FedEvent (fun _ => P) (TrackerTurn E))} {s : Fed (fun _ : Unit => P) (TrackerRun F T)}
    (h : ((trackerLoop mt cfg).machine decode).replay ⟨s0, noneWaits⟩ es = some s)
    (haccept : ∀ p, .arrive () p ∈ es → (decode () p).isSome) :
    s.state.failed = false := by
  induction es using List.reverseRecOn generalizing s with
  | nil =>
    obtain rfl := Option.some.inj h
    exact h0
  | append_singleton es e ih =>
    obtain ⟨s1, hes, hstep⟩ := Machine.replay_snoc h
    have hearlier : ∀ i p, .arrive i p ∈ es → True → (decode i p).isSome :=
      fun i p hp _ => haccept p (by simp [hp])
    have hs1 := ih hes fun p hp => haccept p (by simp [hp])
    cases e with
    | arrive i p =>
      obtain rfl := Option.some.inj hstep
      exact hs1
    | turn t =>
      obtain ⟨st', hturn, rfl⟩ := Option.map_eq_some_iff.mp hstep
      have hq := (Consumer.exists_lagging Consumer.blind_of_strict hes hearlier).1
      have hrefused := (drainUpTo_accepts (decode ()) 1 (hq () trivial)).1
      rw [← hs1]
      exact TrackerRun.turn_failed hturn hrefused

end

/-- The commander does not look at refusals. -/
theorem commander_blind {F : Type} (G : Type) [F32 F] (cfg : CommanderBusConfig) :
    (commanderLoop F G cfg).Blind fun _ => False := by
  intro s t d d' hmessages _
  simp only [commanderLoop, hmessages]

/-- Nor does the bridge. -/
theorem bridge_blind (F G : Type) [ArgFloat F G] (cfg : BridgeConfig) (maxDuration : Option ℕ) :
    (bridgeLoop F G cfg maxDuration).Blind fun _ => False := by
  intro s t d d' hmessages _
  simp only [bridgeLoop, hmessages]

def commanderStops {F : Type} (cfg : CommanderBusConfig) (s : BusState F) (t : CommanderTurn F) :
    Prop := (cfg.maxDuration.any fun limit => limit ≤ t.tick.now - s.started) = true

def bridgeStops {F : Type} (maxDuration : Option ℕ) (s : BridgeRun F) (t : BridgeTurn) : Prop :=
  (maxDuration.any fun limit => limit ≤ t.now - s.started) = true

theorem step_isSome {F : Type} [F32 F] {cfg : CommanderBusConfig} {s : BusState F} {t : Tick F}
    (h : ¬ (cfg.maxDuration.any fun limit => limit ≤ t.now - s.started) = true) :
    (s.step cfg t).isSome := by
  unfold BusState.step
  rw [if_neg h, Option.isSome_some]

theorem commander_handle_isSome {F : Type} (G : Type) [F32 F] {cfg : CommanderBusConfig}
    {s : BusState F} {t : CommanderTurn F} (h : ¬ commanderStops cfg s t)
    (d : ∀ i, Drained (CommanderTopic.Msg F G i)) :
    ((commanderLoop F G cfg).handle s t d).isSome := by
  simp only [commanderLoop]
  apply step_isSome
  exact h

theorem bridge_handle_isSome {F G : Type} [ArgFloat F G] {cfg : BridgeConfig}
    {maxDuration : Option ℕ} {s : BridgeRun F} {t : BridgeTurn} (h : ¬ bridgeStops maxDuration s t)
    (d : Unit → Drained CommandMsg) : ((bridgeLoop F G cfg maxDuration).handle s t d).isSome := by
  have hlimit : ¬ (maxDuration.any fun limit => limit ≤ t.now - s.started) = true := h
  simp only [bridgeLoop, BridgeRun.turn]
  rw [if_neg hlimit, Option.isSome_some]

/-- Where the tracker's loop ends on purpose. -/
def trackerStops {F T E : Type} (cfg : TrackerConfig) (s : TrackerRun F T) (t : TrackerTurn E) :
    Prop := s.finished cfg t = true

/-- Payloads that do not decode stop neither the commander nor the bridge, and both treat the
messages among them as if there were no others; so does the tracker, while every payload of
`at/detections` decodes. -/
theorem bad_payloads_skipped {F G T E P Q : Type} [PartialCmp F] [F32 F] [ArgFloat F G]
    (decodeFrame : Unit → P → Option (DetectionsFrame F))
    (decodeForCommander : ∀ i, Q → Option (CommanderTopic.Msg F G i))
    (decodeCommand : Unit → P → Option CommandMsg) :
    (∀ (mt : MultiTargetTracker F T E) (cfg : TrackerConfig) (s0 : TrackerRun F T) es s,
      s0.failed = false →
      ((trackerLoop mt cfg).machine decodeFrame).replay ⟨s0, noneWaits⟩ es = some s →
      (∀ p, .arrive () p ∈ es → (decodeFrame () p).isSome) →
      (trackerLoop mt cfg).GoesOn decodeFrame (trackerStops cfg) s ∧
        (trackerLoop mt cfg).AsIfDecodable decodeFrame s0 es s) ∧
    (∀ (cfg : CommanderBusConfig) (s0 : BusState F) es s,
      ((commanderLoop F G cfg).machine decodeForCommander).replay ⟨s0, noneWaits⟩ es = some s →
      (commanderLoop F G cfg).GoesOn decodeForCommander (commanderStops cfg) s ∧
        (commanderLoop F G cfg).AsIfDecodable decodeForCommander s0 es s) ∧
    (∀ (cfg : BridgeConfig) (maxDuration : Option ℕ) (s0 : BridgeRun F) es s,
      ((bridgeLoop F G cfg maxDuration).machine decodeCommand).replay ⟨s0, noneWaits⟩ es = some s →
      (bridgeLoop F G cfg maxDuration).GoesOn decodeCommand (bridgeStops maxDuration) s ∧
        (bridgeLoop F G cfg maxDuration).AsIfDecodable decodeCommand s0 es s) := by
  refine ⟨fun mt cfg s0 es s h0 h haccept => ⟨?_, ?_⟩, fun cfg s0 es s h => ⟨?_, ?_⟩,
    fun cfg maxDuration s0 es s h => ⟨?_, ?_⟩⟩
  · have hfailed := tracker_failed h0 h haccept
    apply Consumer.goesOn_of_handle fun i => by simp [trackerLoop]
    intro t ht
    exact TrackerRun.turn_isSome _ hfailed (by simpa [trackerStops] using ht)
  · exact Consumer.asIfDecodable Consumer.blind_of_strict h fun i p hp _ => haccept p hp
  · apply Consumer.goesOn_of_handle fun i => by cases i <;> simp [commanderLoop, trackBudget]
    intro t ht
    exact commander_handle_isSome G ht _
  · exact Consumer.asIfDecodable (commander_blind G cfg) h fun i p _ hi => hi.elim
  · apply Consumer.goesOn_of_handle fun i => by simp [bridgeLoop]
    intro t ht
    exact bridge_handle_isSome ht _
  · exact Consumer.asIfDecodable (bridge_blind F G cfg maxDuration) h fun i p _ hi => hi.elim

instance : PartialCmp ℚ where
  partialCmp x y := some (compare x y)

/-- Whole numbers only. -/
instance : ArgFloat ℚ ℚ where
  asF64 n := (n.toInt?.getD 0 : ℤ)
  toBits x := UInt64.ofNat x.num.toNat
  toF32 x := x
  zero := 0

/-- A multi-target tracker that was given no detection yet. -/
def noTracks : MultiTargetTracker ℚ Unit Unit :=
  ⟨fun tracker _ _ => tracker, fun _ => [], fun _ _ => false, fun _ => 0⟩

def trackerDefault : TrackerConfig := ⟨false, secs 5, none, none⟩

def trackerStart : TrackerRun ℚ Unit := ⟨(), 0, 0, 0, 0, 0, 0, 0, [], [], false⟩

def trackerTurnAt (now : Instant) : TrackerTurn Unit :=
  ⟨now, now, (), fun _ => true, now, now, now, now⟩

def emptyFrame : DetectionsFrame ℚ := ⟨1, .unixEpoch, [], 640, 480⟩

def commanderTurnAt (now : ℕ) : CommanderTurn ℚ :=
  ⟨Control.tickAt now none [], now, fun _ => (fun _ => now, envAt now)⟩

def bridgeStart : BridgeRun ℚ := ⟨0, ⟨0, 0, []⟩, ⟨0, none, none, none, 0, []⟩, []⟩

def bridgeTurnAt (now : Instant) : BridgeTurn :=
  ⟨now, fun _ => none, now, .fresh now, true⟩

def armCommand : CommandMsg := ⟨contractVersion, "fc", "arm", .object [], "cli", 1⟩

def sentTrack : TrackMsg ℚ := ⟨contractVersion, 7, 1, ⟨600, 200, 40, 80⟩, 0, 0, "person", 0, 1, 0, 0⟩

/-- A good frame for the tracker; for the commander and the bridge, a bad payload and a good
one. -/
theorem bad_payloads_skipped_mixed :
    (∃ s, ((trackerLoop noTracks trackerDefault).machine fun _ => id).replay
        ⟨trackerStart, noneWaits⟩ [.arrive () (some emptyFrame), .turn (trackerTurnAt 1)] = some s ∧
      (trackerLoop noTracks trackerDefault).AsIfDecodable (fun _ => id) trackerStart
        [.arrive () (some emptyFrame), .turn (trackerTurnAt 1)] s) ∧
    (∃ s, ((commanderLoop ℚ ℚ .default).machine
        (fun i (p : Option (TrackMsg ℚ)) => match i with
          | .telemetry => none
          | .tracks => p)).replay ⟨busStart, noneWaits⟩
          [.arrive .tracks none, .arrive .tracks (some sentTrack), .turn (commanderTurnAt 1)] =
        some s ∧
      (commanderLoop ℚ ℚ .default).AsIfDecodable
        (fun i (p : Option (TrackMsg ℚ)) => match i with
          | .telemetry => none
          | .tracks => p) busStart
          [.arrive .tracks none, .arrive .tracks (some sentTrack), .turn (commanderTurnAt 1)] s) ∧
    (∃ s, ((bridgeLoop ℚ ℚ .default none).machine fun _ => id).replay ⟨bridgeStart, noneWaits⟩
        [.arrive () none, .arrive () (some armCommand), .turn (bridgeTurnAt 1)] = some s ∧
      (bridgeLoop ℚ ℚ .default none).AsIfDecodable (fun _ => id) bridgeStart
        [.arrive () none, .arrive () (some armCommand), .turn (bridgeTurnAt 1)] s) := by
  have hframes := bad_payloads_skipped (F := ℚ) (G := ℚ) (T := Unit) (E := Unit)
    (P := Option (DetectionsFrame ℚ)) (Q := Option (TrackMsg ℚ)) (fun _ => id)
    (fun i p => match i with
      | .telemetry => none
      | .tracks => p) (fun _ _ => none)
  have hcommands := bad_payloads_skipped (F := ℚ) (G := ℚ) (T := Unit) (E := Unit)
    (P := Option CommandMsg) (Q := Option (TrackMsg ℚ)) (fun _ _ => none)
    (fun i p => match i with
      | .telemetry => none
      | .tracks => p) (fun _ => id)
  refine ⟨⟨_, rfl, (hframes.1 _ _ _ _ _ rfl rfl ?_).2⟩, ⟨_, rfl, (hframes.2.1 _ _ _ _ rfl).2⟩,
    ⟨_, rfl, (hcommands.2.2 _ _ _ _ _ rfl).2⟩⟩
  intro p hp
  simp_all

/-- A payload that does not decode, and a frame behind it: the tracker returns with an error. -/
theorem tracker_ends_at_bad_payload :
    ∃ s, ((trackerLoop noTracks trackerDefault).machine fun _ => id).replay
        ⟨trackerStart, noneWaits⟩
        [.arrive () none, .arrive () (some emptyFrame), .turn (trackerTurnAt 1)] = some s ∧
      ¬ (trackerLoop noTracks trackerDefault).GoesOn (fun _ => id) (trackerStops trackerDefault)
        s := by
  refine ⟨_, rfl, fun h => ?_⟩
  obtain ⟨s', hs', -⟩ := h (trackerTurnAt 2) Bool.false_ne_true
  change none = some s' at hs'
  cases hs'

end AutoTargeting.EventBus
