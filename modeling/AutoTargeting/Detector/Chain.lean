import AutoTargeting.Detector.EventRuns
import AutoTargeting.EventBus.Consumers
import AutoTargeting.EventBus.Delivery
import AutoTargeting.Library.Wire

namespace AutoTargeting.Detector

open Runs Control EventBus Json
open AutoTargeting.Ring (CheckedConfig Publication)

/-- The detector on its ring, the tracker with what waits in its queue, and `at/detections` between
them: a bus that keeps the order of these messages, but may take its time and lose some of them. -/
structure Chain (F T : Type) where
  detector : Observed Ring.State (Detecting F)
  wire : Wire (DetectionsFrame F)
  tracker : Fed (fun _ : Unit => Bytes) (TrackerRun F T)

inductive ChainEvent (E : Type)
  | ring (e : Ring.Event)
  | deliver
  | lose (i : ℕ)
  | turn (t : TrackerTurn E)

def Detecting.events {F : Type} (d : Detecting F) : List (DetectionsFrame F) :=
  match d.phase with
  | .looping s | .failed s => s.events
  | .waiting | .refused _ => []

section
variable {F T E : Type} [JsonFloat F] [PartialCmp F] [F32 F] (rfc : Rfc3339)

def payload (m : DetectionsFrame F) : Bytes := toVec (m.serialize rfc)

/-- What the tracker takes a payload of `at/detections` for. -/
def decodeFrame (_ : Unit) (p : Bytes) : Option (DetectionsFrame F) :=
  fromSlice (DetectionsFrame.deserialize rfc) p

variable (mt : MultiTargetTracker F T E) (trackerCfg : TrackerConfig) (cfg : DetectorConfig)
  (env : Surroundings F) (c : CheckedConfig) (producerPid pid : ℕ)

namespace Chain

def step (s : Chain F T) : ChainEvent E → Option (Chain F T)
  | .ring e =>
    ((Detecting.machine cfg env c producerPid pid).step s.detector e).map fun detector =>
      { s with
        detector
        wire := s.wire.put (detector.view.events.drop s.detector.view.events.length) }
  | .deliver =>
    s.wire.deliver.bind fun r =>
      (((trackerLoop mt trackerCfg).machine (decodeFrame rfc)).step s.tracker
        (.arrive () (payload rfc r.1))).map fun tracker => { s with wire := r.2, tracker }
  | .lose i => (s.wire.lose i).map fun wire => { s with wire }
  | .turn t =>
    (((trackerLoop mt trackerCfg).machine (decodeFrame rfc)).step s.tracker (.turn t)).map
      fun tracker => { s with tracker }

def machine : Machine (Chain F T) (ChainEvent E) where
  Init s := (Detecting.machine cfg env c producerPid pid).Init s.detector ∧ s.wire = .empty ∧
    s.tracker.queue = noneWaits ∧ s.tracker.state.framesIn = 0 ∧
    s.tracker.state.published = [] ∧ s.tracker.state.failed = false
  step := step rfc mt trackerCfg cfg env c producerPid pid

def Calling (s : Chain F T) : ChainEvent E → Prop
  | .ring e => Detecting.Calling cfg env c producerPid pid s.detector e
  | .deliver | .lose _ | .turn _ => True

instance (s : Chain F T) (e : ChainEvent E) : Decidable (Calling cfg env c producerPid pid s e) :=
  match e with
  | .ring e => inferInstanceAs (Decidable (Detecting.Calling cfg env c producerPid pid s.detector e))
  | .deliver | .lose _ | .turn _ => inferInstanceAs (Decidable True)

end Chain

end

section
variable {F T E : Type} [JsonFloat F] [PartialCmp F] [F32 F] {rfc : Rfc3339}
  {mt : MultiTargetTracker F T E} {trackerCfg : TrackerConfig} {cfg : DetectorConfig}
  {env : Surroundings F} {c : CheckedConfig} {producerPid pid : ℕ}

omit [JsonFloat F] [PartialCmp F] [F32 F] in
theorem Looping.events_grow {s s' : Looping F} {view : Ring.FrameView} {data : List UInt8}
    (h : s.frame cfg env view data = some s') : s.events <+: s'.events := by
  unfold Looping.frame at h
  simp only at h
  split at h
  · cases h
    exact List.prefix_refl _
  · obtain ⟨prepared, -, rfl⟩ := Option.map_eq_some_iff.mp h
    split
    · exact List.prefix_refl _
    · split
      · exact List.prefix_append _ _
      · exact List.prefix_refl _

omit [JsonFloat F] [PartialCmp F] [F32 F] in
theorem Detecting.events_grow_frame (cursor : Ring.Cursor) (view : Ring.FrameView)
    (data : List UInt8) (d : Detecting F) :
    d.events <+: (frame cfg env cursor view data d.phase).events := by
  cases hphase : d.phase with
  | waiting => simp [events, hphase]
  | refused e => simp [events, hphase]
  | failed s => simp [events, hphase, frame]
  | looping s =>
    simp only [events, hphase, frame]
    cases hs : s.frame cfg env view data with
    | none => exact List.prefix_refl _
    | some s' => exact Looping.events_grow hs

omit [JsonFloat F] [PartialCmp F] [F32 F] in
theorem Detecting.events_grow {t t' : Observed Ring.State (Detecting F)} {e : Ring.Event}
    (h : (machine cfg env c producerPid pid).step t e = some t') :
    t.view.events <+: t'.view.events := by
  obtain ⟨s', -, rfl⟩ := Machine.observed_step h
  have hanswered : ∀ answer, t.view.events <+:
      (answered cfg env c t.state.region answer t.view).events := by
    intro answer
    unfold answered
    split
    · exact List.prefix_refl _
    · exact events_grow_frame _ _ _ _
  simp only [Ring.Loop.seeAs, Ring.Loop.see]
  split
  · split
    · split
      · exact hanswered _
      · exact List.prefix_refl _
    · exact List.prefix_refl _
  all_goals exact List.prefix_refl _

/-- All confidences are numbers for JSON. -/
def AllFinite (m : DetectionsFrame F) : Prop :=
  ∀ d ∈ m.detections, JsonFloat.isFinite d.confidence = true

omit [PartialCmp F] [F32 F] in
theorem allFinite_of_mapM {ds ds' : List (Detection F)}
    (h : ds.mapM (Detection.deserialize rfc ∘ Detection.value rfc) = some ds') :
    ∀ d ∈ ds, JsonFloat.isFinite d.confidence = true := by
  induction ds generalizing ds' with
  | nil => exact fun _ hd => absurd hd List.not_mem_nil
  | cons d ds ih =>
    rw [List.mapM_cons] at h
    obtain ⟨d', hd, h⟩ := Option.bind_eq_some_iff.mp h
    obtain ⟨rest, hrest, -⟩ := Option.bind_eq_some_iff.mp h
    rw [Function.comp_apply, Detection.deserialize_value, readFloat_bind] at hd
    exact List.forall_mem_cons.mpr ⟨hd.1, ih hrest⟩

omit [PartialCmp F] [F32 F] in
theorem allFinite_of_received (limit : ℕ) {m m' : DetectionsFrame F}
    (h : ((m.serialize rfc).read (limit + 4)).bind (DetectionsFrame.deserialize rfc) = some m') :
    AllFinite m := by
  have harray : (Doc.array (m.detections.map (Detection.serialize rfc))).read (limit + 3) =
      some (.array (m.detections.map (Detection.value rfc))) := by
    rw [Doc.read, readItems_detections, Option.map_some]
  simp [DetectionsFrame.serialize, readStruct, writeU32, writeU64, writeTsMs, harray,
    DetectionsFrame.deserialize, Value.fields, Value.required, Value.optional, Value.under,
    Value.items, Option.bind_eq_some_iff] at h
  obtain ⟨ds, hds, -⟩ := h
  exact allFinite_of_mapM hds

omit [PartialCmp F] [F32 F] in
/-- An event whose confidences are numbers is decoded, with its time in milliseconds. -/
theorem decodeFrame_finite {m : DetectionsFrame F} (h : AllFinite m) :
    decodeFrame rfc () (payload rfc m) = some { m with capturedAt := m.capturedAt.truncated } := by
  rw [decodeFrame, payload, fromSlice_toVec (DetectionsFrame.wellFormed rfc m)]
  exact (DetectionsFrame.received_iff rfc 123 m).mpr h

omit [PartialCmp F] [F32 F] in
theorem decodeFrame_not_finite {m : DetectionsFrame F} (h : ¬ AllFinite m) :
    (decodeFrame rfc () (payload rfc m) : Option (DetectionsFrame F)) = none := by
  rw [decodeFrame, payload, fromSlice_toVec (DetectionsFrame.wellFormed rfc m)]
  exact Option.eq_none_iff_forall_ne_some.mpr fun m' hm => h (allFinite_of_received 123 hm)

/-- The messages of the frames that the tracker got. -/
def MessagesOf (good : List (DetectionsFrame F)) (published : List (TrackMsg F)) : Prop :=
  ∃ groups : List (List (TrackMsg F)), published = groups.flatten ∧
    List.Forall₂ (fun m group => ∀ msg ∈ group, ∃ state, msg = trackMsg m.frameSeq m.detections state)
      good groups

/-- The tracker has taken these events from its queue; the first one that is not finite ended
it. -/
structure Heard (events : List (DetectionsFrame F)) (s : TrackerRun F T) : Prop where
  good : ∀ m ∈ events.take s.framesIn, AllFinite m
  messages : MessagesOf (events.take s.framesIn) s.published
  all : s.failed = false → events.length = s.framesIn
  bad : s.failed = true → ∃ m, events.drop s.framesIn = [m] ∧ ¬ AllFinite m

omit [JsonFloat F] [PartialCmp F] in
theorem publishStatus_keeps (mt : MultiTargetTracker F T E)
    (trackerCfg : TrackerConfig) (s : TrackerRun F T) (t : TrackerTurn E) :
    (s.publishStatus mt trackerCfg t).framesIn = s.framesIn ∧
      (s.publishStatus mt trackerCfg t).published = s.published ∧
      (s.publishStatus mt trackerCfg t).failed = s.failed := by
  unfold TrackerRun.publishStatus
  split <;> exact ⟨rfl, rfl, rfl⟩

omit [JsonFloat F] [F32 F] in
/-- A frame more, with the messages that the bus takes. -/
theorem MessagesOf.onFrame {good : List (DetectionsFrame F)} {s : TrackerRun F T}
    (h : MessagesOf good s.published) (t : TrackerTurn E) (m : DetectionsFrame F) (at_ : DateTime) :
    MessagesOf (good ++ [m])
      (s.onFrame mt trackerCfg t { m with capturedAt := at_ }).published := by
  obtain ⟨groups, hpublished, hgroups⟩ := h
  refine ⟨groups ++ [((TrackerRun.trackMsgs mt trackerCfg (mt.update s.mt t.env m.detections)
    { m with capturedAt := at_ }).zipIdx.filter fun p => t.delivered p.2).map (·.1)], ?_,
    List.rel_append hgroups (.cons ?_ .nil)⟩
  · rw [List.flatten_append, List.flatten_singleton, ← hpublished]
    rfl
  · intro msg hmsg
    obtain ⟨p, hp, rfl⟩ := List.mem_map.mp hmsg
    have hmem := List.fst_mem_of_mem_zipIdx (List.mem_filter.mp hp).1
    obtain ⟨state, -, hstate⟩ := List.mem_map.mp hmem
    exact ⟨state, hstate.symm⟩

section
variable {heard : List (DetectionsFrame F)} {s : TrackerRun F T} {m : DetectionsFrame F}

theorem Heard.status (h : Heard heard s) (t : TrackerTurn E) :
    Heard heard (s.publishStatus mt trackerCfg t) := by
  obtain ⟨hin, hpublished, hfailed⟩ := publishStatus_keeps mt trackerCfg s t
  obtain ⟨hgood, hmessages, hall, hbad⟩ := h
  constructor
  · rwa [hin]
  · rwa [hin, hpublished]
  · rwa [hin, hfailed]
  · rwa [hin, hfailed]

omit [F32 F] in
theorem Heard.onFrame (h : Heard heard s) (hfailed : s.failed = false) (hm : AllFinite m)
    (t : TrackerTurn E) (at_ : DateTime) :
    Heard (heard ++ [m]) (s.onFrame mt trackerCfg t { m with capturedAt := at_ }) := by
  obtain ⟨hgood, hmessages, hall, -⟩ := h
  have hmore : (heard ++ [m]).length = s.framesIn + 1 := by
    rw [List.length_append, List.length_singleton, hall hfailed]
  have htake : (heard ++ [m]).take (s.framesIn + 1) = heard ++ [m] :=
    List.take_of_length_le hmore.le
  rw [List.take_of_length_le (hall hfailed).le] at hgood hmessages
  constructor
  case good =>
    change ∀ m' ∈ (heard ++ [m]).take (s.framesIn + 1), _
    rw [htake]
    exact List.forall_mem_append.mpr ⟨hgood, by simpa using hm⟩
  case messages =>
    change MessagesOf ((heard ++ [m]).take (s.framesIn + 1)) _
    rw [htake]
    exact hmessages.onFrame t m at_
  case all => exact fun _ => hmore
  case bad => exact fun hf => absurd (hfailed.symm.trans hf) Bool.false_ne_true

omit [F32 F] in
theorem Heard.refused (h : Heard heard s) (hfailed : s.failed = false) (hm : ¬ AllFinite m) :
    Heard (heard ++ [m]) { s with failed := true } := by
  have hlen := h.all hfailed
  have htake : (heard ++ [m]).take s.framesIn = heard.take s.framesIn :=
    List.take_append_of_le_length hlen.ge
  have hdrop : (heard ++ [m]).drop s.framesIn = [m] := by
    rw [← hlen, List.drop_left]
  constructor
  case good => simpa only [htake] using h.good
  case messages => simpa only [htake] using h.messages
  case all => exact fun hf => absurd hf.symm Bool.false_ne_true
  case bad => exact fun _ => ⟨m, hdrop, hm⟩

end

/-- A turn takes the first event that waits. -/
theorem heard_turn {s s' : Fed (fun _ : Unit => Bytes) (TrackerRun F T)} {t : TrackerTurn E}
    {heard waiting : List (DetectionsFrame F)} (hheard : Heard heard s.state)
    (hq : s.queue () = waiting.map (payload rfc))
    (h : ((trackerLoop mt trackerCfg).machine (decodeFrame rfc)).step s (.turn t) = some s') :
    s'.queue () = (waiting.drop 1).map (payload rfc) ∧
      Heard (heard ++ waiting.take 1) s'.state := by
  obtain ⟨st, hst, rfl⟩ := Option.map_eq_some_iff.mp h
  simp only [trackerLoop, TrackerRun.turn, Consumer.got, Consumer.left, hq] at hst ⊢
  split at hst
  case isTrue => cases hst
  case isFalse hgoes =>
    have hfailed : s.state.failed = false := by
      cases hf : s.state.failed with
      | false => rfl
      | true => simp [hf] at hgoes
    cases waiting with
    | nil =>
      cases hst
      rw [List.take_nil, List.append_nil]
      exact ⟨rfl, hheard.status t⟩
    | cons m rest =>
      rw [List.take_succ_cons, List.take_zero]
      by_cases hm : AllFinite m
      · simp only [drain, List.map_cons, Option.getD_some, drainUpTo, decodeFrame_finite hm,
          Option.some.injEq] at hst ⊢
        obtain rfl := hst
        exact ⟨rfl, (hheard.onFrame hfailed hm t _).status t⟩
      · simp only [drain, List.map_cons, Option.getD_some, drainUpTo, decodeFrame_not_finite hm,
          if_true, Option.some.injEq] at hst ⊢
        obtain rfl := hst
        exact ⟨rfl, hheard.refused hfailed hm⟩

namespace Chain

/-- What was published came to the tracker, which took the first of it, or is on its way, or was
lost. -/
structure Told (rfc : Rfc3339) (cfg : DetectorConfig) (env : Surroundings F) (c : CheckedConfig)
    (producerPid pid : ℕ) (t : Chain F T) : Prop where
  kept : Detecting.Kept cfg env c producerPid pid t.detector
  heard : ∃ heard waiting, t.wire.Carries t.detector.view.events (heard ++ waiting) ∧
    t.tracker.queue () = waiting.map (payload rfc) ∧ Heard heard t.tracker.state

theorem told_step {t t' : Chain F T} {e : ChainEvent E}
    (h : Told rfc cfg env c producerPid pid t) (hcall : Calling cfg env c producerPid pid t e)
    (hs : (machine rfc mt trackerCfg cfg env c producerPid pid).step t e = some t') :
    Told rfc cfg env c producerPid pid t' := by
  obtain ⟨heard, waiting, hcarries, hqueue, hheard⟩ := h.heard
  cases e with
  | ring e =>
    obtain ⟨detector, hdetector, rfl⟩ := Option.map_eq_some_iff.mp hs
    obtain ⟨news, hnews⟩ := Detecting.events_grow hdetector
    have hput := hcarries.put news
    refine ⟨Detecting.kept_step h.kept hcall hdetector, heard, waiting, ?_, hqueue, hheard⟩
    dsimp only
    rw [← hnews, List.drop_left]
    exact hput
  | deliver =>
    obtain ⟨⟨m, wire⟩, hwire, hs⟩ := Option.bind_eq_some_iff.mp hs
    obtain ⟨tracker, htracker, rfl⟩ := Option.map_eq_some_iff.mp hs
    obtain rfl := Option.some.inj htracker
    refine ⟨h.kept, heard, waiting ++ [m], ?_, ?_, hheard⟩
    · rw [← List.append_assoc]
      exact hcarries.deliver hwire
    · simp [enqueue, hqueue]
  | lose i =>
    obtain ⟨wire, hwire, rfl⟩ := Option.map_eq_some_iff.mp hs
    exact ⟨h.kept, heard, waiting, hcarries.lose hwire, hqueue, hheard⟩
  | turn turn =>
    obtain ⟨tracker, htracker, rfl⟩ := Option.map_eq_some_iff.mp hs
    obtain ⟨hwaiting, htaken⟩ := heard_turn hheard hqueue htracker
    refine ⟨h.kept, heard ++ waiting.take 1, waiting.drop 1, ?_, hwaiting, htaken⟩
    rw [List.append_assoc, List.take_append_drop]
    exact hcarries

theorem told_reachable {t : Chain F T}
    (h : (machine rfc mt trackerCfg cfg env c producerPid pid).ReachableBy
      (Calling cfg env c producerPid pid) t) : Told rfc cfg env c producerPid pid t := by
  refine h.invariant ?_ fun t e t' _ ht hcall hs => told_step ht hcall hs
  rintro ⟨detector, wire, tracker⟩ ⟨hinit, hwire, hqueue, hin, hpublished, hfailed⟩
  have hkept := Detecting.kept_reachable (.init hinit)
  obtain ⟨state, view⟩ := detector
  obtain ⟨-, rfl⟩ := hinit
  obtain rfl := hwire
  refine ⟨hkept, [], [], Wire.carries_empty, ?_, ?_⟩
  · exact congrFun hqueue ()
  · refine ⟨?_, ?_, fun _ => hin.symm, fun hf => ?_⟩
    · exact fun _ hm => absurd hm (by simp)
    · rw [hpublished, List.take_nil]
      exact ⟨[], rfl, .nil⟩
    · exact absurd (hfailed.symm.trans hf) Bool.false_ne_true

end Chain

omit [JsonFloat F] [F32 F] in
theorem MessagesOf.mem {good : List (DetectionsFrame F)} {published : List (TrackMsg F)}
    (h : MessagesOf good published) {msg : TrackMsg F} (hmsg : msg ∈ published) :
    ∃ m ∈ good, ∃ state, msg = trackMsg m.frameSeq m.detections state := by
  obtain ⟨groups, rfl, hgroups⟩ := h
  induction hgroups with
  | nil => exact absurd hmsg List.not_mem_nil
  | cons hgroup _ ih =>
    rw [List.flatten_cons] at hmsg
    rcases List.mem_append.mp hmsg with hmsg | hmsg
    · exact ⟨_, List.mem_cons_self, hgroup msg hmsg⟩
    · obtain ⟨m, hm, hstate⟩ := ih hmsg
      exact ⟨m, List.mem_cons_of_mem _ hm, hstate⟩

omit [JsonFloat F] [F32 F] in
theorem MessagesOf.inOrder {good : List (DetectionsFrame F)} {published : List (TrackMsg F)}
    (h : MessagesOf good published)
    (horder : good.Pairwise (·.frameSeq.toNat < ·.frameSeq.toNat)) :
    published.Pairwise (·.frameSeq.toNat ≤ ·.frameSeq.toNat) := by
  obtain ⟨groups, rfl, hgroups⟩ := h
  induction hgroups with
  | nil => exact .nil
  | @cons m group good groups hgroup hrest ih =>
    obtain ⟨hfirst, horder⟩ := List.pairwise_cons.mp horder
    rw [List.flatten_cons, List.pairwise_append]
    refine ⟨?_, ih horder, fun msg hmsg msg' hmsg' => ?_⟩
    · refine List.Pairwise.imp_of_mem (fun hmsg hmsg' _ => ?_) (List.pairwise_of_forall fun _ _ => trivial)
      obtain ⟨state, rfl⟩ := hgroup _ hmsg
      obtain ⟨state', rfl⟩ := hgroup _ hmsg'
      exact le_refl _
    · obtain ⟨state, rfl⟩ := hgroup msg hmsg
      obtain ⟨m', hm', state', rfl⟩ := MessagesOf.mem ⟨groups, rfl, hrest⟩ hmsg'
      exact (hfirst m' hm').le

omit [JsonFloat F] [PartialCmp F] [F32 F] in
theorem Detecting.Follows.all_events {calls : List Publication} {d : Detecting F}
    (h : d.Follows cfg env c calls) :
    d.events.Pairwise (·.frameSeq.toNat < ·.frameSeq.toNat) ∧
      ∀ m ∈ d.events, ∃ p ∈ calls, Shows cfg env c p m := by
  cases hphase : d.phase with
  | looping s =>
    simp only [Detecting.events, hphase]
    exact h.events hphase
  | waiting | refused => simp [Detecting.events, hphase]
  | failed s =>
    unfold Follows at h
    rw [hphase] at h
    exact h.elim

/-- What became of the events on their way to the tracker. It took these, of which the first
`framesIn` made messages, and the others of them wait. -/
structure Chain.Passed (rfc : Rfc3339) (t : Chain F T) (taken waiting : List (DetectionsFrame F)) :
    Prop where
  carried : t.wire.Carries t.detector.view.events (taken ++ waiting)
  waiting : t.tracker.queue () = waiting.map (payload rfc)
  messages : MessagesOf (taken.take t.tracker.state.framesIn) t.tracker.state.published
  all : t.tracker.state.failed = false → taken.length = t.tracker.state.framesIn
  bad : t.tracker.state.failed = true →
    ∃ m, taken.drop t.tracker.state.framesIn = [m] ∧ ¬ AllFinite m

section
omit [F32 F]
variable {t : Chain F T} (h : Chain.Told rfc cfg env c producerPid pid t)
include h

theorem Chain.Told.passed : ∃ taken waiting, t.Passed rfc taken waiting := by
  obtain ⟨heard, waiting, hcarries, hqueue, hheard⟩ := h.heard
  exact ⟨heard, waiting, hcarries, hqueue, hheard.messages, hheard.all, hheard.bad⟩

/-- The events that the tracker took are among those of the detector, in their order. -/
theorem Chain.Told.taken_sublist : ∃ taken : List (DetectionsFrame F),
    taken.Sublist t.detector.view.events ∧ MessagesOf taken t.tracker.state.published := by
  obtain ⟨taken, waiting, hpassed⟩ := h.passed
  refine ⟨taken.take t.tracker.state.framesIn, ?_, hpassed.messages⟩
  have hcame := hpassed.carried.inOrder
  rw [List.append_assoc] at hcame
  exact ((List.take_sublist _ _).trans (List.sublist_append_left _ _)).trans hcame

theorem Chain.Told.inOrder :
    t.tracker.state.published.Pairwise (·.frameSeq.toNat ≤ ·.frameSeq.toNat) := by
  obtain ⟨taken, hamong, hmessages⟩ := h.taken_sublist
  exact hmessages.inOrder (h.kept.follows.all_events.1.sublist hamong)

theorem Chain.Told.shown {msg : TrackMsg F} (hmsg : msg ∈ t.tracker.state.published) :
    ∃ p ∈ t.detector.state.calls, ∃ m ∈ t.detector.view.events, Detecting.Shows cfg env c p m ∧
      ∃ state, msg = trackMsg m.frameSeq m.detections state := by
  obtain ⟨taken, hamong, hmessages⟩ := h.taken_sublist
  obtain ⟨m, hm, hstate⟩ := hmessages.mem hmsg
  obtain ⟨p, hp, hshows⟩ := h.kept.follows.all_events.2 m (hamong.subset hm)
  exact ⟨p, hp, m, hamong.subset hm, hshows, hstate⟩

end

/-- From the camera's ring to `at/tracks`, in every interleaving of all processes: the messages of
the tracker are in the order of the frames, each is of a frame that was published and built from
what was inferred of it; of the events only those are missing that the bus lost or still has; and
the tracker fails only at a confidence that JSON has no number for. -/
theorem tracks_of_frames {t : Chain F T}
    (h : (Chain.machine rfc mt trackerCfg cfg env c producerPid pid).ReachableBy
      (Chain.Calling cfg env c producerPid pid) t) :
    t.tracker.state.published.Pairwise (·.frameSeq.toNat ≤ ·.frameSeq.toNat) ∧
    (∀ msg ∈ t.tracker.state.published, ∃ p ∈ t.detector.state.calls,
      ∃ m ∈ t.detector.view.events, Detecting.Shows cfg env c p m ∧
        ∃ state, msg = trackMsg m.frameSeq m.detections state) ∧
    ∃ taken waiting, t.Passed rfc taken waiting := by
  have htold := Chain.told_reachable h
  exact ⟨htold.inOrder, fun _ => htold.shown, htold.passed⟩

end

instance : F32 ZeroOrNan where
  add x y := if x = .zero ∧ y = .zero then .zero else .nan
  sub x y := if x = .zero ∧ y = .zero then .zero else .nan
  mul x y := if x = .zero ∧ y = .zero then .zero else .nan
  div _ _ := .nan
  lt _ _ := False
  decLt _ _ := inferInstanceAs (Decidable False)
  ofRat _ := .zero
  ofNat _ := .zero
  abs x := x
  signum x := x
  toRadians x := x

/-- A tracker with one track, whatever it is given. -/
def oneTrack : MultiTargetTracker ZeroOrNan Unit Unit :=
  ⟨fun tracker _ _ => tracker, fun _ => [⟨7, ⟨0, 0, 1, 1⟩, (.zero, .zero), .zero, 0⟩],
    fun _ _ => true, fun _ => 1⟩

/-- Nothing is detected. -/
def emptySky : Surroundings ZeroOrNan := ⟨.ok (), fun _ => false, fun _ _ => some [], fun _ => true⟩

def chainStart : Chain ZeroOrNan Unit :=
  ⟨⟨.start fun _ => true, ⟨.start, .waiting⟩⟩, .empty,
    ⟨⟨(), 0, 0, 0, 0, 0, 0, 0, [], [], false⟩, noneWaits⟩⟩

def trackerTurn (now : Instant) : TrackerTurn Unit :=
  ⟨now, now, (), fun _ => true, now, now, now, now⟩

/-- Of three events, the first is lost, one is taken and one waits. -/
theorem tracks_of_frames_two : ∃ t : Chain ZeroOrNan Unit,
    t.tracker.state.published.map (·.frameSeq) = [3] ∧ t.wire.lost = 1 ∧
    (t.tracker.queue ()).length = 1 ∧ (∃ taken waiting, t.Passed unaryTimes taken waiting) ∧
    ∀ msg ∈ t.tracker.state.published, ∃ p ∈ t.detector.state.calls,
      ∃ m ∈ t.detector.view.events, Detecting.Shows ⟨.mock, 3⟩ emptySky Ring.tinyConfig p m ∧
        ∃ state, msg = trackMsg m.frameSeq m.detections state := by
  have hrun : ((Chain.machine unaryTimes oneTrack ⟨false, secs 5, none, none⟩ ⟨.mock, 3⟩ emptySky
      Ring.tinyConfig 100 1).exec (Chain.Calling ⟨.mock, 3⟩ emptySky Ring.tinyConfig 100 1) chainStart
      (detectThree.map .ring ++ [.lose 0, .deliver, .turn (trackerTurn 1), .deliver])).map (fun t =>
        (t.tracker.state.published.map (·.frameSeq), t.wire.lost, (t.tracker.queue ()).length)) =
      some ([3], 1, 1) := by
    decide +kernel
  obtain ⟨t, ht, hout⟩ := Option.map_eq_some_iff.mp hrun
  obtain ⟨hseqs, hrest⟩ := Prod.mk.inj hout
  obtain ⟨hlost, hqueue⟩ := Prod.mk.inj hrest
  obtain ⟨-, hmsgs, hpassed⟩ := tracks_of_frames
    (.of_exec (.init ⟨⟨⟨_, rfl, rfl⟩, rfl⟩, rfl, rfl, rfl, rfl, rfl⟩) ht)
  exact ⟨t, hseqs, hlost, hqueue, hpassed, hmsgs⟩

end AutoTargeting.Detector
