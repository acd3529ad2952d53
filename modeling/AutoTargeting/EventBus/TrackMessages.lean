import AutoTargeting.CvInference.Iou
import AutoTargeting.EventBus.BadPayloads
import AutoTargeting.Tracker.Locks

namespace AutoTargeting.EventBus

open Runs
open Control (Instant)
open Tracker (KalmanFilter2D Sightings TargetId)

def BoundingBox.ofNat (b : Control.BoundingBox) : BoundingBox :=
  ⟨.ofNat b.x, .ofNat b.y, .ofNat b.width, .ofNat b.height⟩

def Detection.forTracker (d : Detection ℚ) : Yolo.Detection where
  bbox := d.bbox.toNat
  className := d.className
  classId := d.classId.toNat
  confidence := d.confidence
  frameSeq := d.frameSeq.toNat
  detectedAt := d.detectedAt.nanos.toNat

/-- The multi-target tracker, with the filters of its tracks beside them. -/
structure FilteredTracker where
  tracker : Tracker.MultiTargetTracker
  filters : TargetId → KalmanFilter2D ℚ

namespace FilteredTracker

variable (fl : ℚ → ℚ)

/-- The filter of a track after an update: a new one, or after `update_from_bbox`, or after
`predict`. -/
def filterAfter (detections : List Yolo.Detection) (report : Tracker.Report)
    (filters : TargetId → KalmanFilter2D ℚ) (id : TargetId) : KalmanFilter2D ℚ :=
  match (report.createdFrom? id).bind (detections[·]?) with
  | some d => .new (Tracker.center fl d.bbox).1 (Tracker.center fl d.bbox).2
  | none =>
    match (report.matchedTo? id).bind (detections[·]?) with
    | some d => (filters id).updateFromBbox fl d.bbox (fl (1 / 30))
    | none => (filters id).predict fl (fl (1 / 30))

def update (s : FilteredTracker) (env : Tracker.Env) (detections : List (Detection ℚ)) :
    FilteredTracker :=
  let detections := detections.map Detection.forTracker
  match s.tracker.update fl detections env with
  | some (tracker, report) => ⟨tracker, filterAfter fl detections report s.filters⟩
  | none => s

def toState (s : FilteredTracker) (t : Tracker.Track) : TargetState ℚ where
  id := .ofNat t.id
  bbox := .ofNat t.lastBbox
  velocity := (s.filters t.id).velocity
  confidence := t.confidence
  missedFrames := .ofNat t.missedFrames

/-- The tracker in the loop; its map iterates in the order of the list. -/
def methods : MultiTargetTracker ℚ FilteredTracker Tracker.Env where
  update := update fl
  activeTracks s := s.tracker.tracks.entries.map s.toState
  isLocked s id := s.tracker.isLocked id.toNat
  trackCount s := s.tracker.tracks.size

/-- The tracker that `Tracker::run` makes. -/
def new (maxTargetAgeMs maxMissedFrames : ℕ) (matchIouThreshold : ℚ) : FilteredTracker :=
  ⟨.new maxTargetAgeMs maxMissedFrames matchIouThreshold true 64, fun _ => .new 0 0⟩

end FilteredTracker

def TrackerRun.start (mt : FilteredTracker) (now : Instant) : TrackerRun ℚ FilteredTracker :=
  ⟨mt, 0, 0, now, 0, now, now, now, [], [], false⟩

/-- A turn of the loop with what `recv_timeout` got. -/
abbrev TrackerEvent := TrackerTurn Tracker.Env × Drained (DetectionsFrame ℚ)

/-- The turns of the loop; `Tracker::new` checks the threshold. -/
def trackerMachine (fl : ℚ → ℚ) (cfg : TrackerConfig) :
    Machine (TrackerRun ℚ FilteredTracker) TrackerEvent where
  Init s := ∃ maxTargetAgeMs maxMissedFrames matchIouThreshold now,
    0 ≤ matchIouThreshold ∧ matchIouThreshold ≤ 1 ∧
    s = .start (.new maxTargetAgeMs maxMissedFrames matchIouThreshold) now
  step s e := s.turn (FilteredTracker.methods fl) cfg e.1 e.2

/-- A message with its frame, and with the sightings of its track up to this frame. -/
structure Sent where
  msg : TrackMsg ℚ
  frame : DetectionsFrame ℚ
  seen : Sightings

/-- The sightings of the tracks, and the messages so far. -/
structure TrackLog where
  seen : TargetId → Sightings
  sent : List Sent

def takenMsgs (fl : ℚ → ℚ) (cfg : TrackerConfig) (s : TrackerRun ℚ FilteredTracker)
    (t : TrackerTurn Tracker.Env) (frame : DetectionsFrame ℚ) : List (TrackMsg ℚ) :=
  ((TrackerRun.trackMsgs (FilteredTracker.methods fl) cfg (s.mt.update fl t.env frame.detections)
    frame).zipIdx.filter fun p => t.delivered p.2).map (·.1)

def TrackLog.see (fl : ℚ → ℚ) (cfg : TrackerConfig) (s : TrackerRun ℚ FilteredTracker)
    (e : TrackerEvent) (log : TrackLog) : TrackLog :=
  match e.2.messages with
  | [] => log
  | frame :: _ =>
    let seen := Tracker.Call.see fl s.mt.tracker
      (.update (frame.detections.map Detection.forTracker) e.1.env) log.seen
    ⟨seen, log.sent ++ (takenMsgs fl cfg s e.1 frame).map fun m => ⟨m, frame, seen m.trackId.toNat⟩⟩

def trackerLog (fl : ℚ → ℚ) (cfg : TrackerConfig) :
    Machine (Observed (TrackerRun ℚ FilteredTracker) TrackLog) TrackerEvent :=
  (trackerMachine fl cfg).observed ⟨fun _ => [], []⟩ (TrackLog.see fl cfg)

/-- What `TrackMsg` promises: the class and the confidence of the detection last matched, the age
of the track in frames, and the frames since its last match. -/
def Describes (m : TrackMsg ℚ) (h : Sightings) : Prop :=
  ∃ d, h.last? = some d ∧ m.className = d.className ∧ m.classId.toNat = d.classId ∧
    m.confidence = d.confidence ∧ m.age.toNat + 1 = h.length ∧
    m.misses.toNat = Streaks.misses h.matches?

/-- The most confident detection of the frame has the class of the one last matched, which has
the class id 0; and the track was missed ever since it was created, at most `u32::MAX` times. -/
def Fitting (frame : DetectionsFrame ℚ) (h : Sightings) : Prop :=
  ∃ d n, h = some d :: List.replicate n none ∧ n < 2 ^ 32 ∧ d.classId = 0 ∧
    ((maxByConfidence frame.detections).map (·.className)).getD "" = d.className

section
variable {fl : ℚ → ℚ} {cfg : TrackerConfig} {h : Sightings} {t : Tracker.Track}

theorem replicate_none_iff {rest : Sightings} :
    Sightings.matches? rest = List.replicate rest.length false ↔
      rest = List.replicate rest.length none := by
  simp only [Sightings.matches?, List.eq_replicate_iff, List.length_map, true_and, List.mem_map,
    forall_exists_index, and_imp, forall_apply_eq_imp_iff₂, Option.isSome_eq_false_iff,
    Option.isNone_iff_eq_none]

/-- Of a track that is what its sightings say, the message is right where it fits. -/
theorem describes_iff (hs : Tracker.Sighted h t) (s : FilteredTracker) (frame : DetectionsFrame ℚ) :
    Describes (trackMsg frame.frameSeq frame.detections (s.toState t)) h ↔ Fitting frame h := by
  obtain ⟨first, rest, rfl⟩ := hs.created
  obtain ⟨d, hlast, hconfidence, -⟩ := hs.last
  have hmisses : (UInt32.ofNat t.missedFrames).toNat = t.missedFrames := by
    rw [UInt32.toNat_ofNat', hs.missed]
    omega
  have hlen : (Sightings.matches? rest).length = rest.length := List.length_map _
  have hcons : Sightings.matches? (some first :: rest) = true :: Sightings.matches? rest := rfl
  have hle := Streaks.misses_cons_le (Sightings.matches? rest)
  have hmissed := hs.missed
  rw [hcons] at hmissed
  -- `age` and `misses` both carry the missed frames, so that both are right only if all are missed
  have hage : t.missedFrames = rest.length ∧
      t.missedFrames = Streaks.misses (true :: Sightings.matches? rest) ↔
      rest = List.replicate rest.length none ∧ rest.length < 2 ^ 32 := by
    rw [← replicate_none_iff, ← hlen, ← Streaks.misses_cons_eq_iff]
    omega
  unfold Describes Fitting
  simp only [trackMsg, FilteredTracker.toState, hmisses, hcons, hlast, Option.some.injEq,
    List.length_cons, Nat.add_right_cancel_iff]
  constructor
  · rintro ⟨_, rfl, hclass, hid, -, hsame, hcount⟩
    obtain ⟨hrest, hlt⟩ := hage.mp ⟨hsame, hcount⟩
    have hfirst : d = first := by
      rw [hrest] at hlast
      simpa [Sightings.last?] using hlast.symm
    exact ⟨d, rest.length, by rw [hfirst, ← hrest], hlt, hid.symm, hclass⟩
  · rintro ⟨d', n, hh, hn, hid, hclass⟩
    obtain ⟨hd', hrest⟩ := List.cons.inj hh
    have hrestlen : rest.length = n := by rw [hrest, List.length_replicate]
    obtain ⟨hsame, hcount⟩ := hage.mpr ⟨hrestlen ▸ hrest, hrestlen ▸ hn⟩
    have hfirst : d = d' := by
      rw [hrest] at hlast
      rw [← Option.some.inj hd']
      simpa [Sightings.last?] using hlast.symm
    exact ⟨d, rfl, hfirst ▸ hclass, hfirst ▸ hid.symm, hconfidence, hsame, hcount⟩

theorem TrackerRun.publishStatus_mt (s : TrackerRun ℚ FilteredTracker)
    (turn : TrackerTurn Tracker.Env) :
    (s.publishStatus (FilteredTracker.methods fl) cfg turn).mt = s.mt := by
  unfold publishStatus
  split <;> rfl

theorem TrackerRun.publishStatus_published (s : TrackerRun ℚ FilteredTracker)
    (turn : TrackerTurn Tracker.Env) :
    (s.publishStatus (FilteredTracker.methods fl) cfg turn).published = s.published := by
  unfold publishStatus
  split <;> rfl

/-- The tracks are what their sightings say, and each message is right where it fits. -/
structure LogLaw (t : Observed (TrackerRun ℚ FilteredTracker) TrackLog) : Prop where
  sighted : Tracker.AllSighted ⟨t.state.mt.tracker, t.view.seen⟩
  sent : t.view.sent.map (·.msg) = t.state.published
  right : ∀ m ∈ t.view.sent, Describes m.msg m.seen ↔ Fitting m.frame m.seen

/-- An update of the loop is one of the tracker, as `Tracker.sighting` sees it. -/
theorem sighting_step {s : FilteredTracker} {seen : TargetId → Sightings}
    (hid : s.tracker.nextId < 2 ^ 64) (env : Tracker.Env) (detections : List (Detection ℚ)) :
    (Tracker.sighting fl).step ⟨s.tracker, seen⟩
        (.update (detections.map Detection.forTracker) env) =
      some ⟨(s.update fl env detections).tracker,
        Tracker.Call.see fl s.tracker (.update (detections.map Detection.forTracker) env) seen⟩ := by
  obtain ⟨s', report, hupdate, -⟩ :=
    Tracker.update_law fl hid (detections.map Detection.forTracker) env
  have hafter : (s.update fl env detections).tracker = s' := by
    simp only [FilteredTracker.update, hupdate]
  rw [hafter]
  simp [Tracker.sighting, Machine.observed, Tracker.Call.machine, Tracker.Call.step, hupdate]

/-- A message of a frame is that of an active track after the update. -/
theorem mem_takenMsgs {s : TrackerRun ℚ FilteredTracker} {turn : TrackerTurn Tracker.Env}
    {frame : DetectionsFrame ℚ} {m : TrackMsg ℚ} (hm : m ∈ takenMsgs fl cfg s turn frame) :
    ∃ t ∈ (s.mt.update fl turn.env frame.detections).tracker.tracks.entries,
      m = trackMsg frame.frameSeq frame.detections
        ((s.mt.update fl turn.env frame.detections).toState t) := by
  obtain ⟨⟨m, i⟩, hp, rfl⟩ := List.mem_map.mp hm
  have hat := List.mk_mem_zipIdx_iff_getElem?.mp (List.mem_filter.mp hp).1
  obtain ⟨state, hstate, rfl⟩ := List.mem_map.mp (List.mem_of_getElem? hat)
  obtain ⟨t, ht, rfl⟩ := List.mem_map.mp (List.mem_filter.mp hstate).1
  exact ⟨t, ht, rfl⟩

/-- The message of an active track goes into the log with the sightings of that track. -/
theorem LogLaw.right_of_frame {s : FilteredTracker} {seen : TargetId → Sightings}
    (hs : Tracker.AllSighted ⟨s.tracker, seen⟩) {t : Tracker.Track}
    (ht : t ∈ s.tracker.tracks.entries) (frame : DetectionsFrame ℚ) :
    let m := trackMsg frame.frameSeq frame.detections (s.toState t)
    Describes m (seen m.trackId.toNat) ↔ Fitting frame (seen m.trackId.toNat) := by
  have hid : (UInt64.ofNat t.id).toNat = t.id := UInt64.toNat_ofNat_of_lt' (hs.id_lt t ht)
  simp only [trackMsg, FilteredTracker.toState, hid]
  exact describes_iff (hs.sighted t ht) s frame

theorem LogLaw.step {t t' : Observed (TrackerRun ℚ FilteredTracker) TrackLog} {e : TrackerEvent}
    (hl : LogLaw t) (hstep : (trackerLog fl cfg).step t e = some t') : LogLaw t' := by
  obtain ⟨s', hs', rfl⟩ := Machine.observed_step hstep
  simp only [trackerMachine, TrackerRun.turn] at hs'
  split at hs'
  · cases hs'
  cases hmessages : e.2.messages with
  | nil =>
    rw [hmessages] at hs'
    have hsee : TrackLog.see fl cfg t.state e t.view = t.view := by rw [TrackLog.see, hmessages]
    rw [hsee]
    dsimp only at hs'
    split at hs'
    · cases hs'
      exact ⟨hl.sighted, hl.sent, hl.right⟩
    · cases hs'
      refine ⟨?_, ?_, hl.right⟩
      · rw [TrackerRun.publishStatus_mt]
        exact hl.sighted
      · rw [TrackerRun.publishStatus_published]
        exact hl.sent
  | cons frame rest =>
    rw [hmessages] at hs'
    cases hs'
    -- the update of the loop is a step of the tracker
    have hsighted : Tracker.AllSighted ⟨(t.state.mt.update fl e.1.env frame.detections).tracker, _⟩ :=
      hl.sighted.step (sighting_step hl.sighted.nextId_lt e.1.env frame.detections)
    refine ⟨?_, ?_, ?_⟩
    · rw [TrackerRun.publishStatus_mt, TrackLog.see, hmessages]
      exact hsighted
    · rw [TrackerRun.publishStatus_published, TrackLog.see, hmessages]
      simp only [List.map_append, hl.sent, List.map_map]
      exact congrArg _ (List.map_id _)
    · rw [TrackLog.see, hmessages]
      intro m hm
      rcases List.mem_append.mp hm with hold | hnew
      · exact hl.right m hold
      · obtain ⟨msg, hmsg, rfl⟩ := List.mem_map.mp hnew
        obtain ⟨track, htrack, rfl⟩ := mem_takenMsgs hmsg
        exact LogLaw.right_of_frame hsighted htrack frame

theorem logLaw {t : Observed (TrackerRun ℚ FilteredTracker) TrackLog}
    (h : (trackerLog fl cfg).Reachable t) : LogLaw t := by
  apply h.invariant
  · rintro ⟨s, log⟩ ⟨⟨maxTargetAgeMs, maxMissedFrames, threshold, now, -, -, rfl⟩, rfl⟩
    have hnew : (Tracker.sighting fl).Reachable
        ⟨.new maxTargetAgeMs maxMissedFrames threshold true 64, fun _ => []⟩ :=
      .init ⟨⟨_, _, _, _, _, rfl⟩, rfl⟩
    exact ⟨Tracker.allSighted hnew, rfl, fun m hm => absurd hm List.not_mem_nil⟩
  · exact fun t e t' _ hl _ hs => hl.step hs

end

/-- Whatever frames the loop got, a message is right exactly where it fits: the class and the age
are not those of its track. -/
theorem messages_describe_iff (fl : ℚ → ℚ) (cfg : TrackerConfig)
    (t : Observed (TrackerRun ℚ FilteredTracker) TrackLog) (h : (trackerLog fl cfg).Reachable t) :
    t.view.sent.map (·.msg) = t.state.published ∧
      ∀ m ∈ t.view.sent, Describes m.msg m.seen ↔ Fitting m.frame m.seen := by
  have hlaw := logLaw h
  exact ⟨hlaw.sent, hlaw.right⟩

instance (m : TrackMsg ℚ) (h : Sightings) : Decidable (Describes m h) :=
  match hlast : h.last? with
  | none => isFalse fun ⟨d, hd, _⟩ => by simp [hlast] at hd
  | some d =>
    decidable_of_iff (m.className = d.className ∧ m.classId.toNat = d.classId ∧
        m.confidence = d.confidence ∧ m.age.toNat + 1 = h.length ∧
        m.misses.toNat = Streaks.misses h.matches?)
      ⟨fun hd => ⟨d, hlast, hd⟩, fun ⟨d', hd', hd⟩ =>
        Option.some.inj (hlast.symm.trans hd') ▸ hd⟩

def detectionAt (x : UInt32) (className : String) (confidence : ℚ) : Detection ℚ :=
  ⟨⟨x, 0, 10, 10⟩, className, 0, confidence, 0, .unixEpoch⟩

/-- A turn that got a frame with these detections. -/
def frameTurn (detections : List (Detection ℚ)) : TrackerEvent :=
  (⟨0, 0, Tracker.plainEnv, fun _ => true, 0, 0, 0, 0⟩, ⟨[⟨0, .unixEpoch, detections, 640, 480⟩], false⟩)

def loopStart : Observed (TrackerRun ℚ FilteredTracker) TrackLog :=
  ⟨.start (.new 2000 60 (3 / 10)) 0, ⟨fun _ => [], []⟩⟩

theorem loopStart_reachable : (trackerLog id trackerDefault).Reachable loopStart :=
  .init ⟨⟨_, _, _, _, by norm_num, by norm_num, rfl⟩, rfl⟩

/-- A person, missed in the second frame and seen again in the third: only the first message is
right. -/
theorem messages_describe_iff_person : ∃ t, (trackerLog id trackerDefault).Reachable t ∧
    t.view.sent.map (fun m => decide (Describes m.msg m.seen)) = [true, false, false] ∧
    t.view.sent.map (·.msg) = t.state.published ∧
    ∀ m ∈ t.view.sent, Describes m.msg m.seen ↔ Fitting m.frame m.seen := by
  have hrun : ((trackerLog id trackerDefault).exec Machine.Anything loopStart
      [frameTurn [detectionAt 0 "person" (9 / 10)], frameTurn [],
        frameTurn [detectionAt 0 "person" (9 / 10)]]).any (fun t =>
        t.view.sent.map (fun m => decide (Describes m.msg m.seen)) = [true, false, false]) =
          true := by
    decide +kernel
  obtain ⟨t, ht, hsent⟩ := Option.any_eq_true _ _ |>.mp hrun
  have hreach := loopStart_reachable.of_exec ht
  exact ⟨t, hreach, of_decide_eq_true hsent, messages_describe_iff id trackerDefault t hreach⟩

/-- A person and a car in one frame: both messages say "person". -/
theorem car_sent_as_person : ∃ t, (trackerLog id trackerDefault).Reachable t ∧
    ∃ m ∈ t.view.sent, m.msg.className = "person" ∧
      m.seen.last? = some (detectionAt 20 "car" (1 / 2)).forTracker ∧ ¬ Describes m.msg m.seen := by
  have hrun : ((trackerLog id trackerDefault).exec Machine.Anything loopStart
      [frameTurn [detectionAt 0 "person" (9 / 10), detectionAt 20 "car" (1 / 2)]]).any (fun t =>
        t.view.sent.any fun m => decide (m.msg.className = "person" ∧
          m.seen.last? = some (detectionAt 20 "car" (1 / 2)).forTracker ∧
          ¬ Describes m.msg m.seen)) = true := by
    decide +kernel
  obtain ⟨t, ht, hany⟩ := Option.any_eq_true _ _ |>.mp hrun
  obtain ⟨m, hm, hwrong⟩ := List.any_eq_true.mp hany
  exact ⟨t, loopStart_reachable.of_exec ht, m, hm, of_decide_eq_true hwrong⟩

end AutoTargeting.EventBus
