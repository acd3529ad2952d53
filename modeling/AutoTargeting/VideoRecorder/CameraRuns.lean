import AutoTargeting.VideoRecorder.CameraPublisher

namespace AutoTargeting.VideoRecorder

open Runs Control EventBus Detector VideoCapture
open AutoTargeting.Ring (CheckedConfig Publication)

variable {jpeg : JpegDecoder} {n : Configured}

/-- One picture, whenever it was taken. -/
def SamePicture (frame frame' : VideoCapture.Frame) : Prop :=
  frame'.data = frame.data ∧ frame'.metadata.width = frame.metadata.width ∧
    frame'.metadata.height = frame.metadata.height ∧
    frame'.metadata.format = frame.metadata.format

theorem convertPixels_same {source target : PixelFormat} {expectedLen : ℕ → ℕ → ℕ}
    {convert : List UInt8 → ℕ → ℕ → Option (List UInt8)} {frame frame' : VideoCapture.Frame}
    (h : SamePicture frame frame') :
    (convertPixels source target expectedLen convert frame').bind converted =
      (convertPixels source target expectedLen convert frame).bind converted := by
  rcases frame with ⟨data, w, hgt, format, capturedAt, seq⟩
  rcases frame' with ⟨data', w', hgt', format', capturedAt', seq'⟩
  obtain ⟨rfl, rfl, rfl, rfl⟩ := h
  simp only [convertPixels]
  split
  · rfl
  · split
    · rfl
    · cases convert data' w' hgt' <;> rfl

theorem decodeMjpegToNv12_same {frame frame' : VideoCapture.Frame} (h : SamePicture frame frame') :
    (decodeMjpegToNv12 jpeg frame').bind converted =
      (decodeMjpegToNv12 jpeg frame).bind converted := by
  rcases frame with ⟨data, w, hgt, format, capturedAt, seq⟩
  rcases frame' with ⟨data', w', hgt', format', capturedAt', seq'⟩
  obtain ⟨rfl, rfl, rfl, rfl⟩ := h
  simp only [decodeMjpegToNv12, decodeMjpegToRgb]
  by_cases hformat : format' = .mjpeg
  · subst hformat
    cases jpeg.decode data' with
    | error e => rfl
    | ok pixels =>
      cases jpeg.info data' with
      | none => rfl
      | some size => exact convertPixels_same ⟨rfl, rfl, rfl, rfl⟩
  · rw [if_pos hformat, if_pos hformat]

theorem toNv12_same {frame frame' : VideoCapture.Frame} (h : SamePicture frame frame')
    (srcFormat : PixelFormat) :
    (toNv12 jpeg srcFormat frame').bind converted = (toNv12 jpeg srcFormat frame).bind converted := by
  cases srcFormat with
  | yuyv =>
    simp only [toNv12, yuyvToNv12]
    exact convertPixels_same h
  | mjpeg => exact decodeMjpegToNv12_same h
  | nv12 | rgb24 => rfl

/-- What a frame of the camera is converted to depends on its bytes. -/
theorem toNv12_eq_pixels {frame : VideoCapture.Frame} (h : frame.metadata.width = n.width ∧
    frame.metadata.height = n.height ∧ frame.metadata.format = n.format) :
    (toNv12 jpeg n.format frame).bind converted = pixels jpeg n frame.data := by
  have hsame : SamePicture ⟨frame.data, ⟨n.width, n.height, n.format, 0, 0⟩⟩ frame :=
    ⟨rfl, h.1, h.2.1, h.2.2⟩
  exact toNv12_same hsame n.format

/-- The frame that the loop took last, if it was neither published, dropped nor counted. -/
def PublisherPc.lost : PublisherPc → ℕ
  | .broke | .panicked => 1
  | .top | .publishing | .left => 0

namespace Pipeline

section
variable {F T E : Type} [JsonFloat F] [PartialCmp F] [F32 F] {rfc : Rfc3339}
  {mt : MultiTargetTracker F T E} {trackerCfg : TrackerConfig} {cfg : DetectorConfig}
  {env : Surroundings F} {c : CheckedConfig} {producerPid pid : ℕ}

/-- The camera and the chain run as they do alone, and all that is offered to the ring are pictures
of the camera. -/
structure Feeds (rfc : Rfc3339) (mt : MultiTargetTracker F T E) (trackerCfg : TrackerConfig)
    (cfg : DetectorConfig) (env : Surroundings F) (c : CheckedConfig) (producerPid pid : ℕ)
    (jpeg : JpegDecoder) (n : Configured) (camera : Logged Capture (List UInt8))
    (publisher : CameraPublisher) (chain : Chain F T) : Prop where
  shots : (Capture.machine n 4).Reachable camera
  chained : (Chain.machine rfc mt trackerCfg cfg env c producerPid pid).ReachableBy
    (Chain.Calling cfg env c producerPid pid) chain
  offered : chain.detector.state.offered.Sublist (camera.state.channel.received.filterMap
    fun frame => (toNv12 jpeg n.format frame).bind converted)
  counts : camera.state.channel.received.length < 2 ^ 64 →
    camera.state.channel.received.length =
      chain.detector.state.accounted + publisher.convertErrors + publisher.pc.lost
  busy : chain.detector.state.producer ≠ .idle → publisher.pc = .publishing

variable {camera camera' : Logged Capture (List UInt8)} {publisher publisher' : CameraPublisher}
  {chain chain' : Chain F T}

theorem chain_ring {e : Ring.Event}
    (hs : (Chain.machine rfc mt trackerCfg cfg env c producerPid pid).step chain (.ring e) =
      some chain') :
    chain.detector.state.step c producerPid e = some chain'.detector.state := by
  obtain ⟨detector, hdetector, rfl⟩ := Option.map_eq_some_iff.mp hs
  obtain ⟨ring, hring, rfl⟩ := Machine.observed_step hdetector
  exact hring

/-- What happens behind the detector does not touch it. -/
theorem chain_behind {e : ChainEvent E} (he : ∀ e', e ≠ .ring e')
    (hs : (Chain.machine rfc mt trackerCfg cfg env c producerPid pid).step chain e =
      some chain') : chain'.detector = chain.detector := by
  cases e with
  | ring e => exact absurd rfl (he e)
  | deliver =>
    obtain ⟨r, -, hs⟩ := Option.bind_eq_some_iff.mp hs
    obtain ⟨tracker, -, rfl⟩ := Option.map_eq_some_iff.mp hs
    rfl
  | lose i =>
    obtain ⟨wire, -, rfl⟩ := Option.map_eq_some_iff.mp hs
    rfl
  | turn t =>
    obtain ⟨tracker, -, rfl⟩ := Option.map_eq_some_iff.mp hs
    rfl

omit [JsonFloat F] [PartialCmp F] [F32 F] in
theorem calling_publish (chain : Chain F T) (data : List UInt8) (tsNs : ℕ) :
    Chain.Calling (E := E) cfg env c producerPid pid chain (.ring (.publish data tsNs)) :=
  ⟨⟨⟨by simp [Ring.ProducerLives], trivial⟩, by simp⟩, by simp⟩

/-- The driver, the thread, or the end of the source. -/
theorem feeds_capture
    (h : Feeds rfc mt trackerCfg cfg env c producerPid pid jpeg n camera publisher chain)
    {e : CaptureEvent} (he : e ≠ .receive)
    (hs : (Capture.machine n 4).step camera e = some camera') :
    Feeds rfc mt trackerCfg cfg env c producerPid pid jpeg n camera' publisher chain := by
  obtain ⟨state, hstate, rfl⟩ := Machine.logged_step hs
  have hreceived := (Capture.channel_step hstate).2 he
  refine ⟨.step h.shots trivial hs, h.chained, ?_, ?_, h.busy⟩
  · rw [hreceived]
    exact h.offered
  · rw [hreceived]
    exact h.counts

theorem received_receive {frame : VideoCapture.Frame} {rest : List VideoCapture.Frame}
    (hwaiting : camera.state.channel.waiting = frame :: rest)
    (hs : (Capture.machine n 4).step camera .receive = some camera') :
    camera'.state.channel.received = camera.state.channel.received ++ [frame] := by
  obtain ⟨state, hstate, rfl⟩ := Machine.logged_step hs
  change (camera.state.channel.recv).map _ = some state at hstate
  rw [BoundedChannel.recv, hwaiting] at hstate
  cases hstate
  rfl

/-- The loop has a frame, and nothing of it comes to the ring. -/
theorem feeds_unpublished
    (h : Feeds rfc mt trackerCfg cfg env c producerPid pid jpeg n camera publisher chain)
    (htop : publisher.pc = .top) {frame : VideoCapture.Frame}
    (hshots : (Capture.machine n 4).Reachable camera')
    (hreceived : camera'.state.channel.received = camera.state.channel.received ++ [frame])
    (hcounted : publisher'.convertErrors + publisher'.pc.lost = publisher.convertErrors + 1) :
    Feeds rfc mt trackerCfg cfg env c producerPid pid jpeg n camera' publisher' chain := by
  have hcounts := h.counts
  refine ⟨hshots, h.chained, ?_, fun hlt => ?_, fun hbusy => ?_⟩
  · rw [hreceived, List.filterMap_append]
    exact h.offered.trans (List.sublist_append_left _ _)
  · rw [hreceived, List.length_append, List.length_singleton] at hlt ⊢
    have hsame := hcounts (Nat.lt_of_succ_lt hlt)
    rw [htop] at hsame
    simp only [PublisherPc.lost] at hsame
    omega
  · cases htop.symm.trans (h.busy hbusy)

/-- The loop has a frame, and `publish` takes its picture. -/
theorem feeds_published
    (h : Feeds rfc mt trackerCfg cfg env c producerPid pid jpeg n camera publisher chain)
    (htop : publisher.pc = .top) {frame : VideoCapture.Frame} {data : List UInt8} {nowNs : ℕ}
    (hshots : (Capture.machine n 4).Reachable camera')
    (hreceived : camera'.state.channel.received = camera.state.channel.received ++ [frame])
    (hdata : (toNv12 jpeg n.format frame).bind converted = some data)
    (hlen : data.length = c.frameSize)
    (hs : (Chain.machine rfc mt trackerCfg cfg env c producerPid pid).step chain
      (.ring (.publish data nowNs)) = some chain') :
    Feeds rfc mt trackerCfg cfg env c producerPid pid jpeg n camera'
      { publisher with pc := .publishing } chain' := by
  have hpublish := chain_ring hs
  have hoffered := Ring.offered_publish hpublish
  have haccounted := Ring.accounted_publish hpublish hlen
  rw [if_pos hlen] at hoffered
  refine ⟨hshots, .step h.chained (calling_publish _ _ _) hs, ?_, fun hlt => ?_, fun _ => rfl⟩
  · rw [hreceived, hoffered, List.filterMap_append]
    refine h.offered.append ?_
    simp [hdata]
  · rw [hreceived, List.length_append, List.length_singleton] at hlt ⊢
    have hsame := h.counts (Nat.lt_of_succ_lt hlt)
    rw [htop] at hsame
    simp only [PublisherPc.lost] at hsame ⊢
    omega

/-- A picture of another size is refused. -/
theorem feeds_refused
    (h : Feeds rfc mt trackerCfg cfg env c producerPid pid jpeg n camera publisher chain)
    {data : List UInt8} {nowNs : ℕ} (hlen : data.length ≠ c.frameSize)
    (hs : (Chain.machine rfc mt trackerCfg cfg env c producerPid pid).step chain
      (.ring (.publish data nowNs)) = some chain') :
    Feeds rfc mt trackerCfg cfg env c producerPid pid jpeg n camera publisher chain' := by
  have hsame := Ring.offered_publish (chain_ring hs)
  rw [if_neg hlen] at hsame
  refine ⟨h.shots, .step h.chained (calling_publish _ _ _) hs, ?_, ?_, ?_⟩
  · rw [hsame]
    exact h.offered
  · rw [hsame]
    exact h.counts
  · rw [hsame]
    exact h.busy

theorem feeds_take {s' : Pipeline F T}
    (h : Feeds rfc mt trackerCfg cfg env c producerPid pid jpeg n camera publisher chain)
    (htop : publisher.pc = .top) {frame : VideoCapture.Frame} {rest : List VideoCapture.Frame}
    (hwaiting : camera.state.channel.waiting = frame :: rest)
    (hcamera : (Capture.machine n 4).step camera .receive = some camera') {nowNs : ℕ}
    (hs : take rfc mt trackerCfg cfg env c producerPid pid jpeg n ⟨camera', publisher, chain⟩
      frame nowNs = some s') :
    Feeds rfc mt trackerCfg cfg env c producerPid pid jpeg n s'.camera s'.publisher s'.chain := by
  have hreceived := received_receive hwaiting hcamera
  have hshots : (Capture.machine n 4).Reachable camera' := .step h.shots trivial hcamera
  unfold take at hs
  cases hnv12 : toNv12 jpeg n.format frame with
  | none =>
    simp only [hnv12] at hs
    cases hs
    exact feeds_unpublished h htop hshots hreceived rfl
  | some r =>
    cases r with
    | error e =>
      simp only [hnv12] at hs
      cases hs
      refine feeds_unpublished h htop hshots hreceived ?_
      simp [htop, PublisherPc.lost]
    | ok nv12 =>
      simp only [hnv12] at hs
      obtain ⟨chain', hchain, rfl⟩ := Option.map_eq_some_iff.mp hs
      by_cases hlen : nv12.data.length = c.frameSize
      · rw [if_pos hlen]
        have hdata : (toNv12 jpeg n.format frame).bind converted = some nv12.data := by
          rw [hnv12]
          rfl
        exact feeds_published h htop hshots hreceived hdata hlen hchain
      · rw [if_neg hlen]
        exact feeds_refused (feeds_unpublished h htop hshots hreceived rfl) hlen hchain

/-- The loop is in `publish` as long as that has not returned. -/
theorem after_producerStep {state state' : Ring.State} (hpublishing : publisher.pc = .publishing)
    (hs : state.step c producerPid .producerStep = some state') :
    (state'.producer ≠ .idle → (publisher.after c state .producerStep).pc = .publishing) ∧
    (publisher.after c state .producerStep).convertErrors = publisher.convertErrors ∧
    (publisher.after c state .producerStep).pc.lost =
      if state.producer.fails c state.region = true then 1 else 0 := by
  cases Ring.step_stepped hs with
  | producerStep hup hbusy =>
    have hidle := Ring.producer_offered c state.region hbusy
    cases hresult : (state.producer.step c state.region).result with
    | none =>
      simp [CameraPublisher.after, Ring.ProducerPc.fails, hresult, hpublishing, PublisherPc.lost]
    | some result =>
      have hover : (state.producer.step c state.region).pc = .idle := by
        rw [hidle, hresult]
        simp
      cases result with
      | error e =>
        simp [CameraPublisher.after, Ring.ProducerPc.fails, Ring.State.afterProducer, hresult,
          hover, PublisherPc.lost]
      | ok published =>
        simp [CameraPublisher.after, Ring.ProducerPc.fails, Ring.State.afterProducer, hresult,
          hover, PublisherPc.lost]

/-- `publish` goes on, or another process does something. -/
theorem feeds_ring
    (h : Feeds rfc mt trackerCfg cfg env c producerPid pid jpeg n camera publisher chain)
    {e : Ring.Event} (he : ∀ data tsNs, e ≠ .publish data tsNs)
    (hcall : Chain.Calling (E := E) cfg env c producerPid pid chain (.ring e))
    (hs : (Chain.machine rfc mt trackerCfg cfg env c producerPid pid).step chain (.ring e) =
      some chain') :
    Feeds rfc mt trackerCfg cfg env c producerPid pid jpeg n camera
      (publisher.after c chain.detector.state e) chain' := by
  have hring := chain_ring hs
  have hoffered := (Ring.offered_step hring he).trans h.offered
  have hchained := h.chained.step hcall hs
  by_cases hproducer : e = .producerStep
  · subst hproducer
    obtain ⟨hbusy, hwaits⟩ := Ring.busy_of_producerStep hring
    have hpublishing := h.busy hbusy
    obtain ⟨hafter, herrors, hlost⟩ := after_producerStep hpublishing hring
    refine ⟨h.shots, hchained, hoffered, fun hlt => ?_, hafter⟩
    have hsame := h.counts hlt
    rw [hpublishing] at hsame
    have hcounts := Ring.accounted_producerStep hring (by omega)
    rw [herrors, hlost, hsame, ← hcounts]
    simp only [PublisherPc.lost]
    omega
  · have hafter : publisher.after c chain.detector.state e = publisher := by
      cases e <;> first | rfl | exact absurd rfl hproducer
    have hpc := (Ring.step_keeps_producer hring hproducer he).1
    rw [hafter]
    refine ⟨h.shots, hchained, hoffered, ?_, ?_⟩
    · rw [Ring.accounted_step hring hproducer he]
      exact h.counts
    · rw [hpc]
      exact h.busy

theorem feeds_behind
    (h : Feeds rfc mt trackerCfg cfg env c producerPid pid jpeg n camera publisher chain)
    {e : ChainEvent E} (he : ∀ e', e ≠ .ring e')
    (hs : (Chain.machine rfc mt trackerCfg cfg env c producerPid pid).step chain e =
      some chain')
    (hcall : Chain.Calling cfg env c producerPid pid chain e) :
    Feeds rfc mt trackerCfg cfg env c producerPid pid jpeg n camera publisher chain' := by
  have hsame := chain_behind he hs
  refine ⟨h.shots, .step h.chained hcall hs, ?_, ?_, ?_⟩
  · rw [hsame]
    exact h.offered
  · rw [hsame]
    exact h.counts
  · rw [hsame]
    exact h.busy

theorem feeds_left
    (h : Feeds rfc mt trackerCfg cfg env c producerPid pid jpeg n camera publisher chain)
    (htop : publisher.pc = .top) :
    Feeds rfc mt trackerCfg cfg env c producerPid pid jpeg n camera { publisher with pc := .left }
      chain := by
  refine ⟨h.shots, h.chained, h.offered, fun hlt => ?_, fun hbusy => ?_⟩
  · have hsame := h.counts hlt
    rw [htop] at hsame
    exact hsame
  · cases htop.symm.trans (h.busy hbusy)

theorem feeds_step {s s' : Pipeline F T} {e : PipelineEvent E}
    (h : Feeds rfc mt trackerCfg cfg env c producerPid pid jpeg n s.camera s.publisher s.chain)
    (hcall : Calling cfg env c producerPid pid s e)
    (hs : (machine rfc mt trackerCfg cfg env c producerPid pid jpeg n).step s e = some s') :
    Feeds rfc mt trackerCfg cfg env c producerPid pid jpeg n s'.camera s'.publisher s'.chain := by
  cases e with
  | capture e =>
    change (if _ then _ else _) = _ at hs
    split at hs
    case isTrue hallows =>
      obtain ⟨camera, hcamera, rfl⟩ := Option.map_eq_some_iff.mp hs
      refine feeds_capture h (fun he => ?_) hcamera
      rw [he] at hallows
      cases hallows
    case isFalse => cases hs
  | turn nowNs =>
    change (if _ then _ else _) = _ at hs
    split at hs
    case isTrue htop =>
      split at hs
      case h_1 frame rest hwaiting =>
        obtain ⟨camera, hcamera, hs⟩ := Option.bind_eq_some_iff.mp hs
        exact feeds_take h htop hwaiting hcamera hs
      case h_2 =>
        split at hs
        case isTrue =>
          cases hs
          exact feeds_left h htop
        case isFalse => cases hs
    case isFalse => cases hs
  | deadline =>
    change (if _ then _ else _) = _ at hs
    split at hs
    case isTrue htop =>
      cases hs
      exact feeds_left h htop
    case isFalse => cases hs
  | chain e =>
    cases e with
    | deliver | lose i | turn t =>
      obtain ⟨chain, hchain, rfl⟩ := Option.map_eq_some_iff.mp hs
      exact feeds_behind h (by simp) hchain hcall
    | ring e =>
      have hnot : ∀ data tsNs, e ≠ .publish data tsNs := by
        intro data tsNs he
        subst he
        cases hs
      have hchained : ((Chain.machine rfc mt trackerCfg cfg env c producerPid pid).step s.chain
          (.ring e)).map (fun chain => { s with
            chain, publisher := s.publisher.after c s.chain.detector.state e }) = some s' := by
        cases e with
        | publish data tsNs => exact absurd rfl (hnot data tsNs)
        | producerStep | call | consumerStep | dropGuard | reap | reaperStep | spawn | die => exact hs
      obtain ⟨chain, hchain, rfl⟩ := Option.map_eq_some_iff.mp hchained
      exact feeds_ring h hnot hcall hchain

theorem feeds_reachable {s : Pipeline F T}
    (h : (machine rfc mt trackerCfg cfg env c producerPid pid jpeg n).ReachableBy
      (Calling cfg env c producerPid pid) s) :
    Feeds rfc mt trackerCfg cfg env c producerPid pid jpeg n s.camera s.publisher s.chain := by
  refine h.invariant (I := fun s => Feeds rfc mt trackerCfg cfg env c producerPid pid jpeg n
    s.camera s.publisher s.chain) ?_ fun s e s' _ hs hcall hstep => feeds_step hs hcall hstep
  rintro ⟨⟨capture, log⟩, publisher, ⟨⟨ring, view⟩, wire, tracker⟩⟩ ⟨hcamera, hpublisher, hchain⟩
  obtain ⟨⟨memory, rfl⟩, rfl⟩ := id hcamera
  obtain ⟨⟨⟨alive, hup, rfl⟩, rfl⟩, -⟩ := id hchain
  cases hpublisher
  exact ⟨.init hcamera, .init hchain, .refl _, fun _ => rfl, fun hbusy => absurd rfl hbusy⟩

/-- The pictures of the camera, from the frames that the loop got of them. -/
theorem received_sublist (h : (Capture.machine n 4).Reachable camera) :
    (camera.state.channel.received.filterMap fun frame =>
      (toNv12 jpeg n.format frame).bind converted).Sublist (camera.log.filterMap (pixels jpeg n)) := by
  obtain ⟨huntorn, -⟩ := Capture.untorn_reachable h
  have hframes : camera.state.channel.received ⊆ camera.state.channel.carried :=
    List.subset_append_left _ _
  have hnumbered : (camera.state.channel.received.map Capture.numbered).Sublist
      (Capture.numberedShots camera.log) := by
    refine List.Sublist.trans ?_ (huntorn.carries.sublist.trans (List.take_sublist _ _))
    rw [BoundedChannel.carried, List.map_append]
    exact List.sublist_append_left _ _
  have hshots := hnumbered.map Prod.fst
  rw [List.map_map, Capture.fst_numberedShots] at hshots
  have hpixels := hshots.filterMap (pixels jpeg n)
  rw [List.filterMap_map] at hpixels
  have hsame : (camera.state.channel.received.filterMap fun frame =>
      (toNv12 jpeg n.format frame).bind converted) =
      camera.state.channel.received.filterMap (pixels jpeg n ∘ Prod.fst ∘ Capture.numbered) := by
    apply List.filterMap_congr
    exact fun frame hframe => toNv12_eq_pixels (huntorn.metadata frame (hframes hframe))
  rw [hsame]
  exact hpixels

/-- From the driver's buffers to `at/tracks`, in every interleaving: what is offered to the ring is,
in order, pictures that the driver had finished, and so are the frames in it, which are numbered
without a gap; each message of the tracker is of one of these pictures, and the messages are in
their order. -/
theorem tracks_of_shots {s : Pipeline F T}
    (h : (machine rfc mt trackerCfg cfg env c producerPid pid jpeg n).ReachableBy
      (Calling cfg env c producerPid pid) s) :
    s.ring.offered.Sublist (s.camera.log.filterMap (pixels jpeg n)) ∧
    (s.ring.calls.map (·.data)).Sublist s.ring.offered ∧
    s.ring.calls.map (·.frameId) = List.range' 1 s.ring.calls.length ∧
    (∀ msg ∈ s.chain.tracker.state.published, ∃ p ∈ s.ring.calls,
      (∃ shot ∈ s.camera.log, pixels jpeg n shot = some p.data) ∧
      ∃ m ∈ s.chain.detector.view.events, Detecting.Shows cfg env c p m ∧
        ∃ state, msg = trackMsg m.frameSeq m.detections state) ∧
    s.chain.tracker.state.published.Pairwise (·.frameSeq.toNat ≤ ·.frameSeq.toNat) := by
  have hfeeds := feeds_reachable h
  have htold := Chain.told_reachable hfeeds.chained
  have hoffered := hfeeds.offered.trans (received_sublist hfeeds.shots)
  have hcalls := (Ring.calls_sublist_offered s.ring).trans hoffered
  refine ⟨hoffered, Ring.calls_sublist_offered s.ring, ?_, fun msg hmsg => ?_, htold.inOrder⟩
  · have hnumbered := Ring.frames_numbered htold.kept.running.inv.frames
    have hlength := congrArg List.length hnumbered
    rw [List.length_map, List.length_range'] at hlength
    change s.ring.calls.map _ = _ at hnumbered
    change s.ring.calls.length = _ at hlength
    rw [hnumbered, hlength]
  · obtain ⟨p, hp, m, hm, hshows⟩ := htold.shown hmsg
    have hdata := hcalls.subset (List.mem_map_of_mem hp)
    obtain ⟨shot, hshot, hpixels⟩ := List.mem_filterMap.mp hdata
    exact ⟨p, hp, ⟨shot, hshot, hpixels⟩, m, hm, hshows⟩

/-- Every frame that the loop took from the camera is counted: as published, as dropped or as an
error, but for the one in the call of `publish` and the one that ended the loop. Between two frames,
when a status is told, its counters add up. -/
theorem frames_accounted {s : Pipeline F T}
    (h : (machine rfc mt trackerCfg cfg env c producerPid pid jpeg n).ReachableBy
      (Calling cfg env c producerPid pid) s) (hcount : s.received.length < 2 ^ 64) :
    s.status.frames ≤ s.received.length ∧ s.received.length ≤ s.status.frames + 1 ∧
    (s.publisher.pc = .top → s.status.frames = s.received.length) := by
  have hfeeds := feeds_reachable h
  have hcounts := hfeeds.counts hcount
  have hkept := (Chain.told_reachable hfeeds.chained).kept
  have hpublished := congrArg List.length hkept.running.inv.frames.numbered
  rw [List.length_map, List.length_range'] at hpublished
  have hframes : s.status.frames = s.ring.published.length + s.ring.region.droppedFrames +
      s.publisher.convertErrors := by
    rw [ring, hpublished]
    rfl
  have hlength : s.received.length = s.status.frames +
      (s.ring.producer.underWay.length + s.publisher.pc.lost) := by
    rw [hframes]
    change s.received.length = s.ring.accounted + _ + _ at hcounts
    rw [hcounts, Ring.State.accounted]
    omega
  rw [hlength]
  by_cases hidle : s.ring.producer = .idle
  · rw [hidle]
    cases s.publisher.pc <;> simp [Ring.ProducerPc.underWay, PublisherPc.lost]
  · rw [hfeeds.busy hidle, Ring.underWay_length hidle]
    simp [PublisherPc.lost]

end

/-- A ring of two pictures of two by two pixels, and a camera that has them in two buffers. -/
def smallRing : CheckedConfig := ⟨⟨2, 2, 2, .nv12⟩, rfl⟩

def smallCamera : Configured := ⟨2, 2, .yuyv, [8, 8]⟩

def noJpeg : JpegDecoder := ⟨fun _ => .error "no JPEG", fun _ => none⟩

/-- The driver has a picture in a buffer, and the thread passes it on. -/
def shotEvents (i : ℕ) (shot : List UInt8) (now : ℤ) : List (PipelineEvent Unit) :=
  let events : List CaptureEvent :=
    shot.zipIdx.map (fun (b, j) => .write i j b) ++ [.fill i shot.length, .check, .dequeue i] ++
      List.replicate (shot.length + 1) .copy ++ [.requeue true, .send now]
  events.map .capture

/-- The loop publishes the picture that waits. -/
def publishTurn (nowNs : ℕ) : List (PipelineEvent Unit) :=
  .turn nowNs :: List.replicate 15 (.chain (.ring .producerStep))

def smallStart : Pipeline ZeroOrNan Unit :=
  ⟨⟨.start smallCamera (fun _ _ => 0) 4, []⟩, ⟨.top, 0⟩, chainStart⟩

/-- Of three pictures, the loop has published two, and the second comes to the tracker. -/
def threeShots : List (PipelineEvent Unit) :=
  shotEvents 0 [1, 2, 3, 4, 5, 6, 7, 8] 7 ++ shotEvents 1 [9, 2, 9, 4, 9, 6, 9, 8] 8 ++
    publishTurn 9 ++ (Ring.nextAfterEvents 1 0 1 0 ⟨1, 9, 2, 2, 0⟩).map (.chain ∘ .ring) ++
    shotEvents 0 [0, 0, 0, 0, 0, 0, 0, 0] 9 ++ publishTurn 10 ++
    (Ring.nextAfterEvents 1 1 0 0 ⟨2, 10, 2, 2, 0⟩).map (.chain ∘ .ring) ++
    [.chain .deliver, .chain (.turn (trackerTurn 1))]

theorem tracks_of_shots_three : ∃ s : Pipeline ZeroOrNan Unit,
    s.ring.calls.map (·.data) = [[1, 3, 5, 7, 2, 4], [9, 9, 9, 9, 2, 4]] ∧
    s.chain.tracker.state.published.map (·.frameSeq) = [2] ∧
    s.ring.offered.Sublist (s.camera.log.filterMap (pixels noJpeg smallCamera)) := by
  have hrun : ((machine unaryTimes oneTrack ⟨false, secs 5, none, none⟩ ⟨.mock, 3⟩ emptySky smallRing
      100 1 noJpeg smallCamera).exec (Calling ⟨.mock, 3⟩ emptySky smallRing 100 1) smallStart
      threeShots).map (fun s => (s.ring.calls.map (·.data),
        s.chain.tracker.state.published.map (·.frameSeq))) =
      some ([[1, 3, 5, 7, 2, 4], [9, 9, 9, 9, 2, 4]], [2]) := by
    decide +kernel
  obtain ⟨s, hs, hout⟩ := Option.map_eq_some_iff.mp hrun
  obtain ⟨hoffered, -⟩ := tracks_of_shots
    (.of_exec (.init ⟨⟨⟨_, rfl⟩, rfl⟩, rfl, ⟨⟨_, rfl, rfl⟩, rfl⟩, rfl, rfl, rfl, rfl, rfl⟩) hs)
  exact ⟨s, (Prod.mk.inj hout).1, (Prod.mk.inj hout).2, hoffered⟩

/-- A picture is published, and the next shot is too short to be one. -/
theorem frames_accounted_short : ∃ s : Pipeline ZeroOrNan Unit,
    s.status = ⟨1, 0, 1⟩ ∧ s.received.length = 2 ∧ s.status.frames ≤ s.received.length := by
  have hrun : ((machine unaryTimes oneTrack ⟨false, secs 5, none, none⟩ ⟨.mock, 3⟩ emptySky smallRing
      100 1 noJpeg smallCamera).exec (Calling ⟨.mock, 3⟩ emptySky smallRing 100 1) smallStart
      (shotEvents 0 [1, 2, 3, 4, 5, 6, 7, 8] 7 ++ publishTurn 9 ++ shotEvents 1 [9, 2, 9] 8 ++
        [.turn 10])).map (fun s => (s.status, s.received.length)) = some (⟨1, 0, 1⟩, 2) := by
    decide +kernel
  obtain ⟨s, hs, hout⟩ := Option.map_eq_some_iff.mp hrun
  obtain ⟨hstatus, hreceived⟩ := Prod.mk.inj hout
  have hfew : s.received.length < 2 ^ 64 := by
    rw [hreceived]
    decide
  obtain ⟨hle, -, -⟩ := frames_accounted
    (.of_exec (.init ⟨⟨⟨_, rfl⟩, rfl⟩, rfl, ⟨⟨_, rfl, rfl⟩, rfl⟩, rfl, rfl, rfl, rfl, rfl⟩) hs) hfew
  exact ⟨s, hstatus, hreceived, hle⟩

end Pipeline

end AutoTargeting.VideoRecorder
