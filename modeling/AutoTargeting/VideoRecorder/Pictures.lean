import AutoTargeting.VideoRecorder.Encoding

namespace AutoTargeting.VideoRecorder

open Buffers
open AutoTargeting.Ring (CheckedConfig FrameView Publication formatNv12 formatRgb24)
open VideoCapture (nv12ToRgb24)

variable {Font : Type} {o : Overlay Font} {rec : Recorder Font} {env : Environment}
  {c : CheckedConfig} {calls recorded : List Publication} {p : Publication} {s : Session}

/-- A published frame as the encoder gets it. -/
def picture (o : Overlay Font) (rec : Recorder Font) (c : CheckedConfig) (p : Publication) :
    List UInt8 :=
  match Recorder.rgbOf c.format (p.view c) p.data with
  | some (.ok rgb) =>
    match rec.burn o c.format c.width c.height (p.view c) rgb with
    | .ok rgb => rgb
    | .error _ => []
  | some (.error _) | none => []

/-- The encoder has the frames `recorded` and then `torn`. -/
structure Session.Whole (o : Overlay Font) (rec : Recorder Font) (c : CheckedConfig)
    (recorded : List Publication) (unwritten : ℕ) (torn : List UInt8) (s : Session) : Prop where
  geometry : s.width = c.width ∧ s.height = c.height ∧ s.format = c.format
  writer : s.writer.width = c.width ∧ s.writer.height = c.height
  piped : s.writer.piped = recorded.flatMap (picture o rec c) ++ torn
  bytesWritten : s.writer.bytesWritten = recorded.length * (c.width * c.height * 3)
  framesWritten : s.stats.framesWritten = recorded.length
  framesReceived : s.stats.framesReceived = recorded.length + unwritten
  osdFrames : s.stats.osdFrames = 0
  statuses : s.statuses.Pairwise (·.framesWritten < ·.framesWritten)
  reported : ∀ status ∈ s.statuses, status.framesWritten ≤ recorded.length
  overlay : rec.osdFont.isSome → s.statuses = []

/-- How the recorder stands to the calls of `publish`. -/
def Phase.Recorded (o : Overlay Font) (rec : Recorder Font) (env : Environment) (c : CheckedConfig)
    (calls : List Publication) : Phase → Prop
  | waiting => True
  | refused e => env.spawned = .error e
  | encoding s => ∃ recorded ⊆ calls, s.writer.stdinOpen = true ∧ s.writer.killed = false ∧
      s.Whole o rec c recorded 0 []
  | failed e s => ∃ recorded last taken message, recorded ++ [last] ⊆ calls ∧
      env.pipe recorded.length = .failed taken message ∧ e = .pipeWrite message ∧
      s.writer.stdinOpen = false ∧ s.writer.killed = true ∧
      s.Whole o rec c recorded 1 ((picture o rec c last).take taken)
  | panicked => False

theorem Phase.Recorded.mono {calls' : List Publication} {phase : Phase} (hsub : calls ⊆ calls')
    (h : phase.Recorded o rec env c calls) : phase.Recorded o rec env c calls' := by
  cases phase with
  | waiting => trivial
  | refused e => exact h
  | encoding s =>
    obtain ⟨recorded, hcalls, hwhole⟩ := h
    exact ⟨recorded, List.Subset.trans hcalls hsub, hwhole⟩
  | failed e s =>
    obtain ⟨recorded, last, taken, message, hcalls, hwhole⟩ := h
    exact ⟨recorded, last, taken, message, List.Subset.trans hcalls hsub, hwhole⟩
  | panicked => exact h

/-- A frame of the ring has the length and the even sides that its conversion needs. -/
theorem rgbOf_frame (hlen : p.data.length = c.frameSize) :
    ∃ rgb, Recorder.rgbOf c.format (p.view c) p.data = some (.ok rgb) ∧
      rgb.length = c.width * c.height * 3 := by
  obtain ⟨hw, -, hfits⟩ := c.geometryFits
  have hmeta : (toMetadata (p.view c)).format = pixelFormat c.format := by
    simp [toMetadata]
  cases hformat : c.format with
  | nv12 =>
    rw [hformat] at hfits hmeta
    rcases hfits with ⟨-, -, heven, hsize⟩ | ⟨hrgb, -⟩
    · obtain ⟨rgb, hrgb, hlength⟩ := Detector.nv12ToRgb24_isSome hw heven (hlen ▸ hsize)
      refine ⟨rgb, ?_, hlength⟩
      have hnv12 : ¬ (toMetadata (p.view c)).format ≠ .nv12 := not_not.mpr hmeta
      have hexpected : ¬ p.data.length ≠ (toMetadata (p.view c)).width *
          (toMetadata (p.view c)).height * 3 / 2 := by
        change ¬ p.data.length ≠ c.width * c.height * 3 / 2
        omega
      have hconvert : nv12ToRgb24 ⟨p.data, toMetadata (p.view c)⟩ =
          some (.ok ⟨rgb, { toMetadata (p.view c) with format := .rgb24 }⟩) := by
        simp only [nv12ToRgb24, VideoCapture.convertPixels]
        rw [if_neg hnv12, if_neg hexpected]
        exact congrArg (Option.map _) hrgb
      simp only [Recorder.rgbOf, hconvert, Option.map_some]
    · cases hrgb
  | rgb24 =>
    rw [hformat] at hfits
    obtain ⟨hnv12, -⟩ | ⟨-, hsize⟩ := hfits
    · cases hnv12
    · exact ⟨p.data, rfl, hlen.trans hsize⟩

/-- Neither the conversion nor the overlay fails, and each picture has the size that
`write_frame` checks. -/
theorem picture_frame (rec : Recorder Font) (ho : o.KeepsSize) (hlen : p.data.length = c.frameSize) :
    ∃ rgb, Recorder.rgbOf c.format (p.view c) p.data = some (.ok rgb) ∧
      rec.burn o c.format c.width c.height (p.view c) rgb = .ok (picture o rec c p) ∧
      (picture o rec c p).length = c.width * c.height * 3 := by
  obtain ⟨rgb, hrgb, hlength⟩ := rgbOf_frame hlen
  have hburn : ∃ out, rec.burn o c.format c.width c.height (p.view c) rgb = .ok out ∧
      out.length = c.width * c.height * 3 := by
    unfold Recorder.burn
    split
    · rw [if_neg (by omega)]
      exact ⟨_, rfl, (ho ..).trans hlength⟩
    · exact ⟨rgb, rfl, hlength⟩
  obtain ⟨out, hout, hsize⟩ := hburn
  have hpicture : picture o rec c p = out := by
    simp only [picture, hrgb, hout]
  exact ⟨rgb, hrgb, hpicture ▸ hout, hpicture ▸ hsize⟩

theorem length_pictures (ho : o.KeepsSize) (h : ∀ p ∈ recorded, p.data.length = c.frameSize) :
    ∀ pic ∈ recorded.map (picture o rec c), pic.length = c.width * c.height * 3 := by
  intro pic hpic
  obtain ⟨p, hp, rfl⟩ := List.mem_map.mp hpic
  obtain ⟨-, -, -, hsize⟩ := picture_frame rec ho (h p hp)
  exact hsize

/-- A turn with a frame of the ring comes to the write, and its outcome is that of the pipe. -/
theorem turn_eq (ho : o.KeepsSize) (hlen : p.data.length = c.frameSize)
    (h : s.Whole o rec c recorded 0 []) (hopen : s.writer.stdinOpen = true) :
    rec.turn o env s (p.view c) p.data =
      match env.pipe recorded.length with
      | .done =>
        .encoding { s with
          writer := { s.writer with
            piped := s.writer.piped ++ picture o rec c p
            bytesWritten := s.writer.bytesWritten + c.width * c.height * 3 }
          stats := { s.stats with
            framesReceived := s.stats.framesReceived + 1
            framesWritten := recorded.length + 1 }
          statuses :=
            if rec.osdFont.isNone ∧ env.second recorded.length ∧ env.bus then
              s.statuses ++ [⟨recorded.length + 1, s.stats.jumps, true, rec.cfg.output⟩]
            else s.statuses }
      | .failed taken message =>
        .failed (.pipeWrite message) { s with
          writer := { s.writer with
            piped := s.writer.piped ++ (picture o rec c p).take taken
            stdinOpen := false
            killed := true }
          stats := { s.stats with framesReceived := s.stats.framesReceived + 1 } } := by
  obtain ⟨hw, hh, hformat⟩ := h.geometry
  obtain ⟨hww, hwh⟩ := h.writer
  obtain ⟨rgb, hrgb, hburn, hsize⟩ := picture_frame rec ho hlen
  have hexpected : ¬ (picture o rec c p).length ≠ c.width * c.height * 3 := not_not.mpr hsize
  simp only [Recorder.turn, hformat, hw, hh, hrgb, hburn, h.framesWritten,
    FfmpegRawWriter.writeFrame, hww, hwh, if_neg hexpected, hopen, not_true_eq_false, if_false]
  cases env.pipe recorded.length with
  | done =>
    dsimp only
    split <;> rfl
  | failed taken message => rfl

theorem Session.Whole.written (h : s.Whole o rec c recorded 0 []) (bus second : Bool) :
    Session.Whole o rec c (recorded ++ [p]) 0 [] { s with
      writer := { s.writer with
        piped := s.writer.piped ++ picture o rec c p
        bytesWritten := s.writer.bytesWritten + c.width * c.height * 3 }
      stats := { s.stats with
        framesReceived := s.stats.framesReceived + 1
        framesWritten := recorded.length + 1 }
      statuses :=
        if rec.osdFont.isNone ∧ second ∧ bus then
          s.statuses ++ [⟨recorded.length + 1, s.stats.jumps, true, rec.cfg.output⟩]
        else s.statuses } where
  geometry := h.geometry
  writer := h.writer
  piped := by simp [h.piped]
  bytesWritten := by
    simp only [h.bytesWritten, List.length_append, List.length_singleton]
    ring
  framesWritten := by simp
  framesReceived := by simp [h.framesReceived]
  osdFrames := h.osdFrames
  statuses := by
    dsimp only
    split
    · refine List.pairwise_append.mpr ⟨h.statuses, List.pairwise_singleton _ _, ?_⟩
      intro status hstatus new hnew
      rw [List.mem_singleton.mp hnew]
      exact Nat.lt_succ_of_le (h.reported status hstatus)
    · exact h.statuses
  reported := by
    have hle : ∀ status ∈ s.statuses, status.framesWritten ≤ (recorded ++ [p]).length := by
      intro status hstatus
      have := h.reported status hstatus
      rw [List.length_append]
      omega
    intro status hstatus
    dsimp only at hstatus
    split at hstatus
    · rcases List.mem_append.mp hstatus with hstatus | hstatus
      · exact hle status hstatus
      · rw [List.mem_singleton.mp hstatus]
        simp
    · exact hle status hstatus
  overlay hosd := by
    have hsome : ¬ (rec.osdFont.isNone = true ∧ second = true ∧ bus = true) := by
      rintro ⟨hnone, -⟩
      rw [Option.isNone_iff_eq_none] at hnone
      simp [hnone] at hosd
    dsimp only
    rw [if_neg hsome]
    exact h.overlay hosd

theorem turn_recorded (ho : o.KeepsSize) (hlen : p.data.length = c.frameSize) (hp : p ∈ calls)
    (hcalls : recorded ⊆ calls) (h : s.Whole o rec c recorded 0 [])
    (hopen : s.writer.stdinOpen = true) (hkilled : s.writer.killed = false) :
    (rec.turn o env s (p.view c) p.data).Recorded o rec env c calls := by
  have hmore : recorded ++ [p] ⊆ calls := by
    intro q hq
    rcases List.mem_append.mp hq with hq | hq
    · exact hcalls hq
    · exact List.mem_singleton.mp hq ▸ hp
  rw [turn_eq ho hlen h hopen]
  cases hpipe : env.pipe recorded.length with
  | done =>
    exact ⟨recorded ++ [p], hmore, hopen, hkilled, h.written env.bus (env.second recorded.length)⟩
  | failed taken message =>
    refine ⟨recorded, p, taken, message, hmore, hpipe, rfl, rfl, rfl, ?_⟩
    exact ⟨h.geometry, h.writer, by simp [h.piped], h.bytesWritten, h.framesWritten,
      by simp [h.framesReceived], h.osdFrames, h.statuses, h.reported, h.overlay⟩

theorem begin_eq : Recorder.begin env (p.view c) = env.spawned.map fun _ =>
    ⟨c.width, c.height, c.format, .spawn c.width c.height, ⟨0, 0, 0, 0⟩, []⟩ := by
  simp only [Recorder.begin, Publication.storageFormat_view]
  rfl

theorem whole_start : Session.Whole o rec c [] 0 []
    ⟨c.width, c.height, c.format, .spawn c.width c.height, ⟨0, 0, 0, 0⟩, []⟩ where
  geometry := ⟨rfl, rfl, rfl⟩
  writer := ⟨rfl, rfl⟩
  piped := rfl
  bytesWritten := (Nat.zero_mul _).symm
  framesWritten := rfl
  framesReceived := rfl
  osdFrames := rfl
  statuses := .nil
  reported := nofun
  overlay _ := rfl

theorem frame_recorded (ho : o.KeepsSize) {phase : Phase} (h : phase.Recorded o rec env c calls)
    (hlen : p.data.length = c.frameSize) (hp : p ∈ calls) (jumps : ℕ) :
    (rec.frame o env jumps (p.view c) p.data phase).Recorded o rec env c calls := by
  cases phase with
  | waiting =>
    cases hspawned : env.spawned with
    | error e =>
      simp only [Recorder.frame, begin_eq, hspawned, Except.map]
      exact hspawned
    | ok =>
      simp only [Recorder.frame, begin_eq, hspawned, Except.map]
      exact turn_recorded ho hlen hp (List.nil_subset _) whole_start rfl rfl
  | encoding s =>
    obtain ⟨recorded, hcalls, hopen, hkilled, hwhole⟩ := h
    refine turn_recorded ho hlen hp hcalls ?_ hopen hkilled
    exact ⟨hwhole.geometry, hwhole.writer, hwhole.piped, hwhole.bytesWritten,
      hwhole.framesWritten, hwhole.framesReceived, hwhole.osdFrames, hwhole.statuses,
      hwhole.reported, hwhole.overlay⟩
  | refused | failed | panicked => exact h

theorem Session.Whole.cut {unwritten : ℕ} {torn : List UInt8}
    (h : s.Whole o rec c recorded unwritten torn) (ho : o.KeepsSize)
    (hsized : ∀ p ∈ recorded, p.data.length = c.frameSize)
    (htorn : torn.length < c.width * c.height * 3) :
    chunks (c.width * c.height * 3) s.writer.piped = recorded.map (picture o rec c) := by
  rw [h.piped, List.flatMap_def]
  exact chunks_flatten_append (by omega) (length_pictures ho hsized) htorn

end AutoTargeting.VideoRecorder
