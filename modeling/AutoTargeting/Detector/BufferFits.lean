import AutoTargeting.Detector.Sampling
import AutoTargeting.Ipc.Transport
import AutoTargeting.Ring.LayoutSafety

namespace AutoTargeting.Detector

open Yolo

variable {c : Ring.CheckedConfig} {raw prepared : Frame} {shm : Ipc.FrameShm}

structure OfRing (c : Ring.CheckedConfig) (raw : Frame) : Prop where
  width : raw.width = c.width
  height : raw.height = c.height
  data : raw.data.length = c.frameSize

/-- The client's configuration in `build_backend`, for the geometry of the ring. -/
def bridgeConfig (w h : ℕ) (frameShmPath : String) : Ipc.ClientConfig :=
  ⟨w, h, some frameShmPath, 2⟩

/-- The segment that `init` of this client creates. -/
def frameShm (c : Ring.CheckedConfig) (path : String) (segment : ℕ) (created : Bool) :
    Option Ipc.FrameShm :=
  (Ipc.Client.new (bridgeConfig c.width c.height path)).createShm path segment created

def blackFrame (c : Ring.CheckedConfig) : Frame :=
  ⟨List.replicate c.frameSize 0, c.width, c.height⟩

theorem ofRing_blackFrame (c : Ring.CheckedConfig) : OfRing c (blackFrame c) :=
  ⟨rfl, rfl, List.length_replicate⟩

/-- The geometry of a ring, as a frame size. -/
def sizeOf (c : Ring.CheckedConfig) : FrameSize where
  width := c.width
  height := c.height
  width_pos := c.geometryFits.1
  height_pos := c.geometryFits.2.1
  width_lt := c.words_lt.2.1
  height_lt := c.words_lt.2.2.1

theorem preprocessFrame_isSome (h : OfRing c raw) :
    ∃ prepared, preprocessFrame raw c.format .bridge = some prepared := by
  obtain ⟨hw, -, hfits⟩ := c.geometryFits
  cases hformat : c.format with
  | nv12 =>
    rw [hformat] at hfits
    have hnv12 : c.width % 2 = 0 ∧ c.height % 2 = 0 ∧ 2 * c.frameSize = c.width * c.height * 3 := by
      simpa [Ring.StorageFormat.code, Ring.formatNv12, Ring.formatRgb24] using hfits
    obtain ⟨rgb, hrgb, hlen⟩ := nv12ToRgb24_isSome hw hnv12.2.1 (h.data ▸ hnv12.2.2)
    obtain ⟨out, hout, -⟩ := letterbox_drawn (sizeOf c) hlen
    refine ⟨⟨out, inputSize, inputSize⟩, ?_⟩
    have hout : letterbox rgb c.width c.height = some out := hout
    simp [preprocessFrame, h.width, h.height, hrgb, hout]
  | rgb24 =>
    rw [hformat] at hfits
    have hrgb : c.frameSize = c.width * c.height * 3 := by
      simpa [Ring.StorageFormat.code, Ring.formatNv12, Ring.formatRgb24] using hfits
    obtain ⟨out, hout, -⟩ := letterbox_drawn (sizeOf c) (h.data.trans hrgb)
    refine ⟨⟨out, inputSize, inputSize⟩, ?_⟩
    have hout : letterbox raw.data c.width c.height = some out := hout
    simp [preprocessFrame, h.width, h.height, hout]

theorem frameShm_eq {path : String} {segment : ℕ} {created : Bool}
    (h : frameShm c path segment created = some shm) :
    shm.buffers = 2 ∧ shm.frameSize = max c.width c.height * max c.width c.height * 3 := by
  unfold frameShm Ipc.Client.createShm at h
  simp only at h
  split at h <;> cases h
  exact ⟨rfl, rfl⟩

theorem square_le_iff (n : ℕ) :
    inputSize * inputSize * 3 ≤ n * n * 3 ↔ inputSize ≤ n := by
  rw [Nat.mul_le_mul_right_iff (by decide), Nat.mul_self_le_mul_self_iff]

/-- A prepared frame is written exactly if the square fits in the buffer. -/
theorem writeFrame_isSome_iff {path : String} {segment : ℕ} {created : Bool}
    (hshm : frameShm c path segment created = some shm) {format : Ring.StorageFormat}
    (hprep : preprocessFrame raw format .bridge = some prepared) (m : Ipc.Memory) (cursor : ℕ) :
    (shm.writeFrame m (cursor % shm.buffers) prepared.data).isSome ↔
      inputSize ≤ max c.width c.height := by
  obtain ⟨hbuffers, hsize⟩ := frameShm_eq hshm
  have hindex : ¬ shm.buffers ≤ cursor % shm.buffers := by
    rw [hbuffers]
    omega
  rw [← square_le_iff, ← hsize, ← length_preprocessFrame hprep, Ipc.FrameShm.writeFrame,
    if_neg hindex]
  split <;> simp <;> omega

/-- The buffer of the segment has room for every frame that `infer` is given exactly if a side
of the ring's frames is at least as long as the side of the letterboxed square. -/
theorem frames_fit_iff {path : String} {segment : ℕ} {created : Bool}
    (hshm : frameShm c path segment created = some shm) :
    (∀ raw prepared m cursor, OfRing c raw → preprocessFrame raw c.format .bridge = some prepared →
      (shm.writeFrame m (cursor % shm.buffers) prepared.data).isSome) ↔
      inputSize ≤ max c.width c.height := by
  refine ⟨fun h => ?_, fun h raw prepared m cursor _ hprep =>
    (writeFrame_isSome_iff hshm hprep m cursor).mpr h⟩
  obtain ⟨prepared, hprep⟩ := preprocessFrame_isSome (ofRing_blackFrame c)
  have hfits := h _ prepared (fun _ _ => 0) 0 (ofRing_blackFrame c) hprep
  exact (writeFrame_isSome_iff hshm hprep _ _).mp hfits

/-- 640x480, as the camera delivers it. -/
def vgaConfig : Ring.CheckedConfig := ⟨⟨4, 640, 480, .nv12⟩, rfl⟩

theorem frames_fit_iff_vga :
    ∃ shm, frameShm vgaConfig "/dev/shm/at-infer" 0 true = some shm ∧
      ∀ raw prepared m cursor, OfRing vgaConfig raw →
        preprocessFrame raw .nv12 .bridge = some prepared →
        (shm.writeFrame m (cursor % shm.buffers) prepared.data).isSome := by
  have hshm : frameShm vgaConfig "/dev/shm/at-infer" 0 true =
      some ⟨"/dev/shm/at-infer", 0, 1228800, 2⟩ := by decide
  exact ⟨_, hshm, (frames_fit_iff hshm).mpr (by decide)⟩

/-- A ring of 320x240 frames. -/
def qvgaConfig : Ring.CheckedConfig := ⟨⟨4, 320, 240, .nv12⟩, rfl⟩

theorem frames_too_large :
    ¬ ∀ (c : Ring.CheckedConfig) (path : String) (segment : ℕ) (created : Bool) shm,
      frameShm c path segment created = some shm →
      ∀ raw prepared m cursor, OfRing c raw → preprocessFrame raw c.format .bridge = some prepared →
        (shm.writeFrame m (cursor % shm.buffers) prepared.data).isSome := by
  intro hall
  have hshm : frameShm qvgaConfig "/dev/shm/at-infer" 0 true =
      some ⟨"/dev/shm/at-infer", 0, 307200, 2⟩ := by decide
  obtain ⟨prepared, hprep⟩ := preprocessFrame_isSome (ofRing_blackFrame qvgaConfig)
  have hfits := hall _ _ _ _ _ hshm _ prepared (fun _ _ => 0) 0 (ofRing_blackFrame _) hprep
  exact absurd ((writeFrame_isSome_iff hshm hprep _ _).mp hfits) (by decide)

end AutoTargeting.Detector
